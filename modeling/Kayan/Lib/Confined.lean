import Kayan.Lib.Monitor

/-!
# Code with few kinds of statements

Code is confined to a set of statements where it issues no others, whatever the store replies. A
protocol that lets these statements pass in every phase is kept by it.
-/
namespace Interleave

variable {σ τ ε φ X α β : Type} {ρ : σ → Type} {H H' : σ → Prop}

/-- Whatever its statements reply, the program issues only statements that satisfy `H`. -/
def Issues (H : σ → Prop) : Prog σ ρ α → Prop
  | .ret _ => True
  | .call q k => H q ∧ ∀ r, Issues H (k r)

theorem Issues.bind {p : Prog σ ρ α} {f : α → Prog σ ρ β} (h : Issues H p) (hf : ∀ a, Issues H (f a)) :
    Issues H (p.bind f) := by
  induction p with
  | ret a => exact hf a
  | call q k ih => exact ⟨h.1, fun r => ih r (h.2 r)⟩

theorem Issues.follows {P : Protocol σ ρ X} {p : Prog σ ρ α} {x : X} (h : Issues H p)
    (hP : ∀ q r, H q → P x q r x) : Follows P (fun _ y => y = x) p x := by
  induction p with
  | ret a => exact rfl
  | call q k ih => exact fun r => ⟨x, hP q r h.1, ih r (h.2 r)⟩

/-- The program moves among the phases that its statements do not leave. -/
theorem Issues.within {P : Protocol σ ρ X} {I : X → Prop} {p : Prog σ ρ α} {x : X} (h : Issues H p)
    (hP : ∀ x q r, I x → H q → ∃ y, P x q r y ∧ I y) (hx : I x) : Follows P (fun _ y => I y) p x := by
  induction p generalizing x with
  | ret a => exact hx
  | call q k ih =>
    intro r
    obtain ⟨y, hy, hi⟩ := hP x q r hx h.1
    exact ⟨y, hy, ih r (h.2 r) hi⟩

/-- The steps of a program that keeps to a protocol are steps for its own statements. -/
theorem Issues.narrows {P : Protocol σ ρ X} {Post : α → X → Prop} {p : Prog σ ρ α} {x : X} (h : Issues H p)
    (hp : Follows P Post p x) : Follows (fun x q r y => P x q r y ∧ H q) Post p x := by
  induction p generalizing x with
  | ret a => exact hp
  | call q k ih =>
    intro r
    obtain ⟨y, hy, hk⟩ := hp r
    exact ⟨y, ⟨hy, h.1⟩, ih r (h.2 r) hk⟩

theorem Issues.mono {p : Prog σ ρ α} (h : Issues H p) (hH : ∀ q, H q → H' q) : Issues H' p := by
  induction p with
  | ret a => trivial
  | call q k ih => exact ⟨hH q h.1, fun r => ih r (h.2 r)⟩

theorem Issues.embed {ρ' : τ → Type} {f : σ → τ} {H : τ → Prop} {p : Prog σ (fun q => ρ' (f q)) α}
    (h : Issues (fun q => H (f q)) p) : Issues H (p.embed f) := by
  induction p with
  | ret a => trivial
  | call q k ih => exact ⟨h.1, fun r => ih r (h.2 r)⟩

theorem Issues.translate {ρ' : τ → Type} {f : (q : σ) → Prog τ ρ' (ρ q)} {H' : τ → Prop} {p : Prog σ ρ α}
    (h : Issues H p) (hf : ∀ q, H q → Issues H' (f q)) : Issues H' (p.translate f) := by
  induction p with
  | ret a => trivial
  | call q k ih => exact (hf q h.1).bind fun r => ih r (h.2 r)

theorem Issues.any (p : Prog σ ρ α) : Issues (fun _ => True) p := by
  induction p with
  | ret a => trivial
  | call q k ih => exact ⟨trivial, ih⟩

/-- The code issues only statements that satisfy `H`. -/
def Confined (H : σ → Prop) (x : Code σ ρ ε φ α) : Prop := Issues H x.run

variable {x : Code σ ρ ε φ α}

theorem Confined.mono (h : Confined H x) (hH : ∀ q, H q → H' q) : Confined H' x := Issues.mono h hH

theorem Confined.pure {a : α} : Confined H (Pure.pure a : Code σ ρ ε φ α) := trivial

theorem Confined.throw {e : φ} : Confined H (throw e : Code σ ρ ε φ α) := trivial

theorem Confined.await {wrap : ε → φ} {q : σ} (h : H q) : Confined H (await wrap q : Code σ ρ ε φ (ρ q)) :=
  ⟨h, fun _ => trivial⟩

theorem Confined.bind {f : α → Code σ ρ ε φ β} (h : Confined H x) (hf : ∀ a, Confined H (f a)) :
    Confined H (x >>= f) := by
  refine Issues.bind h fun r => ?_
  cases r with
  | ok a => exact hf a
  | error e => trivial

theorem Confined.lift {p : Prog σ (fun q => Except ε (ρ q)) α} (h : Issues H p) :
    Confined H (ExceptT.lift p : Code σ ρ ε φ α) := Issues.bind h fun _ => trivial

theorem Confined.catch {handler : φ → Code σ ρ ε φ α} (h : Confined H x) (hh : ∀ e, Confined H (handler e)) :
    Confined H (tryCatch x handler) := by
  refine Issues.bind h fun r => ?_
  cases r with
  | ok a => trivial
  | error e => exact hh e

theorem Confined.transaction {wrap : ε → φ} {start finish undo : σ} (hstart : H start) (hfinish : H finish)
    (hundo : H undo) (h : Confined H x) : Confined H (transaction wrap start finish undo x) := by
  refine Confined.catch ?_ fun e => ?_
  · exact Confined.bind (Confined.await hstart) fun _ => Confined.bind h fun _ =>
      Confined.bind (Confined.await hfinish) fun _ => Confined.pure
  · exact Confined.bind (Confined.await hundo) fun _ => Confined.throw

/-- Such code leaves every phase as it is. -/
theorem Confined.still {P : Protocol σ (fun q => Except ε (ρ q)) X} {y : X} (h : Confined H x)
    (hP : ∀ q r, H q → P y q r y) : Still P y x := by
  refine Follows.mono (Issues.follows h hP) fun r z hz => ?_
  cases r <;> exact hz

end Interleave
