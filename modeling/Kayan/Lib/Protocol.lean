import Kayan.Lib.Triple

/-!
# Protocols

A protocol is an automaton beside a program: in each phase it says where the reply of a
statement may lead, and a statement that leads nowhere must not be issued. `Follows` reads
off the text of a program that it keeps to the protocol. What the phases mean for the
store is an invariant of the runs, proved without the text of any program (`InPhase.step`).
-/
namespace Interleave

variable {ι M σ τ D ε φ X α β : Type} {ρ : σ → Type} {ρ' : τ → Type}

/-- Where the reply of a statement may lead from a phase. -/
abbrev Protocol (σ : Type) (ρ : σ → Type) (X : Type) : Type := X → (q : σ) → ρ q → X → Prop

/-- From the phase `x` the program keeps to the protocol, whatever its statements reply,
and it ends with a result and a phase that satisfy `Post`. -/
def Follows (P : Protocol σ ρ X) (Post : α → X → Prop) : Prog σ ρ α → X → Prop
  | .ret a, x => Post a x
  | .call q k, x => ∀ r, ∃ y, P x q r y ∧ Follows P Post (k r) y

section Rules
variable {P : Protocol σ ρ X} {Post Post' : α → X → Prop} {p : Prog σ ρ α} {x : X}

theorem Follows.mono (h : Follows P Post p x) (hp : ∀ a y, Post a y → Post' a y) :
    Follows P Post' p x := by
  induction p generalizing x with
  | ret a => exact hp a x h
  | call q k ih =>
    intro r
    obtain ⟨y, hy, hk⟩ := h r
    exact ⟨y, hy, ih r hk⟩

theorem Follows.bind {f : α → Prog σ ρ β} {Post' : β → X → Prop} (h : Follows P Post p x)
    (hf : ∀ a y, Post a y → Follows P Post' (f a) y) : Follows P Post' (p.bind f) x := by
  induction p generalizing x with
  | ret a => exact hf a x h
  | call q k ih =>
    intro r
    obtain ⟨y, hy, hk⟩ := h r
    exact ⟨y, hy, ih r hk⟩

end Rules

/-- A program that runs alone keeps what the steps of its protocol keep. -/
theorem Follows.alone {act : (q : σ) → D → Option (ρ q × D)} {I : X → D → Prop} {d d' : D} {a : α}
    (h : Follows P Post p x) (hI : ∀ x q r y d d', P x q r y → act q d = some (r, d') → I x d → I y d')
    (hp : p.alone act d = some (a, d')) (hi : I x d) : ∃ y, Post a y ∧ I y d' := by
  induction p generalizing x d with
  | ret b =>
    cases hp
    exact ⟨x, h, hi⟩
  | call q k ih =>
    obtain ⟨⟨r, e⟩, hr, hk⟩ := Option.bind_eq_some_iff.mp hp
    obtain ⟨y, hy, hf⟩ := h r
    exact ih r hf hk (hI x q r y d e hy hr hi)

/-- A program over some of the statements, as a program over all of them. -/
def Prog.embed (f : σ → τ) : Prog σ (fun q => ρ' (f q)) α → Prog τ ρ' α
  | .ret a => .ret a
  | .call q k => .call (f q) fun r => (k r).embed f

theorem Follows.embed {f : σ → τ} {P : Protocol τ ρ' X} {Post : α → X → Prop}
    {p : Prog σ (fun q => ρ' (f q)) α} {x : X}
    (h : Follows (fun x q => P x (f q)) Post p x) : Follows P Post (p.embed f) x := by
  induction p generalizing x with
  | ret a => exact h
  | call q k ih =>
    intro r
    obtain ⟨y, hy, hk⟩ := h r
    exact ⟨y, hy, ih r hk⟩

/-- Alone, an embedded program does what it did. -/
theorem embed_alone {D : Type} {f : σ → τ} {act : (q : τ) → D → Option (ρ' q × D)}
    (p : Prog σ (fun q => ρ' (f q)) α) (d : D) :
    (p.embed f).alone act d = p.alone (fun q d => act (f q) d) d := by
  induction p generalizing d with
  | ret a => rfl
  | call q k ih =>
    refine congrArg (Option.bind _) (funext fun x => ?_)
    exact ih x.1 x.2

/-- A program whose statements are replaced by programs. -/
def Prog.translate (f : (q : σ) → Prog τ ρ' (ρ q)) : Prog σ ρ α → Prog τ ρ' α
  | .ret a => .ret a
  | .call q k => (f q).bind fun r => (k r).translate f

/-- A translated program keeps to a protocol where each statement's program keeps to the one
step of the original. -/
theorem Follows.translate {f : (q : σ) → Prog τ ρ' (ρ q)} {P : Protocol σ ρ X} {P' : Protocol τ ρ' X}
    {Post : α → X → Prop} {p : Prog σ ρ α} {x : X} (h : Follows P Post p x)
    (hf : ∀ q x (C : ρ q → X → Prop), (∀ r, ∃ y, P x q r y ∧ C r y) → Follows P' C (f q) x) :
    Follows P' Post (p.translate f) x := by
  induction p generalizing x with
  | ret a => exact h
  | call q k ih =>
    refine Follows.bind (hf q x _ h) fun r y hk => ?_
    exact ih r hk

section Codes
variable {P : Protocol σ (fun q => Except ε (ρ q)) X} {x y : X} {Q : α → X → Prop} {E : X → Prop}

/-- Code keeps to the protocol: a result ends it in `Q`, an exception in `E`. -/
def Keeps (P : Protocol σ (fun q => Except ε (ρ q)) X) (x : X) (code : Code σ ρ ε φ α)
    (Q : α → X → Prop) (E : X → Prop) : Prop :=
  Follows P (outcome Q E) code.run x

theorem Keeps.pure {a : α} (h : Q a x) : Keeps P x (Pure.pure a : Code σ ρ ε φ α) Q E := h

theorem Keeps.throw {e : φ} (h : E x) : Keeps P x (throw e : Code σ ρ ε φ α) Q E := h

theorem Keeps.mono {Q' : α → X → Prop} {E' : X → Prop} {code : Code σ ρ ε φ α}
    (h : Keeps P x code Q E) (hq : ∀ a y, Q a y → Q' a y) (he : ∀ y, E y → E' y) :
    Keeps P x code Q' E' := by
  refine Follows.mono h fun r y hr => ?_
  cases r with
  | ok a => exact hq a y hr
  | error _ => exact he y hr

theorem Keeps.bind {code : Code σ ρ ε φ α} {f : α → Code σ ρ ε φ β} {R : β → X → Prop}
    (h : Keeps P x code Q E) (hf : ∀ a y, Q a y → Keeps P y (f a) R E) :
    Keeps P x (code >>= f) R E := by
  refine Follows.bind h fun r y hr => ?_
  cases r with
  | ok a => exact hf a y hr
  | error _ => exact hr

theorem Keeps.await {wrap : ε → φ} {q : σ} {Q : ρ q → X → Prop}
    (h : ∀ r, ∃ y, P x q r y ∧ outcome Q E r y) :
    Keeps P x (await wrap q) Q E := by
  intro r
  obtain ⟨y, hy, hr⟩ := h r
  refine ⟨y, hy, ?_⟩
  cases r <;> exact hr

/-- A transaction: its code runs after the opening statement, and from what an exception
leaves there is a way to undo it. -/
theorem Keeps.transaction {wrap : ε → φ} {start finish undo : σ} {callback : Code σ ρ ε φ α}
    {F : X → Prop} {R : α → X → Prop}
    (hstart : ∀ r, ∃ z, P x start r z ∧ outcome (fun _ z => z = y) E r z)
    (hcall : Keeps P y callback Q E)
    (hfinish : ∀ a y, Q a y → ∀ r, ∃ z, P y finish r z ∧ outcome (fun _ => R a) E r z)
    (hundo : ∀ y, E y → ∀ r, ∃ z, P y undo r z ∧ F z) :
    Keeps P x (transaction wrap start finish undo callback) R F := by
  have hbody : Keeps P x (do
      let _ ← Interleave.await wrap start
      let result ← callback
      let _ ← Interleave.await wrap finish
      Pure.pure result) R E := by
    refine Keeps.bind (Keeps.await hstart) fun _ z hz => ?_
    subst hz
    refine Keeps.bind hcall fun a y hy => ?_
    refine Keeps.bind (Keeps.await (hfinish a y hy)) fun _ z hz => ?_
    exact Keeps.pure hz
  refine Follows.bind hbody fun r y hr => ?_
  cases r with
  | ok a => exact hr
  | error e =>
    refine Keeps.bind (Q := fun _ => F) (Keeps.await fun r => ?_) fun _ z hz => Keeps.throw hz
    obtain ⟨z, hz, hf⟩ := hundo y hr r
    exact ⟨z, hz, by cases r <;> exact hf⟩

end Codes

section Runs
variable [DecidableEq ι] {act : M → ι → (q : σ) → D → Option (ρ q × D)} {P : Protocol σ ρ X}
  {Post : α → X → Prop} {s t : Config ι σ ρ α D} {e : Event ι M σ ρ}

/-- Every client keeps to the protocol from its phase. -/
def InPhase (P : Protocol σ ρ X) (Post : α → X → Prop) (ph : ι → X) (s : Config ι σ ρ α D) : Prop :=
  ∀ c, Follows P Post (s.prog c) (ph c)

/-- One step moves the phase of its client, and every client still keeps to the protocol. -/
theorem InPhase.step {ph : ι → X} (h : InPhase P Post ph s) (hs : Step act s e t) :
    ∃ y, P (ph e.client) e.stmt e.reply y ∧ InPhase P Post (Function.update ph e.client y) t := by
  cases hs with
  | @call m c q k r d hp ha =>
    have hc := h c
    rw [hp] at hc
    obtain ⟨y, hy, hk⟩ := hc r
    refine ⟨y, hy, fun b => ?_⟩
    by_cases hb : b = c
    · subst b
      simpa using hk
    · simpa [hb] using h b

/-- What the store does for a step. -/
theorem Step.acted (h : Step act s e t) : act e.move e.client e.stmt s.db = some (e.reply, t.db) := by
  cases h with
  | call hp ha => exact ha

/-- A statement that client `c` issues next. -/
def Next (c : ι) (q : σ) (s : Config ι σ ρ α D) : Prop := ∃ k, s.prog c = .call q k

theorem Step.next (h : Step act s e t) : Next e.client e.stmt s := by
  cases h with
  | call hp ha => exact ⟨_, hp⟩

/-- A step of another client leaves the next statement of `c` as it is. -/
theorem Next.other {c : ι} {q : σ} (h : Next c q t) (hs : Step act s e t) (hc : c ≠ e.client) :
    Next c q s := by
  cases hs with
  | call hp ha =>
    obtain ⟨k, hk⟩ := h
    exact ⟨k, by simpa [hc] using hk⟩

end Runs

end Interleave
