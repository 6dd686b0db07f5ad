import Kayan.Lib.Protocol

/-!
# Programs that run with no others in between

`Runs act p d a d'`: started in the store `d`, the program `p` takes its statements one after the other, each
in one of the ways that `act` allows, ends with `a` and leaves `d'`. `Ensures` has the rules for pre- and
postconditions of such runs.
-/
namespace Interleave

variable {σ τ D D' ε φ X α β : Type} {ρ : σ → Type} {ρ' : τ → Type}

/-- What a statement may reply, and the store that it may leave. -/
abbrev Acts (σ : Type) (ρ : σ → Type) (D : Type) : Type := (q : σ) → D → ρ q → D → Prop

inductive Runs (act : Acts σ ρ D) : Prog σ ρ α → D → α → D → Prop
  | ret {a : α} {d : D} : Runs act (.ret a) d a d
  | call {q : σ} {k : ρ q → Prog σ ρ α} {r : ρ q} {a : α} {d d' d'' : D} (hq : act q d r d')
      (hk : Runs act (k r) d' a d'') : Runs act (.call q k) d a d''

section Programs
variable {act : Acts σ ρ D} {p : Prog σ ρ α} {a : α} {b : β} {d d' d'' : D}

theorem Runs.of_alone {f : (q : σ) → D → Option (ρ q × D)} (hf : ∀ q d r d', f q d = some (r, d') → act q d r d')
    (h : p.alone f d = some (a, d')) : Runs act p d a d' := by
  induction p generalizing d with
  | ret b =>
    cases h
    exact .ret
  | call q k ih =>
    obtain ⟨⟨r, e⟩, hr, hk⟩ := Option.bind_eq_some_iff.mp h
    exact .call (hf q d r e hr) (ih r hk)

theorem Runs.bind {f : α → Prog σ ρ β} (h : Runs act p d a d') (hf : Runs act (f a) d' b d'') :
    Runs act (p.bind f) d b d'' := by
  induction h with
  | ret => exact hf
  | call hq _ ih => exact .call hq (ih hf)

/-- The parts of a run. -/
theorem Runs.of_bind {f : α → Prog σ ρ β} (h : Runs act (p.bind f) d b d'') :
    ∃ a d', Runs act p d a d' ∧ Runs act (f a) d' b d'' := by
  induction p generalizing d with
  | ret a => exact ⟨a, d, .ret, h⟩
  | call q k ih =>
    cases h with
    | call hq hk =>
      obtain ⟨a, d', hp, hf⟩ := ih _ hk
      exact ⟨a, d', .call hq hp, hf⟩

/-- A run of an embedded program, seen in the stores of its own statements. -/
theorem Runs.of_embed {g : σ → τ} {act' : Acts τ ρ' D'} {act : Acts σ (fun q => ρ' (g q)) D} {view : D' → D}
    (hview : ∀ q d r d', act' (g q) d r d' → act q (view d) r (view d')) {p : Prog σ (fun q => ρ' (g q)) α}
    {d d' : D'} (h : Runs act' (p.embed g) d a d') : Runs act p (view d) a (view d') := by
  induction p generalizing d with
  | ret b =>
    cases h
    exact .ret
  | call q k ih =>
    cases h with
    | call hq hk => exact .call (hview q _ _ _ hq) (ih _ hk)

/-- What the statements of an embedded program keep, its runs keep. -/
theorem Runs.embed_keeps {g : σ → τ} {act : Acts τ ρ' D} {I : D → Prop}
    (hI : ∀ q d r d', act (g q) d r d' → I d → I d') {p : Prog σ (fun q => ρ' (g q)) α} (h : Runs act (p.embed g) d a d')
    (hd : I d) : I d' := by
  induction p generalizing d with
  | ret b =>
    cases h
    exact hd
  | call q k ih =>
    cases h with
    | call hq hk => exact ih _ hk (hI q _ _ _ hq hd)

/-- What every statement keeps, a run keeps. -/
theorem Runs.keeps {I : D → Prop} (hI : ∀ q d r d', act q d r d' → I d → I d') (h : Runs act p d a d') (hd : I d) :
    I d' := by
  induction h with
  | ret => exact hd
  | call hq _ ih => exact ih (hI _ _ _ _ hq hd)

/-- What the steps of a protocol keep, the runs of a program that keeps to it keep. -/
theorem Follows.runs {P : Protocol σ ρ X} {Post : α → X → Prop} {I : X → D → Prop} {x : X}
    (h : Follows P Post p x) (hI : ∀ x q r y d d', P x q r y → act q d r d' → I x d → I y d') (hp : Runs act p d a d')
    (hi : I x d) : ∃ y, Post a y ∧ I y d' := by
  induction hp generalizing x with
  | ret => exact ⟨x, h, hi⟩
  | @call q k r a d d' d'' hq _ ih =>
    obtain ⟨y, hy, hf⟩ := h r
    exact ih hf (hI x q r y d d' hy hq hi)

/-- A run of a program, as the steps of one client while the others wait. -/
theorem Runs.trace {ι M : Type} [DecidableEq ι] {Tr : Config ι σ ρ α D → Event ι M σ ρ → Config ι σ ρ α D → Prop} {c : ι}
    (hTr : ∀ s q k r d', s.prog c = .call q k → act q s.db r d' →
      ∃ m, Tr s ⟨c, m, q, r⟩ ⟨d', Function.update s.prog c (k r)⟩)
    {s : Config ι σ ρ α D} (h : Runs act (s.prog c) s.db a d') :
    ∃ xs t, Trace.Run Tr s xs t ∧ t.prog c = .ret a ∧ t.db = d' := by
  generalize hp : s.prog c = p at h
  generalize hd : s.db = d at h
  induction h generalizing s with
  | ret => exact ⟨[], s, .refl, hp, hd⟩
  | @call q k r a d d' d'' hq _ ih =>
    subst hd
    obtain ⟨m, hstep⟩ := hTr s q k r d' hp hq
    obtain ⟨xs, t, hrun, hprog, hdb⟩ := @ih ⟨d', Function.update s.prog c (k r)⟩ (Function.update_self c _ s.prog) rfl
    exact ⟨_, t, .step hstep hrun, hprog, hdb⟩

end Programs

section Triples
variable {act : Acts σ (fun q => Except ε (ρ q)) D} {P P' : D → Prop} {Q Q' : α → D → Prop} {E E' : D → Prop}

/-- Code goes on with a result. -/
theorem Runs.then {x : Code σ ρ ε φ α} {f : α → Code σ ρ ε φ β} {a : α} {r : Except φ β} {d d' d'' : D}
    (h : Runs act x.run d (.ok a) d') (hf : Runs act (f a).run d' r d'') : Runs act (x >>= f).run d r d'' :=
  Runs.bind h hf

/-- An exception is caught. -/
theorem Runs.caught {x : Code σ ρ ε φ α} {handler : φ → Code σ ρ ε φ α} {e : φ} {r : Except φ α} {d d' d'' : D}
    (h : Runs act x.run d (.error e) d') (hh : Runs act (handler e).run d' r d'') :
    Runs act (tryCatch x handler).run d r d'' :=
  Runs.bind h hh

/-- Code that goes on, seen in its parts. -/
theorem Runs.of_then {x : Code σ ρ ε φ α} {f : α → Code σ ρ ε φ β} {r : Except φ β} {d d'' : D}
    (h : Runs act (x >>= f).run d r d'') :
    (∃ a d', Runs act x.run d (.ok a) d' ∧ Runs act (f a).run d' r d'') ∨
      ∃ e, Runs act x.run d (.error e) d'' ∧ r = .error e := by
  obtain ⟨o, d', hx, hrest⟩ := Runs.of_bind h
  cases o with
  | ok a => exact .inl ⟨a, d', hx, hrest⟩
  | error e =>
    cases hrest
    exact .inr ⟨e, hx, rfl⟩

/-- One statement. -/
theorem Runs.of_await {wrap : ε → φ} {q : σ} {r : Except φ (ρ q)} {d d' : D}
    (h : Runs act (await wrap q : Code σ ρ ε φ (ρ q)).run d r d') : ∃ v, act q d v d' ∧ r = v.mapError wrap := by
  cases h with
  | @call _ _ v _ _ _ _ hq hk =>
    cases hk
    exact ⟨v, hq, rfl⟩

theorem Runs.await {wrap : ε → φ} {q : σ} {v : Except ε (ρ q)} {d d' : D} (h : act q d v d') :
    Runs act (await wrap q : Code σ ρ ε φ (ρ q)).run d (v.mapError wrap) d' :=
  .call h .ret

/-- Started where `P` holds, the code ends in `Q` with its result, and in `E` when it throws. -/
def Ensures (act : Acts σ (fun q => Except ε (ρ q)) D) (P : D → Prop) (x : Code σ ρ ε φ α) (Q : α → D → Prop)
    (E : D → Prop) : Prop :=
  ∀ d r d', P d → Runs act x.run d r d' → outcome Q E r d'

theorem Ensures.pure {a : α} (hq : ∀ d, P d → Q a d) : Ensures act P (Pure.pure a : Code σ ρ ε φ α) Q E := by
  intro d r d' hd h
  cases h
  exact hq d hd

theorem Ensures.throw {e : φ} (he : ∀ d, P d → E d) : Ensures act P (throw e : Code σ ρ ε φ α) Q E := by
  intro d r d' hd h
  cases h
  exact he d hd

theorem Ensures.conseq {x : Code σ ρ ε φ α} (h : Ensures act P x Q E) (hp : ∀ d, P' d → P d)
    (hq : ∀ a d, Q a d → Q' a d) (he : ∀ d, E d → E' d) : Ensures act P' x Q' E' := by
  intro d r d' hd hx
  have hr : outcome Q E r d' := h d r d' (hp d hd) hx
  cases r with
  | ok a => exact hq a d' hr
  | error _ => exact he d' hr

/-- A program that cannot throw, as code. -/
theorem Ensures.lift {p : Prog σ (fun q => Except ε (ρ q)) α} (h : ∀ d a d', P d → Runs act p d a d' → Q a d') :
    Ensures act P (ExceptT.lift p : Code σ ρ ε φ α) Q E := by
  intro d r d' hd hrun
  obtain ⟨a, d₁, hp, hret⟩ := Runs.of_bind hrun
  cases hret
  exact h d a d' hd hp

/-- What holds before the code holds whatever it does. -/
theorem Ensures.frame {x : Code σ ρ ε φ α} {F : Prop} (hp : ∀ d, P d → F) :
    Ensures act P x (fun _ _ => F) fun _ => True := by
  intro d r d' hd _
  cases r with
  | ok a => exact hp d hd
  | error e => trivial

theorem Ensures.bind {x : Code σ ρ ε φ α} {f : α → Code σ ρ ε φ β} {R : β → D → Prop} (hx : Ensures act P x Q E)
    (hf : ∀ a, Ensures act (Q a) (f a) R E) : Ensures act P (x >>= f) R E := by
  intro d r d'' hd h
  obtain ⟨r', d', hrun, hrest⟩ := Runs.of_bind h
  have hr : outcome Q E r' d' := hx d r' d' hd hrun
  cases r' with
  | ok a => exact hf a d' r d'' hr hrest
  | error e =>
    cases hrest
    exact hr

theorem Ensures.catch {x : Code σ ρ ε φ α} {handler : φ → Code σ ρ ε φ α} (hx : Ensures act P x Q E)
    (hh : ∀ e, Ensures act E (handler e) Q E') : Ensures act P (tryCatch x handler) Q E' := by
  intro d r d'' hd h
  obtain ⟨r', d', hrun, hrest⟩ := Runs.of_bind h
  have hr : outcome Q E r' d' := hx d r' d' hd hrun
  cases r' with
  | ok a =>
    cases hrest
    exact hr
  | error e => exact hh e d' r d'' hr hrest

/-- One statement. -/
theorem Ensures.await {wrap : ε → φ} {q : σ} {Q : ρ q → D → Prop}
    (h : ∀ d r d', P d → act q d r d' → outcome Q E r d') : Ensures act P (await wrap q : Code σ ρ ε φ (ρ q)) Q E := by
  intro d r d' hd hrun
  cases hrun with
  | @call _ _ v _ _ _ _ hq hk =>
    have hr : outcome Q E v _ := h d v _ hd hq
    cases hk
    cases v <;> exact hr

/-- A transaction ends in `R`, or undone in `F`. -/
theorem Ensures.transaction {wrap : ε → φ} {start finish undo : σ} {callback : Code σ ρ ε φ α} {B F : D → Prop}
    {R : α → D → Prop} (hstart : Ensures act P (Interleave.await wrap start) (fun _ => B) E)
    (hcall : Ensures act B callback Q E) (hfinish : ∀ a, Ensures act (Q a) (Interleave.await wrap finish) (fun _ => R a) E)
    (hundo : Ensures act E (Interleave.await wrap undo) (fun _ => F) F) :
    Ensures act P (Interleave.transaction wrap start finish undo callback) R F := by
  refine Ensures.catch (E := E) ?_ fun e => ?_
  · refine Ensures.bind hstart fun _ => Ensures.bind hcall fun a => ?_
    exact Ensures.bind (hfinish a) fun _ => Ensures.pure fun _ => id
  · exact Ensures.bind hundo fun _ => Ensures.throw fun _ => id

/-- A transaction whose code returns. -/
theorem Runs.transaction {wrap : ε → φ} {start finish undo : σ} {callback : Code σ ρ ε φ α} {a : α} {u : ρ start}
    {v : ρ finish} {d d₁ d₂ d' : D} (hstart : act start d (.ok u) d₁) (hcall : Runs act callback.run d₁ (.ok a) d₂)
    (hfinish : act finish d₂ (.ok v) d') :
    Runs act (Interleave.transaction wrap start finish undo callback).run d (.ok a) d' := by
  have hbody : Runs act (do
      let _ ← Interleave.await wrap start
      let result ← callback
      let _ ← Interleave.await wrap finish
      pure result : Code σ ρ ε φ α).run d (.ok a) d' :=
    Runs.then (Runs.await hstart) (Runs.then hcall (Runs.then (Runs.await hfinish) .ret))
  exact Runs.bind hbody .ret

end Triples

end Interleave
