import Kayan.Lib.Prog

/-!
# Triples for interleaved code

Code whose statements may raise an error, and whose errors are exceptions that can be
caught. `Triple P x Q E`: started where `P` holds, `x` is safe among the other clients,
it ends in `Q` with its result, and in `E` when it throws.
-/
namespace Interleave

variable {ι M σ D ε φ : Type} {ρ : σ → Type} {α β : Type}

/-- Code over statements that reply with a value or an error. -/
abbrev Code (σ : Type) (ρ : σ → Type) (ε φ : Type) (α : Type) : Type :=
  ExceptT φ (Prog σ fun q => Except ε (ρ q)) α

/-- Awaits one statement; its error is thrown, wrapped. -/
def await (wrap : ε → φ) (q : σ) : Code σ ρ ε φ (ρ q) :=
  ExceptT.mk (.call q fun r => .ret (r.mapError wrap))

/-- Code between two statements that open and close a transaction; an exception is thrown
on after a third one has undone it. -/
def transaction (wrap : ε → φ) (start finish undo : σ) (callback : Code σ ρ ε φ α) :
    Code σ ρ ε φ α :=
  tryCatch
    (do
      let _ ← await wrap start
      let result ← callback
      let _ ← await wrap finish
      pure result)
    fun error => do
      let _ ← await wrap undo
      throw error

/-- A statement that replies, in code that runs alone. -/
theorem await_alone {act : (q : σ) → D → Option (Except ε (ρ q) × D)} {wrap : ε → φ} {q : σ} {r : ρ q}
    {f : ρ q → Code σ ρ ε φ β} {d d' : D} (h : act q d = some (.ok r, d')) :
    (await wrap q >>= f).run.alone act d = (f r).run.alone act d' := by
  change (act q d).bind _ = _
  rw [h]
  rfl

section Alone
variable {act : (q : σ) → D → Option (Except ε (ρ q) × D)} {wrap : ε → φ} {x : Code σ ρ ε φ α}
  {f : α → Code σ ρ ε φ β} {a : α} {e : φ} {d d' d'' : D}

/-- A statement that fails, in code that runs alone. -/
theorem await_alone_error {q : σ} {f : ρ q → Code σ ρ ε φ β} {e : ε} (h : act q d = some (.error e, d')) :
    (await wrap q >>= f).run.alone act d = some (.error (wrap e), d') := by
  change (act q d).bind _ = _
  rw [h]
  rfl

theorem bind_alone (h : x.run.alone act d = some (.ok a, d')) :
    (x >>= f).run.alone act d = (f a).run.alone act d' := by
  refine (alone_bind x.run d).trans ?_
  rw [h]
  rfl

theorem bind_alone_error (h : x.run.alone act d = some (.error e, d')) :
    (x >>= f).run.alone act d = some (.error e, d') := by
  refine (alone_bind x.run d).trans ?_
  rw [h]
  rfl

theorem catch_alone {g : φ → Code σ ρ ε φ α} (h : x.run.alone act d = some (.ok a, d')) :
    (tryCatch x g : Code σ ρ ε φ α).run.alone act d = some (.ok a, d') := by
  refine (alone_bind x.run d).trans ?_
  rw [h]
  rfl

theorem catch_alone_error {g : φ → Code σ ρ ε φ α} (h : x.run.alone act d = some (.error e, d')) :
    (tryCatch x g : Code σ ρ ε φ α).run.alone act d = (g e).run.alone act d' := by
  refine (alone_bind x.run d).trans ?_
  rw [h]
  rfl

variable {start finish undo : σ} {r : ρ start}

/-- A transaction whose code returns, run alone. -/
theorem transaction_alone {v : ρ finish} (hs : act start d = some (.ok r, d))
    (h : x.run.alone act d = some (.ok a, d')) (hf : act finish d' = some (.ok v, d'')) :
    (transaction wrap start finish undo x).run.alone act d = some (.ok a, d'') := by
  refine catch_alone ?_
  refine (await_alone hs).trans ?_
  refine (bind_alone h).trans ?_
  exact (await_alone hf).trans rfl

/-- A transaction whose code throws is undone. -/
theorem transaction_alone_error {v : ρ undo} (hs : act start d = some (.ok r, d))
    (h : x.run.alone act d = some (.error e, d')) (hu : act undo d' = some (.ok v, d'')) :
    (transaction wrap start finish undo x).run.alone act d = some (.error e, d'') := by
  have hbody : (do
      let _ ← await wrap start
      let result ← x
      let _ ← await wrap finish
      pure result : Code σ ρ ε φ α).run.alone act d = some (.error e, d') :=
    (await_alone hs).trans (bind_alone_error h)
  exact (catch_alone_error hbody).trans ((await_alone hu).trans rfl)

end Alone

variable (L : Rules ι M σ (fun q => Except ε (ρ q)) D) (c : ι)

/-- What the statements of other clients cannot falsify. -/
def Stable (P : D → Prop) : Prop := ∀ d d', L.rely c d d' → L.inv d' → P d → P d'

/-- The postcondition of code: `Q` for a result, `E` for an exception. -/
def outcome (Q : α → D → Prop) (E : D → Prop) : Except φ α → D → Prop
  | .ok a => Q a
  | .error _ => E

def Triple (P : D → Prop) (x : Code σ ρ ε φ α) (Q : α → D → Prop) (E : D → Prop) : Prop :=
  ∀ d, L.inv d → P d → Safe L c (outcome Q E) x.run d

variable {L c} {P P' : D → Prop} {Q Q' : α → D → Prop} {E E' : D → Prop}

theorem Triple.pure {a : α} (hq : Stable L c (Q a)) : Triple L c (Q a) (Pure.pure a : Code σ ρ ε φ α) Q E :=
  fun d _ h d' hr hi => hq d d' hr hi h

theorem Triple.throw {e : φ} (he : Stable L c E) :
    Triple L c E (throw e : Code σ ρ ε φ α) Q E :=
  fun d _ h d' hr hi => he d d' hr hi h

theorem Triple.conseq {x : Code σ ρ ε φ α} (h : Triple L c P x Q E)
    (hp : ∀ d, L.inv d → P' d → P d) (hq : ∀ a d, Q a d → Q' a d) (he : ∀ d, E d → E' d) :
    Triple L c P' x Q' E' := by
  intro d hi hd
  refine (h d hi (hp d hi hd)).mono fun r e hr => ?_
  cases r with
  | ok a => exact hq a e hr
  | error _ => exact he e hr

theorem Triple.pre {x : Code σ ρ ε φ α} (h : Triple L c P x Q E) (hp : ∀ d, P' d → P d) :
    Triple L c P' x Q E :=
  h.conseq (fun d _ => hp d) (fun _ _ => id) fun _ => id

theorem Triple.exists {β : Type} {P : β → D → Prop} {x : Code σ ρ ε φ α}
    (h : ∀ b, Triple L c (P b) x Q E) : Triple L c (fun d => ∃ b, P b d) x Q E :=
  fun d hi ⟨b, hb⟩ => h b d hi hb

theorem Triple.fact {p : Prop} {x : Code σ ρ ε φ α} (h : p → Triple L c P x Q E) :
    Triple L c (fun d => p ∧ P d) x Q E :=
  fun d hi ⟨hp, hd⟩ => h hp d hi hd

theorem Triple.bind {x : Code σ ρ ε φ α} {f : α → Code σ ρ ε φ β} {R : β → D → Prop}
    (hx : Triple L c P x Q E) (hf : ∀ a, Triple L c (Q a) (f a) R E) (he : Stable L c E) :
    Triple L c P (x >>= f) R E := by
  intro d hi hd
  refine Safe.bind (hx d hi hd) hi fun r e hi' hr => ?_
  cases r with
  | ok a => exact hf a e hi' hr
  | error _ => exact fun e' hr' hi'' => he e e' hr' hi'' hr

/-- An exception is caught with what the failed code leaves. -/
theorem Triple.catch {x : Code σ ρ ε φ α} {h : φ → Code σ ρ ε φ α}
    (hx : Triple L c P x Q E) (hh : ∀ e, Triple L c E (h e) Q E')
    (hq : ∀ a, Stable L c (Q a)) : Triple L c P (tryCatch x h) Q E' := by
  intro d hi hd
  refine Safe.bind (hx d hi hd) hi fun r e hi' hr => ?_
  cases r with
  | ok a => exact fun e' hr' hi'' => hq a e e' hr' hi'' hr
  | error err => exact hh err e hi' hr

/-- One statement. Its precondition has to survive until the statement is taken; then the
invariant and the guarantee have to hold, and the reply selects what is known. -/
theorem Triple.await {wrap : ε → φ} {q : σ} {Q : ρ q → D → Prop} (hp : Stable L c P)
    (hq : ∀ v, Stable L c (Q v)) (he : Stable L c E)
    (h : ∀ m d r d', L.inv d → L.allow m c q d → P d → L.act m c q d = some (r, d') →
      L.inv d' ∧ L.guar c q d r d' ∧ outcome Q E r d') :
    Triple L c P (await wrap q) Q E := by
  intro d hi hd d₁ m r d₂ hr hi₁ hal ha
  obtain ⟨hi₂, hg, ho⟩ := h m d₁ r d₂ hi₁ hal (hp d d₁ hr hi₁ hd) ha
  refine ⟨hi₂, hg, fun d₃ hr₃ hi₃ => ?_⟩
  cases r with
  | ok v => exact hq v d₂ d₃ hr₃ hi₃ ho
  | error _ => exact he d₂ d₃ hr₃ hi₃ ho

/-- A transaction ends in `R`, or undone in `F` from what its code may leave when it throws. -/
theorem Triple.transaction {wrap : ε → φ} {start finish undo : σ} {callback : Code σ ρ ε φ α}
    {P₀ F : D → Prop} {R : α → D → Prop}
    (hstart : Triple L c P₀ (Interleave.await wrap start) (fun _ => P) E)
    (hcall : Triple L c P callback Q E)
    (hfinish : ∀ a, Triple L c (Q a) (Interleave.await wrap finish) (fun _ => R a) E)
    (hundo : Triple L c E (Interleave.await wrap undo) (fun _ => F) F)
    (hr : ∀ a, Stable L c (R a)) (he : Stable L c E) (hf : Stable L c F) :
    Triple L c P₀ (Interleave.transaction wrap start finish undo callback) R F := by
  refine Triple.catch (E := E) ?_ (fun e => ?_) hr
  · refine Triple.bind hstart (fun _ => ?_) he
    refine Triple.bind hcall (fun a => ?_) he
    exact Triple.bind (hfinish a) (fun _ => Triple.pure (hr a)) he
  · exact Triple.bind hundo (fun _ => Triple.throw hf) hf

end Interleave
