import Kayan.Lib.Protocol

/-!
# Monitors

A protocol whose phases are determined: a monitor notes what the replies tell a call, and a
statement may be issued where the notes permit it. Beside a run the notes can be kept.
-/
namespace Interleave

variable {ι M σ D ε φ X α β : Type} {ρ : σ → Type}

/-- Where a statement may be issued, it leads to what its reply makes of the notes. -/
def monitored (may : X → σ → Prop) (after : X → (q : σ) → ρ q → X) : Protocol σ ρ X :=
  fun x q r y => may x q ∧ y = after x q r

section Codes
variable {P : Protocol σ (fun q => Except ε (ρ q)) X} {x : X} {Q : α → X → Prop} {E E' : X → Prop}

/-- An exception is caught with the notes that the failed code leaves. -/
theorem Keeps.catch {code : Code σ ρ ε φ α} {handler : φ → Code σ ρ ε φ α} (h : Keeps P x code Q E)
    (hh : ∀ e y, E y → Keeps P y (handler e) Q E') : Keeps P x (tryCatch code handler) Q E' := by
  refine Follows.bind h fun r y hr => ?_
  cases r with
  | ok a => exact hr
  | error e => exact hh e y hr

/-- A program that cannot throw, as code. -/
theorem Keeps.lift {p : Prog σ (fun q => Except ε (ρ q)) α} (h : Follows P Q p x) :
    Keeps P x (ExceptT.lift p : Code σ ρ ε φ α) Q E := by
  refine Follows.bind h fun a y hy => ?_
  exact hy

/-- The code leaves the notes as they are. -/
def Still (P : Protocol σ (fun q => Except ε (ρ q)) X) (x : X) (code : Code σ ρ ε φ α) : Prop :=
  Keeps P x code (fun _ y => y = x) fun y => y = x

theorem Still.pure {a : α} : Still P x (Pure.pure a : Code σ ρ ε φ α) := rfl

theorem Still.throw {e : φ} : Still P x (throw e : Code σ ρ ε φ α) := rfl

theorem Still.await {wrap : ε → φ} {q : σ} (h : ∀ r, P x q r x) : Still P x (Interleave.await wrap q) :=
  Keeps.await fun r => ⟨x, h r, by cases r <;> rfl⟩

theorem Still.bind {code : Code σ ρ ε φ α} {f : α → Code σ ρ ε φ β} (h : Still P x code)
    (hf : ∀ a, Still P x (f a)) : Still P x (code >>= f) := by
  refine Keeps.bind h fun a y hy => ?_
  rw [hy]
  exact hf a

theorem Still.catch {code : Code σ ρ ε φ α} {handler : φ → Code σ ρ ε φ α} (h : Still P x code)
    (hh : ∀ e, Still P x (handler e)) : Still P x (tryCatch code handler) := by
  refine Keeps.catch h fun e y hy => ?_
  rw [hy]
  exact hh e

/-- Code goes on from where a part has left the notes alone. -/
theorem Keeps.after {code : Code σ ρ ε φ α} {f : α → Code σ ρ ε φ β} {R : β → X → Prop}
    (h : Still P x code) (hf : ∀ a, Keeps P x (f a) R E) (he : E x) : Keeps P x (code >>= f) R E := by
  refine Keeps.bind (Keeps.mono h (fun _ _ => id) fun y hy => ?_) fun a y hy => ?_
  · rw [hy]
    exact he
  · rw [hy]
    exact hf a

/-- The code ends as it began. -/
theorem Still.keeps {code : Code σ ρ ε φ α} (h : Still P x code) (hq : ∀ a, Q a x) (he : E x) :
    Keeps P x code Q E := by
  refine Keeps.mono h (fun a y hy => ?_) fun y hy => ?_
  · rw [hy]
    exact hq a
  · rw [hy]
    exact he

end Codes

/-- What a call has returned agrees with its notes. -/
theorem InPhase.result {P : Protocol σ ρ X} {Post : α → X → Prop} {ph : ι → X}
    {s : Config ι σ ρ α D} {c : ι} {a : α} (h : InPhase P Post ph s)
    (hc : s.prog c = .ret a) : Post a (ph c) := by
  have hf := h c
  rw [hc] at hf
  exact hf

section Runs
variable [DecidableEq ι] {after : X → (q : σ) → ρ q → X} {may : X → σ → Prop} {Post : α → X → Prop}
  {act : M → ι → (q : σ) → D → Option (ρ q × D)} {s t : Config ι σ ρ α D} {e : Event ι M σ ρ}
  {xs : List (Event ι M σ ρ)} {ph : ι → X}
  {Tr : Config ι σ ρ α D → Event ι M σ ρ → Config ι σ ρ α D → Prop}

/-- The notes after a step. -/
def noted (after : X → (q : σ) → ρ q → X) (ph : ι → X) (e : Event ι M σ ρ) : ι → X :=
  Function.update ph e.client (after (ph e.client) e.stmt e.reply)

theorem noted_self : noted after ph e e.client = after (ph e.client) e.stmt e.reply :=
  Function.update_self ..

theorem noted_of_ne {c : ι} (h : c ≠ e.client) : noted after ph e c = ph c := Function.update_of_ne h ..

/-- The notes of the client of the step are those after it, and the others keep theirs. -/
theorem noted_or (after : X → (q : σ) → ρ q → X) (ph : ι → X) (e : Event ι M σ ρ) (c : ι) :
    (c = e.client ∧ noted after ph e c = after (ph c) e.stmt e.reply) ∨
    (c ≠ e.client ∧ noted after ph e c = ph c) := by
  by_cases hc : c = e.client
  · subst hc
    exact Or.inl ⟨rfl, noted_self⟩
  · exact Or.inr ⟨hc, noted_of_ne hc⟩

/-- Steps with the notes beside them. -/
def Kept (after : X → (q : σ) → ρ q → X)
    (Tr : Config ι σ ρ α D → Event ι M σ ρ → Config ι σ ρ α D → Prop)
    (u : Config ι σ ρ α D × (ι → X)) (e : Event ι M σ ρ) (v : Config ι σ ρ α D × (ι → X)) : Prop :=
  Tr u.1 e v.1 ∧ v.2 = noted after u.2 e

section Fields
variable {β : Type} {c : ι} {b : β}

/-- What is noted under `f` was there before a step, or the step has told it. -/
theorem noted_field (f : X → Option β) (g : (q : σ) → ρ q → Option β)
    (hfg : ∀ x q r, f (after x q r) = (g q r).or (f x)) (h : f (noted after ph e c) = some b) :
    f (ph c) = some b ∨ (c = e.client ∧ g e.stmt e.reply = some b) := by
  rcases noted_or after ph e c with ⟨rfl, hn⟩ | ⟨-, hn⟩
  · rw [hn, hfg] at h
    rcases hq : g e.stmt e.reply with _ | b'
    · rw [hq] at h
      exact Or.inl h
    · rw [hq] at h
      exact Or.inr ⟨rfl, h⟩
  · rw [hn] at h
    exact Or.inl h

/-- What is noted at the end of a run and was not at its beginning was told by one of its steps. -/
theorem noted_trace (f : X → Option β) (g : (q : σ) → ρ q → Option β)
    (hfg : ∀ x q r, f (after x q r) = (g q r).or (f x)) (h : Trace.Run Tr s xs t)
    (hs : f (ph c) ≠ some b) (ht : f (xs.foldl (noted after) ph c) = some b) :
    ∃ ys e zs u v, xs = ys ++ e :: zs ∧ Trace.Run Tr s ys u ∧ Tr u e v ∧ Trace.Run Tr v zs t ∧
      e.client = c ∧ g e.stmt e.reply = some b := by
  induction h generalizing ph with
  | refl => exact absurd ht hs
  | @step s u t e xs h hr ih =>
    by_cases hu : f (noted after ph e c) = some b
    · rcases noted_field f g hfg hu with hold | ⟨rfl, hnew⟩
      · exact absurd hold hs
      · exact ⟨[], e, xs, s, u, rfl, .refl, h, hr, rfl, hnew⟩
    · obtain ⟨ys, e', zs, v, w, rfl, hy, hv, hz, hc, hg⟩ := ih hu ht
      exact ⟨e :: ys, e', zs, v, w, rfl, .step h hy, hv, hz, hc, hg⟩

variable (after ph) in
/-- The notes of a client that takes no step. -/
theorem notes_of_idle (h : ∀ e ∈ xs, e.client ≠ c) : xs.foldl (noted after) ph c = ph c := by
  induction xs generalizing ph with
  | nil => rfl
  | cons e xs ih =>
    rw [List.foldl_cons, ih _ fun e he => h e (List.mem_cons_of_mem _ he)]
    exact noted_of_ne (h e List.mem_cons_self).symm

end Fields

/-- Beside every run the notes can be kept. -/
theorem kept_run (after : X → (q : σ) → ρ q → X) (h : Trace.Run Tr s xs t) (ph : ι → X) :
    Trace.Run (Kept after Tr) (s, ph) xs (t, xs.foldl (noted after) ph) := by
  induction h generalizing ph with
  | refl => exact .refl
  | step h _ ih => exact .step ⟨h, rfl⟩ (ih _)

variable (after) in
/-- `Trace.Run.intact_iff` where the notes say what a step can do. -/
theorem kept_intact_iff {I B : Config ι σ ρ α D → Prop} {J : Config ι σ ρ α D × (ι → X) → Prop}
    {C : Config ι σ ρ α D → Event ι M σ ρ → Prop} (hJ : Trace.Preserved (Kept after Tr) J)
    (hB : Trace.Preserved Tr B) (hI : ∀ s ph e t, Tr s e t → J (s, ph) → C s e → I s → I t)
    (hC : ∀ s ph e t, Tr s e t → J (s, ph) → ¬ C s e → B t) (hBI : ∀ s, B s → ¬ I s)
    (h : Trace.Run Tr s xs t) (hs : J (s, ph)) (hi : I s) :
    I t ↔ Trace.Run (fun s e t => Tr s e t ∧ C s e) s xs t := by
  have hkept := (kept_run after h ph).intact_iff (I := fun u => I u.1) (B := fun u => B u.1)
    (C := fun u e => C u.1 e) hJ (fun _ _ _ h hb => hB _ _ _ h.1 hb)
    (fun u e v h hu hc hi => hI u.1 u.2 e v.1 h.1 hu hc hi)
    (fun u e v h hu hc => hC u.1 u.2 e v.1 h.1 hu hc) (fun u hb => hBI u.1 hb) hs hi
  refine hkept.trans ⟨fun hr => ?_, fun hr => ?_⟩
  · exact hr.map (f := Prod.fst) fun _ _ _ h => ⟨h.1.1, h.2⟩
  · exact (kept_run after hr ph).mono fun _ _ _ h => ⟨⟨h.1.1, h.2⟩, h.1.2⟩

/-- A statement that is issued is one that may be issued, and the calls still keep to their
protocol with the notes after it. -/
theorem InPhase.noted (h : InPhase (monitored may after) Post ph s) (hs : Step act s e t) :
    may (ph e.client) e.stmt ∧ InPhase (monitored may after) Post (noted after ph e) t := by
  obtain ⟨y, ⟨hm, rfl⟩, ht⟩ := h.step hs
  exact ⟨hm, ht⟩

omit [DecidableEq ι] in
/-- The statement that a call issues next is one that it may issue. -/
theorem InPhase.permitted {c : ι} {q : σ} (h : InPhase (monitored may after) Post ph s) (hn : Next c q s) (r : ρ q) :
    may (ph c) q := by
  obtain ⟨k, hk⟩ := hn
  have hc := h c
  rw [hk] at hc
  obtain ⟨y, ⟨hm, -⟩, -⟩ := hc r
  exact hm

/-- A call that has ended takes no step. -/
theorem Step.not_ended {c : ι} {a : α} (hs : Step act s e t) (hc : s.prog c = .ret a) :
    c ≠ e.client ∧ t.prog c = .ret a := by
  cases hs with
  | @call m b k q r d hp ha =>
    have hb : c ≠ b := by
      rintro rfl
      rw [hc] at hp
      cases hp
    exact ⟨hb, by simpa [hb] using hc⟩

end Runs

end Interleave
