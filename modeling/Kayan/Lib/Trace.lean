import Mathlib.Algebra.Ring.Int.Defs

/-! Finite labelled runs of a transition relation. -/
namespace Trace

variable {S L : Type} {Tr Tr' : S → L → S → Prop} {s t u : S} {a : L} {xs ys : List L}

/-- Finite runs of `Tr` from one state to another, with their labels in order. -/
inductive Run (Tr : S → L → S → Prop) : S → List L → S → Prop
  | refl {s : S} : Run Tr s [] s
  | step {s t u : S} {a : L} {xs : List L} (h : Tr s a t) (r : Run Tr t xs u) :
      Run Tr s (a :: xs) u

/-- Every transition keeps `I`. -/
def Preserved (Tr : S → L → S → Prop) (I : S → Prop) : Prop :=
  ∀ s a t, Tr s a t → I s → I t

theorem Run.preserves {I : S → Prop} (h : Run Tr s xs t) (hp : Preserved Tr I) (hs : I s) :
    I t := by
  induction h with
  | refl => exact hs
  | step h _ ih => exact ih (hp _ _ _ h hs)

/-- A label of a run belongs to one of its transitions. -/
theorem Run.mem (h : Run Tr s xs t) (ha : a ∈ xs) : ∃ u v, Tr u a v := by
  induction h with
  | refl => cases ha
  | step h _ ih =>
    rcases List.mem_cons.mp ha with rfl | ha
    · exact ⟨_, _, h⟩
    · exact ih ha

theorem Run.append (h : Run Tr s xs t) (h' : Run Tr t ys u) : Run Tr s (xs ++ ys) u := by
  induction h with
  | refl => exact h'
  | step h _ ih => exact .step h (ih h')

theorem Run.history_after {I : List L → S → Prop}
    (hI : ∀ ys u a v, Run Tr s ys u → I ys u → Tr u a v → I (ys ++ [a]) v)
    (hx : Run Tr u xs t) (hy : Run Tr s ys u) (hi : I ys u) : I (ys ++ xs) t := by
  induction hx generalizing ys with
  | refl => rwa [List.append_nil]
  | @step u v t a xs ha _ ih =>
    have hnext := ih (hy.append (.step ha .refl)) (hI ys u a v hy hi ha)
    rwa [List.append_assoc] at hnext

/-- What holds at first and is passed on with each transition of a run holds of the run. -/
theorem Run.history {I : List L → S → Prop} (h : Run Tr s xs t) (hs : I [] s)
    (hI : ∀ ys u a v, Run Tr s ys u → I ys u → Tr u a v → I (ys ++ [a]) v) : I xs t :=
  Run.history_after hI h .refl hs

theorem Run.split (h : Run Tr s (xs ++ ys) u) : ∃ t, Run Tr s xs t ∧ Run Tr t ys u := by
  induction xs generalizing s with
  | nil => exact ⟨s, .refl, h⟩
  | cons a xs ih =>
    cases h with
    | step h r =>
      obtain ⟨t, hx, hy⟩ := ih r
      exact ⟨t, .step h hx, hy⟩

/-- The run went through a state where `P` holds. -/
def Once (Tr : S → L → S → Prop) (P : S → Prop) (s : S) (xs : List L) (t : S) : Prop :=
  ∃ ys zs u, xs = ys ++ zs ∧ Run Tr s ys u ∧ Run Tr u zs t ∧ P u

section Moments
variable {P Q : S → Prop}

theorem Once.now (h : Run Tr s xs t) (hp : P t) : Once Tr P s xs t :=
  ⟨xs, [], t, (List.append_nil xs).symm, h, .refl, hp⟩

theorem Once.later (h : Once Tr P s xs t) (ht : Tr t a u) : Once Tr P s (xs ++ [a]) u := by
  obtain ⟨ys, zs, v, rfl, hy, hz, hp⟩ := h
  exact ⟨ys, zs ++ [a], v, List.append_assoc .., hy, hz.append (.step ht .refl), hp⟩

theorem Once.mono (h : Once Tr P s xs t) (hp : ∀ u, P u → Q u) : Once Tr Q s xs t := by
  obtain ⟨ys, zs, u, hx, hy, hz, hu⟩ := h
  exact ⟨ys, zs, u, hx, hy, hz, hp u hu⟩

end Moments

theorem Run.mono (h : Run Tr s xs t) (hm : ∀ s a t, Tr s a t → Tr' s a t) : Run Tr' s xs t := by
  induction h with
  | refl => exact .refl
  | step h _ ih => exact .step (hm _ _ _ h) ih

/-- A run seen through a function of its states. -/
theorem Run.map {S' : Type} {Tr' : S' → L → S' → Prop} {f : S → S'} (h : Run Tr s xs t)
    (hm : ∀ s a t, Tr s a t → Tr' (f s) a (f t)) : Run Tr' (f s) xs (f t) := by
  induction h with
  | refl => exact .refl
  | step h _ ih => exact .step (hm _ _ _ h) ih

/-- A run whose labels all satisfy `P` is a run of the transitions with such labels. -/
theorem Run.labels {P : L → Prop} (h : Run Tr s xs t) (hp : ∀ a ∈ xs, P a) :
    Run (fun s a t => Tr s a t ∧ P a) s xs t := by
  induction h with
  | refl => exact .refl
  | step h _ ih =>
    exact .step ⟨h, hp _ List.mem_cons_self⟩ (ih fun b hb => hp b (List.mem_cons_of_mem _ hb))

/-- Conditions that agree on the transitions from states in `J`, which is kept, select the same runs. -/
theorem Run.where_iff {J : S → Prop} {P Q : S → L → S → Prop} (hJ : Preserved Tr J)
    (h : ∀ s a t, Tr s a t → J s → (P s a t ↔ Q s a t)) (hs : J s) :
    Run (fun s a t => Tr s a t ∧ P s a t) s xs t ↔ Run (fun s a t => Tr s a t ∧ Q s a t) s xs t := by
  constructor
  · intro hr
    induction hr with
    | refl => exact .refl
    | step ha _ ih => exact .step ⟨ha.1, (h _ _ _ ha.1 hs).mp ha.2⟩ (ih (hJ _ _ _ ha.1 hs))
  · intro hr
    induction hr with
    | refl => exact .refl
    | step ha _ ih => exact .step ⟨ha.1, (h _ _ _ ha.1 hs).mpr ha.2⟩ (ih (hJ _ _ _ ha.1 hs))

/-- Where a transition from a state in `I` leads to `I` exactly when it satisfies `C`, the runs
that stay in `I` are the runs of the transitions that satisfy `C`. -/
theorem Run.stays_iff {I J : S → Prop} {C : S → L → Prop} (hJ : Preserved Tr J)
    (hC : ∀ s a t, Tr s a t → J s → I s → (I t ↔ C s a)) (hs : J s ∧ I s) :
    Run (fun s a t => Tr s a t ∧ I t) s xs t ↔ Run (fun s a t => Tr s a t ∧ C s a) s xs t := by
  constructor
  · intro h
    induction h with
    | refl => exact .refl
    | step h _ ih =>
      exact .step ⟨h.1, (hC _ _ _ h.1 hs.1 hs.2).mp h.2⟩ (ih ⟨hJ _ _ _ h.1 hs.1, h.2⟩)
  · intro h
    induction h with
    | refl => exact .refl
    | step h _ ih =>
      have ht := (hC _ _ _ h.1 hs.1 hs.2).mpr h.2
      exact .step ⟨h.1, ht⟩ (ih ⟨hJ _ _ _ h.1 hs.1, ht⟩)

/-- Where `C` decides whether a transition keeps `I` or leads to `B`, which excludes `I` and is never
left again, a run from `I` ends in `I` exactly when all its transitions satisfy `C`. -/
theorem Run.intact_iff {I B J : S → Prop} {C : S → L → Prop} (hJ : Preserved Tr J) (hB : Preserved Tr B)
    (hI : ∀ s a t, Tr s a t → J s → C s a → I s → I t) (hC : ∀ s a t, Tr s a t → J s → ¬ C s a → B t)
    (hBI : ∀ s, B s → ¬ I s) (h : Run Tr s xs t) (hs : J s) (hi : I s) :
    I t ↔ Run (fun s a t => Tr s a t ∧ C s a) s xs t := by
  constructor
  · intro hu
    induction h with
    | refl => exact .refl
    | @step s t u a xs h r ih =>
      by_cases hc : C s a
      · exact .step ⟨h, hc⟩ (ih (hJ _ _ _ h hs) (hI _ _ _ h hs hc hi) hu)
      · exact absurd hu (hBI _ (r.preserves hB (hC _ _ _ h hs hc)))
  · intro hr
    refine (hr.preserves (I := fun s => J s ∧ I s) ?_ ⟨hs, hi⟩).2
    rintro s a t ⟨h, hc⟩ ⟨hs, hi⟩
    exact ⟨hJ _ _ _ h hs, hI _ _ _ h hs hc hi⟩

/-- A quantity that each transition raises by the weight of its label is raised by
the run by the weights of all its labels. -/
theorem Run.weigh {f : S → Int} {w : L → Int} (h : Run Tr s xs t)
    (hw : ∀ s a t, Tr s a t → f t = f s + w a) : f t = f s + (xs.map w).sum := by
  induction h with
  | refl => simp
  | step h _ ih =>
    rw [ih, hw _ _ _ h, List.map_cons, List.sum_cons, Int.add_assoc]

end Trace
