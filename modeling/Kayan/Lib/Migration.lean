import Mathlib.Data.List.Basic

/-!
# Migration runs

A runner applies files in order and records each one that it has applied; the record is made after
the file, in a step of its own. A run may be killed at any point, and run again.
-/
namespace Migration

variable {N S : Type} [DecidableEq N]

/-- A file: the steps that take effect one after the other. -/
structure File (N S : Type) where
  name : N
  steps : List (S → Option S)

/-- A database: its schema, and the files that are recorded as applied. -/
structure Db (N S : Type) where
  schema : S
  applied : List N

/-- Steps taken one after the other; the first one that fails ends them. -/
def runSteps : List (S → Option S) → S → Option S
  | [], s => some s
  | step :: steps, s => (step s).bind (runSteps steps)

/-- A run to completion. Files that are recorded are skipped, and the others applied and recorded. -/
def migrate : List (File N S) → Db N S → Option (Db N S)
  | [], d => some d
  | f :: files, d =>
    if f.name ∈ d.applied then migrate files d
    else (runSteps f.steps d.schema).bind fun s => migrate files ⟨s, d.applied ++ [f.name]⟩

/-- Where a run is killed: between two files, or after some steps of a file that is not yet recorded. -/
inductive Point (N : Type) where
  | between
  | within (name : N) (steps : Nat)

/-- A run may be killed at a point, with what it leaves. -/
inductive Killed : List (File N S) → Db N S → Point N → Db N S → Prop
  | between {files : List (File N S)} {d : Db N S} : Killed files d .between d
  | skip {f : File N S} {files : List (File N S)} {d d' : Db N S} {p : Point N} (ha : f.name ∈ d.applied)
      (hk : Killed files d p d') : Killed (f :: files) d p d'
  | within {f : File N S} {files : List (File N S)} {d : Db N S} {k : Nat} {s : S} (ha : f.name ∉ d.applied)
      (hk : k ≤ f.steps.length) (hr : runSteps (f.steps.take k) d.schema = some s) :
      Killed (f :: files) d (.within f.name k) { d with schema := s }
  | next {f : File N S} {files : List (File N S)} {d d' : Db N S} {p : Point N} {s : S} (ha : f.name ∉ d.applied)
      (hr : runSteps f.steps d.schema = some s) (hk : Killed files ⟨s, d.applied ++ [f.name]⟩ p d') :
      Killed (f :: files) d p d'

/-- The steps of a file after which a kill is fatal. -/
def Point.fatal (fatal : N → Nat → Bool) : Point N → Bool
  | .between => false
  | .within name k => fatal name k

variable {files : List (File N S)} {d d' : Db N S} {p : Point N} {fatal : N → Nat → Bool}

omit [DecidableEq N] in
/-- What a kill leaves has the records that were there. -/
theorem Killed.applied (h : Killed files d p d') {name : N} (ha : name ∈ d.applied) : name ∈ d'.applied := by
  induction h with
  | between | within => exact ha
  | skip _ _ ih => exact ih ha
  | next _ _ _ ih => exact ih (List.mem_append_left _ ha)

/-- A run that has gone through some files is killed in the ones after them. -/
theorem Killed.after {done : List (File N S)} {d₀ : Db N S} (hd : migrate done d₀ = some d)
    (hk : Killed files d p d') : Killed (done ++ files) d₀ p d' := by
  induction done generalizing d₀ with
  | nil =>
    cases hd
    exact hk
  | cons f done ih =>
    unfold Migration.migrate at hd
    split at hd
    · rename_i ha
      exact .skip ha (ih hd)
    · rename_i ha
      obtain ⟨s, hs, hrest⟩ := Option.bind_eq_some_iff.mp hd
      exact .next ha hs (ih hrest)

/-- A run can be killed after some steps of a file, when it comes that far. -/
theorem exists_killed_within {done : List (File N S)} {f : File N S} {k : Nat} (hk : k ≤ f.steps.length)
    (h : ((migrate done d).bind fun d =>
      if f.name ∈ d.applied then none else runSteps (f.steps.take k) d.schema).isSome = true) :
    ∃ d', Killed (done ++ f :: files) d (.within f.name k) d' := by
  obtain ⟨s, hs⟩ := Option.isSome_iff_exists.mp h
  obtain ⟨e, he, hs⟩ := Option.bind_eq_some_iff.mp hs
  split at hs
  · cases hs
  · rename_i ha
    exact ⟨{ e with schema := s }, .after he (.within ha hk hs)⟩

/-- Every file can be applied when its turn comes. Applied once more after some of its steps it
leads to the same schema, or, where the kill is fatal, it fails. -/
def Resumes (fatal : N → Nat → Bool) : List (File N S) → Db N S → Prop
  | [], _ => True
  | f :: files, d =>
    if f.name ∈ d.applied then Resumes fatal files d
    else ∃ t, runSteps f.steps d.schema = some t ∧
      (∀ k ≤ f.steps.length, ∀ s, runSteps (f.steps.take k) d.schema = some s →
        runSteps f.steps s = if fatal f.name k then none else some t) ∧
      Resumes fatal files ⟨t, d.applied ++ [f.name]⟩

theorem Resumes.completes (h : Resumes fatal files d) : ∃ e, migrate files d = some e := by
  induction files generalizing d with
  | nil => exact ⟨d, rfl⟩
  | cons f files ih =>
    unfold Resumes at h
    unfold migrate
    split at h
    · rename_i ha
      rw [if_pos ha]
      exact ih h
    · rename_i ha
      obtain ⟨t, ht, -, hrest⟩ := h
      rw [if_neg ha, ht]
      exact ih hrest

/-- A run to completion records its files, and keeps the records that were there. -/
theorem migrate_applied (h : migrate files d = some d') {name : N}
    (hn : name ∈ d.applied ∨ ∃ f ∈ files, f.name = name) : name ∈ d'.applied := by
  induction files generalizing d with
  | nil =>
    cases h
    simpa using hn
  | cons f files ih =>
    unfold migrate at h
    split at h
    · rename_i ha
      apply ih h
      obtain hn | ⟨g, hg, rfl⟩ := hn
      · exact .inl hn
      · obtain rfl | hg := List.mem_cons.mp hg
        · exact .inl ha
        · exact .inr ⟨g, hg, rfl⟩
    · obtain ⟨s, -, hrest⟩ := Option.bind_eq_some_iff.mp h
      apply ih hrest
      obtain hn | ⟨g, hg, rfl⟩ := hn
      · exact .inl (List.mem_append_left _ hn)
      · obtain rfl | hg := List.mem_cons.mp hg
        · exact .inl (List.mem_append_right _ (List.mem_singleton_self _))
        · exact .inr ⟨g, hg, rfl⟩

theorem Resumes.rest {done : List (File N S)} {d₀ : Db N S} (h : Resumes fatal (done ++ files) d₀)
    (hd : migrate done d₀ = some d) : Resumes fatal files d := by
  induction done generalizing d₀ with
  | nil =>
    cases hd
    exact h
  | cons f done ih =>
    rw [List.cons_append, Resumes] at h
    unfold migrate at hd
    split at hd
    · rename_i ha
      rw [if_pos ha] at h
      exact ih h hd
    · rename_i ha
      rw [if_neg ha] at h
      obtain ⟨t, ht, -, hrest⟩ := h
      rw [ht] at hd
      exact ih hrest hd

theorem Resumes.skipping {done : List (File N S)} (hd : ∀ f ∈ done, f.name ∈ d.applied) (h : Resumes fatal files d) :
    Resumes fatal (done ++ files) d := by
  induction done with
  | nil => exact h
  | cons f done ih =>
    rw [List.cons_append, Resumes, if_pos (hd f List.mem_cons_self)]
    exact ih fun g hg => hd g (List.mem_cons_of_mem _ hg)

/-- A run can also start when some of the files have been applied. -/
theorem Resumes.after {done : List (File N S)} {d₀ : Db N S} (h : Resumes fatal (done ++ files) d₀)
    (hd : migrate done d₀ = some d) : Resumes fatal (done ++ files) d :=
  (h.rest hd).skipping fun f hf => migrate_applied hd (.inr ⟨f, hf, rfl⟩)

/-- A run after a kill: it fails where the kill was fatal, and otherwise it ends as a run without the kill. -/
theorem Killed.migrate (h : Killed files d p d') (hr : Resumes fatal files d) :
    migrate files d' = if p.fatal fatal then none else Migration.migrate files d := by
  induction h with
  | between => rfl
  | @skip f files d d' p ha hk ih =>
    rw [Resumes, if_pos ha] at hr
    rw [Migration.migrate, if_pos (hk.applied ha), ih hr, Migration.migrate, if_pos ha]
  | @within f files d k s ha hk hs =>
    rw [Resumes, if_neg ha] at hr
    obtain ⟨t, ht, hsteps, -⟩ := hr
    rw [Migration.migrate, if_neg ha, Migration.migrate, if_neg ha, hsteps k hk s hs, ht, Point.fatal]
    split <;> rfl
  | @next f files d d' p s ha hs hk ih =>
    rw [Resumes, if_neg ha] at hr
    obtain ⟨t, ht, -, hrest⟩ := hr
    cases hs.symm.trans ht
    have hmem : f.name ∈ d'.applied := hk.applied (List.mem_append_right _ (List.mem_singleton_self _))
    rw [Migration.migrate, if_pos hmem, ih hrest, Migration.migrate, if_neg ha, hs]
    rfl

section Checking
variable [DecidableEq S]

/-- Checks one file from a schema: it leads to `t`, also after each of its first steps. -/
def resumesFrom (fatal : N → Nat → Bool) (f : File N S) (s t : S) : Bool :=
  (List.range (f.steps.length + 1)).all fun k =>
    match runSteps (f.steps.take k) s with
    | none => true
    | some s' => runSteps f.steps s' = if fatal f.name k then none else some t

/-- Checks all files, each from the schema that the ones before lead to. -/
def checkAll (fatal : N → Nat → Bool) : List (File N S) → Db N S → Bool
  | [], _ => true
  | f :: files, d =>
    if f.name ∈ d.applied then checkAll fatal files d
    else
      match runSteps f.steps d.schema with
      | none => false
      | some t => resumesFrom fatal f d.schema t && checkAll fatal files ⟨t, d.applied ++ [f.name]⟩

theorem resumes_of_checkAll (h : checkAll fatal files d = true) : Resumes fatal files d := by
  induction files generalizing d with
  | nil => trivial
  | cons f files ih =>
    unfold checkAll at h
    unfold Resumes
    split at h
    · rename_i ha
      rw [if_pos ha]
      exact ih h
    · rename_i ha
      rw [if_neg ha]
      split at h
      · cases h
      · rename_i t ht
        obtain ⟨hf, hrest⟩ := Bool.and_eq_true_iff.mp h
        refine ⟨t, ht, fun k hk s hs => ?_, ih hrest⟩
        have hone := List.all_eq_true.mp hf k (List.mem_range.mpr (Nat.lt_succ_of_le hk))
        simpa [hs] using hone

end Checking
end Migration
