import Kayan.Lib.Paging
import Mathlib.Algebra.Order.Group.Int

/-!
# Grouping

One sorted query for the rows of several owners, put into buckets row by row, against a query for
each owner.
-/
namespace Grouping
variable {R K B : Type} [DecidableEq K]

/-- Buckets by key, filled row by row. -/
def buckets (key : R → K) (empty : B) (push : B → R → B) (rows : List R) : K → Option B :=
  rows.foldl (fun m row => Function.update m (key row) (some (push ((m (key row)).getD empty) row)))
    fun _ => none

/-- The rows of some owners, sorted. -/
def select (owner : R → K) (before : R → R → Prop) [DecidableRel before] (rows : List R) (owners : List K) :
    List R :=
  (rows.filter fun r => owner r ∈ owners).insertionSort before

/-- An order by a column, and by others where it is the same. -/
def thenBy (k : R → ℤ) (rest : R → R → Prop) (a b : R) : Prop := k a < k b ∨ (k a = k b ∧ rest a b)

instance {k : R → ℤ} {rest : R → R → Prop} [DecidableRel rest] : DecidableRel (thenBy k rest) :=
  fun _ _ => inferInstanceAs (Decidable (_ ∨ _))

/-- A relation by which rows can be sorted. -/
structure Sorts (before : R → R → Prop) : Prop where
  total : ∀ a b, before a b ∨ before b a
  trans : ∀ a b c, before a b → before b c → before a c

section Orders
variable {k : R → ℤ} {rest : R → R → Prop}

omit [DecidableEq K] in
theorem sorts_le : Sorts fun a b => k a ≤ k b :=
  ⟨fun a b => Int.le_total (k a) (k b), fun _ _ _ => Int.le_trans⟩

theorem Sorts.thenBy (h : Sorts rest) : Sorts (thenBy k rest) := by
  constructor
  · intro a b
    rcases Int.lt_trichotomy (k a) (k b) with hlt | heq | hgt
    · exact .inl (.inl hlt)
    · exact (h.total a b).imp (fun hr => .inr ⟨heq, hr⟩) fun hr => .inr ⟨heq.symm, hr⟩
    · exact .inr (.inl hgt)
  · rintro a b c (hab | ⟨hab, hra⟩) (hbc | ⟨hbc, hrb⟩)
    · exact .inl (Int.lt_trans hab hbc)
    · exact .inl (hbc ▸ hab)
    · exact .inl (hab ▸ hbc)
    · exact .inr ⟨hab.trans hbc, h.trans a b c hra hrb⟩

end Orders

section Buckets
variable {key owner : R → K} {empty : B} {push : B → R → B} {rows : List R} {k : K} {owners : List K}
  {before : R → R → Prop} [DecidableRel before]

/-- A bucket holds the rows of its key, in their order. -/
theorem getD_buckets :
    (buckets key empty push rows k).getD empty = (rows.filter fun r => key r = k).foldl push empty := by
  suffices h : ∀ m : K → Option B,
      ((rows.foldl (fun m row => Function.update m (key row) (some (push ((m (key row)).getD empty) row))) m)
        k).getD empty = (rows.filter fun r => key r = k).foldl push ((m k).getD empty) from h fun _ => none
  induction rows with
  | nil => intro m; rfl
  | cons row rows ih =>
    intro m
    rw [List.foldl_cons, ih]
    by_cases hk : key row = k
    · subst hk
      simp
    · simp [hk, Function.update_of_ne (Ne.symm hk)]

/-- The rows of one of the owners come as they do in a query for this owner alone. -/
theorem filter_select (h : Sorts before) (hk : k ∈ owners) :
    (select owner before rows owners).filter (fun r => owner r = k) =
      (rows.filter fun r => owner r = k).insertionSort before := by
  rw [select, Paging.filter_insertionSort h.total h.trans, List.filter_filter]
  congr 1
  refine List.filter_congr fun r _ => ?_
  by_cases hr : owner r = k
  · simp [hr, hk]
  · simp [hr]

/-- An owner's rows come sorted by the other columns. -/
theorem own_sorted {rest : R → R → Prop} [DecidableRel rest] {column : R → ℤ} (h : Sorts rest)
    (hsame : ∀ a ∈ rows, ∀ b ∈ rows, column a = column b) :
    (rows.insertionSort (thenBy column rest)).Pairwise rest := by
  have hs := h.thenBy (k := column)
  have : Std.Total (thenBy column rest) := ⟨hs.total⟩
  have : IsTrans R (thenBy column rest) := ⟨hs.trans⟩
  refine (List.pairwise_insertionSort (thenBy column rest) rows).imp_of_mem fun ha hb hab => ?_
  have heq := hsame _ ((List.mem_insertionSort _).mp ha) _ ((List.mem_insertionSort _).mp hb)
  rcases hab with hlt | ⟨-, hr⟩
  · omega
  · exact hr

end Buckets
end Grouping
