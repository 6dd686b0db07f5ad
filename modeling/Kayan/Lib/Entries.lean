import Mathlib.Data.List.Sort
import Mathlib.Data.List.Nodup

/-!
# Entries

Association lists: what a key is bound to, and the entries in the order of their keys. Two lists
without duplicate keys have the same entries in order exactly when they bind the same keys alike.
-/
namespace Entries
variable {K V W : Type}

section Lookup
variable [DecidableEq K] {xs : List (K × V)} {k : K} {v : V}

theorem lookup_of_mem (hx : (xs.map Prod.fst).Nodup) (h : (k, v) ∈ xs) : xs.lookup k = some v := by
  induction xs with
  | nil => cases h
  | cons x xs ih =>
    obtain ⟨k', v'⟩ := x
    rw [List.map_cons, List.nodup_cons] at hx
    rcases List.mem_cons.mp h with he | hmem
    · cases he
      simp
    · have hin : k ∈ xs.map Prod.fst := List.mem_map_of_mem (f := Prod.fst) hmem
      have hne : k ≠ k' := fun he => hx.1 (he ▸ hin)
      rw [List.lookup_cons, beq_false_of_ne hne]
      exact ih hx.2 hmem

theorem mem_of_lookup (h : xs.lookup k = some v) : (k, v) ∈ xs := by
  obtain ⟨ys, zs, rfl, -⟩ := List.lookup_eq_some_iff.mp h
  simp

theorem mem_iff_lookup (hx : (xs.map Prod.fst).Nodup) : (k, v) ∈ xs ↔ xs.lookup k = some v :=
  ⟨lookup_of_mem hx, mem_of_lookup⟩

theorem mem_keys_of_lookup (h : xs.lookup k = some v) : k ∈ xs.map Prod.fst :=
  List.mem_map_of_mem (f := Prod.fst) (mem_of_lookup h)

theorem exists_lookup (h : k ∈ xs.map Prod.fst) : ∃ v, xs.lookup k = some v := by
  rw [← Option.isSome_iff_exists, List.lookup_isSome_iff]
  obtain ⟨x, hx, rfl⟩ := List.mem_map.mp h
  exact ⟨x, hx, beq_self_eq_true x.1⟩

theorem lookup_map (f : V → W) (xs : List (K × V)) (k : K) :
    (xs.map fun x => (x.1, f x.2)).lookup k = (xs.lookup k).map f := by
  induction xs with
  | nil => rfl
  | cons x xs ih =>
    rw [List.map_cons, List.lookup_cons, List.lookup_cons]
    split
    · rfl
    · exact ih

/-- Without duplicate keys, the order of the entries does not matter. -/
theorem lookup_perm {ys : List (K × V)} (hx : (xs.map Prod.fst).Nodup) (h : xs.Perm ys) :
    xs.lookup k = ys.lookup k := by
  have hy : (ys.map Prod.fst).Nodup := (h.map Prod.fst).nodup_iff.mp hx
  apply Option.ext
  intro v
  rw [← mem_iff_lookup hx, ← mem_iff_lookup hy]
  exact h.mem_iff

/-- Lists without duplicate keys that bind the same keys alike have the same entries. -/
theorem perm_of_lookup {ys : List (K × V)} (hx : (xs.map Prod.fst).Nodup) (hy : (ys.map Prod.fst).Nodup)
    (h : ∀ k, xs.lookup k = ys.lookup k) : xs.Perm ys := by
  apply (List.perm_ext_iff_of_nodup hx.of_map hy.of_map).mpr
  rintro ⟨k, v⟩
  rw [mem_iff_lookup hx, mem_iff_lookup hy, h k]

end Lookup

section Sorted
variable [LinearOrder K] {xs ys : List (K × V)}

/-- The entries in the order of their keys. -/
def sorted (xs : List (K × V)) : List (K × V) := xs.insertionSort fun a b => a.1 ≤ b.1

theorem sorted_perm (xs : List (K × V)) : (sorted xs).Perm xs := List.perm_insertionSort _ _

theorem sorted_pairwise (xs : List (K × V)) : (sorted xs).Pairwise fun a b => a.1 ≤ b.1 := by
  have : Std.Total fun a b : K × V => a.1 ≤ b.1 := ⟨fun a b => le_total a.1 b.1⟩
  have : IsTrans (K × V) fun a b => a.1 ≤ b.1 := ⟨fun a b c hab hbc => le_trans hab hbc⟩
  exact List.pairwise_insertionSort _ xs

theorem lookup_orderedInsert (x : K × V) (k : K) :
    (xs.orderedInsert (fun a b => a.1 ≤ b.1) x).lookup k = (x :: xs).lookup k := by
  induction xs with
  | nil => rfl
  | cons y xs ih =>
    rw [List.orderedInsert_cons]
    split
    · rfl
    · rename_i hlt
      have hne : y.1 ≠ x.1 := fun he => hlt (le_of_eq he.symm)
      rw [List.lookup_cons, ih, List.lookup_cons, List.lookup_cons, List.lookup_cons]
      by_cases hx : k = x.1
      · have hy : (k == y.1) = false := beq_false_of_ne (hx ▸ hne.symm)
        rw [hy]
      · rw [beq_false_of_ne hx]

/-- Sorting is stable: it changes no binding. -/
theorem lookup_sorted (xs : List (K × V)) (k : K) : (sorted xs).lookup k = xs.lookup k := by
  induction xs with
  | nil => rfl
  | cons x xs ih =>
    rw [sorted, List.insertionSort_cons, lookup_orderedInsert, List.lookup_cons, List.lookup_cons]
    split
    · rfl
    · exact ih

theorem sorted_eq_of_perm (hx : (xs.map Prod.fst).Nodup) (h : xs.Perm ys) : sorted xs = sorted ys := by
  have hperm : (sorted xs).Perm (sorted ys) := (sorted_perm xs).trans (h.trans (sorted_perm ys).symm)
  refine hperm.eq_of_pairwise ?_ (sorted_pairwise xs) (sorted_pairwise ys)
  rintro ⟨k, v⟩ ⟨k', w⟩ hv hw hle hge
  cases le_antisymm hle hge
  have hy : (ys.map Prod.fst).Nodup := (h.map Prod.fst).nodup_iff.mp hx
  have hxs : (k, v) ∈ ys := h.mem_iff.mp ((sorted_perm xs).mem_iff.mp hv)
  have hys : (k, w) ∈ ys := (sorted_perm ys).mem_iff.mp hw
  have hsame : some v = some w := (lookup_of_mem hy hxs).symm.trans (lookup_of_mem hy hys)
  cases hsame
  rfl

theorem sorted_eq_of_lookup (hx : (xs.map Prod.fst).Nodup) (hy : (ys.map Prod.fst).Nodup)
    (h : ∀ k, xs.lookup k = ys.lookup k) : sorted xs = sorted ys :=
  sorted_eq_of_perm hx (perm_of_lookup hx hy h)

theorem lookup_eq_of_sorted (h : sorted xs = sorted ys) (k : K) : xs.lookup k = ys.lookup k := by
  rw [← lookup_sorted xs, ← lookup_sorted ys, h]

end Sorted
end Entries
