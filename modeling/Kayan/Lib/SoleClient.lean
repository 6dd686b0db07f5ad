import Kayan.Lib.RowTable

/-!
# Tables with a single client

While no other client holds a lock, every row is free to the client that runs, and what it
reads is what its commit publishes.
-/
namespace RowStore

variable {ι V : Type} [DecidableEq ι]

namespace Table

/-- No row is locked. -/
def Unlocked (t : Table ι V) : Prop := ∀ i, (t.cell i).held = none

/-- Nobody but `c` holds a lock. -/
def Sole (c : ι) (t : Table ι V) : Prop := ∀ i, t.free c i = true

variable {b c : ι} {t : Table ι V} {i j : Nat} {v : Option V} {r : V}

theorem Unlocked.own (h : t.Unlocked) : t.own c i = none := by
  simp [Table.own, Cell.own, h i]

theorem Unlocked.sole (h : t.Unlocked) : t.Sole c := by
  intro i
  simp [free, Cell.free, h i]

theorem Unlocked.inserts (h : t.Unlocked) : t.Inserts c := by
  intro i v w hi
  rw [h.own] at hi
  cases hi

theorem Unlocked.view (h : t.Unlocked) : t.view c i = t.committed i := view_of_not_own h.own

theorem Unlocked.rows (h : t.Unlocked) : t.rows c = t.committedRows := by
  have hv : t.view c = t.committed := funext fun i => h.view
  rw [Table.rows, hv, committedRows]

omit [DecidableEq ι] in
theorem Unlocked.store (h : t.Unlocked) : (t.store i v).Unlocked := by
  intro j
  simp only [Table.store, set]
  split
  · rfl
  · exact h j

omit [DecidableEq ι] in
theorem Unlocked.append (h : t.Unlocked) : (t.append r).Unlocked := by
  intro j
  simp only [Table.append, push]
  split
  · rfl
  · exact h j

theorem Sole.write (h : t.Sole c) : (t.write c i v).Sole c := by
  intro j
  simp only [Table.write, set, free]
  split
  · simp [Cell.free]
  · exact h j

theorem Sole.lock (h : t.Sole c) : (t.lock c i).Sole c := h.write

theorem Sole.insert (h : t.Sole c) : (t.insert c r).Sole c := by
  intro j
  simp only [Table.insert, push, free]
  split
  · simp [Cell.free]
  · exact h j

private theorem held_of_free (h : t.free c i = true) : (t.cell i).held = none ∨ ∃ w, (t.cell i).held = some (c, w) := by
  rcases hx : (t.cell i).held with _ | ⟨b, w⟩
  · exact Or.inl rfl
  · have hb : b = c := by simpa [free, Cell.free, hx] using h
    exact Or.inr ⟨w, by rw [hb]⟩

theorem Sole.commit (h : t.Sole c) : (t.commit c).Unlocked := by
  intro i
  rcases held_of_free (h i) with hx | ⟨w, hx⟩
  · simp [Table.commit, Cell.commit, hx]
  · simp [Table.commit, Cell.commit, hx]

theorem Sole.rollback (h : t.Sole c) : (t.rollback c).Unlocked := by
  intro i
  rcases held_of_free (h i) with hx | ⟨w, hx⟩
  · simp [Table.rollback, Cell.rollback, hx]
  · simp [Table.rollback, Cell.rollback, hx]

/-- Without locks there is nothing to publish. -/
theorem Unlocked.commit_eq (h : t.Unlocked) : t.commit c = t := by
  have hcell : (t.commit c).cell = t.cell := by
    funext i
    simp [Table.commit, Cell.commit, h i]
  obtain ⟨next, cell, fresh⟩ := t
  simp only [Table.commit] at hcell ⊢
  congr

theorem Unlocked.rollback_eq (h : t.Unlocked) : t.rollback c = t := by
  have hcell : (t.rollback c).cell = t.cell := by
    funext i
    simp [Table.rollback, Cell.rollback, h i]
  obtain ⟨next, cell, fresh⟩ := t
  simp only [Table.rollback] at hcell ⊢
  congr

theorem view_write (hi : i < t.next) : (t.write c i v).view c j = if j = i then v else t.view c j := by
  by_cases hj : j = i
  · subst hj
    rw [if_pos rfl, view_of_own]
    rw [own_write hi, if_pos rfl]
  · rw [if_neg hj, view_eq_own, view_eq_own, own_write hi, if_neg hj, committed_write]

theorem view_lock (hi : i < t.next) : (t.lock c i).view c j = t.view c j := by
  rw [lock, view_write hi]
  by_cases hj : j = i
  · rw [if_pos hj, hj]
  · rw [if_neg hj]

theorem view_insert : (t.insert c r).view c j = if j = t.next then some r else t.view c j := by
  by_cases hj : j = t.next
  · rw [if_pos hj, view_of_own]
    rw [own_insert, if_pos hj]
  · rw [if_neg hj, view_eq_own, view_eq_own, own_insert, if_neg hj, committed_insert]

theorem rows_insert : (t.insert c r).rows c = t.rows c ++ [r] := by
  have hnext : (t.insert c r).next = t.next + 1 := rfl
  rw [Table.rows, hnext, List.range_succ, List.filterMap_append, Table.rows]
  congr 1
  · refine List.filterMap_congr fun i hi => ?_
    rw [view_insert, if_neg (Nat.ne_of_lt (List.mem_range.mp hi))]
  · simp [view_insert]

/-- A commit publishes what its client reads. -/
theorem committed_commit_eq_view : (t.commit c).committed j = t.view c j := by
  rw [committed_commit, view_eq_own]

theorem committedRows_commit_eq_rows : (t.commit c).committedRows = t.rows c := by
  have hv : (t.commit c).committed = t.view c := funext fun _ => committed_commit_eq_view
  have hnext : (t.commit c).next = t.next := rfl
  rw [committedRows, hv, hnext, Table.rows]

end Table
end RowStore
