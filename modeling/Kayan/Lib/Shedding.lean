import Kayan.Lib.RowVersions

/-!
# Tables that lack rows

A table from which rows have been deleted, beside the one that still has them. A client that looks for other
rows sees no difference, and what it does to the rows of both tables it does to both.
-/
namespace RowStore.Table

variable {ι V : Type} [DecidableEq ι] {P : V → Prop} {c : ι} {t t' : Table ι V} {i : Nat} {r : V} {p : V → Bool}

/-- `t'` lacks some of the rows of `t`: each version of them satisfies `P`, and nobody but `c` holds them. -/
structure Sheds (P : V → Prop) (c : ι) (t t' : Table ι V) : Prop where
  next : t'.next = t.next
  cell : ∀ i, t'.cell i = t.cell i ∨ t'.cell i = {} ∧ t.free c i = true ∧ ∀ r, t.Has i r → P r

theorem Sheds.view (h : t.Sheds P c t') (i : Nat) :
    t'.view c i = t.view c i ∨ t'.view c i = none ∧ ∀ r, t.view c i = some r → P r := by
  rcases h.cell i with hsame | ⟨hgone, -, hall⟩
  · left
    rw [Table.view, hsame, Table.view]
  · right
    refine ⟨?_, fun r hr => hall r (has_of_view hr)⟩
    rw [Table.view, hgone]
    rfl

theorem Sheds.committed (h : t.Sheds P c t') (i : Nat) :
    t'.committed i = t.committed i ∨ t'.committed i = none ∧ ∀ r, t.committed i = some r → P r := by
  rcases h.cell i with hsame | ⟨hgone, -, hall⟩
  · left
    rw [Table.committed, hsame, Table.committed]
  · right
    refine ⟨?_, fun r hr => hall r (has_of_committed hr)⟩
    rw [Table.committed, hgone]

/-- A row that does not satisfy `P` is in both tables. -/
theorem Sheds.kept (h : t.Sheds P c t') (hv : t.view c i = some r) (hr : ¬ P r) : t'.cell i = t.cell i := by
  rcases h.cell i with hsame | ⟨-, -, hall⟩
  · exact hsame
  · exact absurd (hall r (has_of_view hv)) hr

/-- A search for other rows finds what it found. -/
theorem Sheds.any_view (h : t.Sheds P c t') (hp : ∀ r, P r → p r = false) (i : Nat) :
    (t'.view c i).any p = (t.view c i).any p := by
  rcases h.view i with hsame | ⟨hnone, hall⟩
  · rw [hsame]
  · rw [hnone]
    rcases hv : t.view c i with _ | r
    · rfl
    · exact (hp r (hall r hv)).symm

theorem Sheds.any_committed (h : t.Sheds P c t') (hp : ∀ r, P r → p r = false) (i : Nat) :
    (t'.committed i).any p = (t.committed i).any p := by
  rcases h.committed i with hsame | ⟨hnone, hall⟩
  · rw [hsame]
  · rw [hnone]
    rcases hv : t.committed i with _ | r
    · rfl
    · exact (hp r (hall r hv)).symm

omit [DecidableEq ι] in
theorem committedRows_any : t.committedRows.any p = (List.range t.next).any fun i => (t.committed i).any p := by
  rw [committedRows, List.any_filterMap]
  rfl

theorem Sheds.any_rows (h : t.Sheds P c t') (hp : ∀ r, P r → p r = false) :
    t'.committedRows.any p = t.committedRows.any p := by
  rw [committedRows_any, committedRows_any, h.next]
  exact congrArg (List.any _) (funext fun i => h.any_committed hp i)

omit [DecidableEq ι] in
theorem has_write {j : Nat} {v : Option V} (h : (t.write c i v).Has j r) : t.Has j r ∨ j = i ∧ v = some r := by
  by_cases hj : j = i ∧ j < t.next
  · have hcell : (t.write c i v).cell j = ⟨t.committed i, some (c, v)⟩ := if_pos hj
    rw [Table.Has, hcell] at h
    rcases h with h | ⟨b, h⟩
    · left
      rw [hj.1]
      exact has_of_committed h
    · exact .inr ⟨hj.1, (Prod.mk.inj (Option.some.inj h)).2⟩
  · have hcell : (t.write c i v).cell j = t.cell j := if_neg hj
    rw [Table.Has, hcell] at h
    exact .inl h

/-- A row of both tables is written in both. -/
theorem Sheds.write (h : t.Sheds P c t') (hi : t'.cell i = t.cell i) (v : Option V) :
    (t.write c i v).Sheds P c (t'.write c i v) := by
  refine ⟨h.next, fun j => ?_⟩
  by_cases hj : j = i ∧ j < t.next
  · left
    have hj' : j = i ∧ j < t'.next := ⟨hj.1, by rw [h.next]; exact hj.2⟩
    have hcommitted : t'.committed i = t.committed i := by
      rw [Table.committed, hi, Table.committed]
    simp only [Table.write, Table.set, if_pos hj, if_pos hj', hcommitted]
  · have hj' : ¬ (j = i ∧ j < t'.next) := by
      rw [h.next]
      exact hj
    have hcell : (t.write c i v).cell j = t.cell j := if_neg hj
    have hcell' : (t'.write c i v).cell j = t'.cell j := if_neg hj'
    simp only [hcell, hcell', Table.free, Table.Has]
    exact h.cell j

theorem Sheds.lock (h : t.Sheds P c t') (hi : t'.cell i = t.cell i) : (t.lock c i).Sheds P c (t'.lock c i) := by
  have hview : t'.view c i = t.view c i := by
    rw [Table.view, hi, Table.view]
  rw [Table.lock, Table.lock, hview]
  exact h.write hi (t.view c i)

/-- A row that only the first table has is deleted there. -/
theorem Sheds.delete (h : t.Sheds P c t') (hi : t'.cell i = {}) : (t.write c i none).Sheds P c t' := by
  refine ⟨h.next, fun j => ?_⟩
  by_cases hj : j = i ∧ j < t.next
  · right
    obtain ⟨rfl, hlt⟩ := hj
    have hcell : (t.write c j none).cell j = ⟨t.committed j, some (c, none)⟩ := if_pos ⟨rfl, hlt⟩
    refine ⟨hi, ?_, fun r hr => ?_⟩
    · rw [Table.free, hcell]
      exact decide_eq_true rfl
    · rw [Table.Has, hcell] at hr
      rcases hr with hr | ⟨b, hr⟩
      · rcases h.cell j with hsame | ⟨-, -, hall⟩
        · have hnone : t.committed j = none := by
            rw [Table.committed, ← hsame, hi]
          rw [hnone] at hr
          cases hr
        · exact hall r (has_of_committed hr)
      · cases hr
  · have hcell : (t.write c i none).cell j = t.cell j := if_neg hj
    simp only [Table.free, Table.Has, hcell]
    exact h.cell j

theorem free_commit (h : t.free c i = true) : (t.commit c).free c i = true := by
  rcases hx : t.cell i with ⟨v, _ | ⟨b, w⟩⟩
  · simp [Table.free, Table.commit, Cell.commit, Cell.free, hx]
  · have hb : b = c := by simpa [Table.free, Cell.free, hx] using h
    simp [Table.free, Table.commit, Cell.commit, Cell.free, hx, hb]

theorem free_rollback (h : t.free c i = true) : (t.rollback c).free c i = true := by
  rcases hx : t.cell i with ⟨v, _ | ⟨b, w⟩⟩
  · simp [Table.free, Table.rollback, Cell.rollback, Cell.free, hx]
  · have hb : b = c := by simpa [Table.free, Cell.free, hx] using h
    simp [Table.free, Table.rollback, Cell.rollback, Cell.free, hx, hb]

theorem Sheds.commit (h : t.Sheds P c t') : (t.commit c).Sheds P c (t'.commit c) := by
  refine ⟨h.next, fun j => ?_⟩
  rcases h.cell j with hsame | ⟨hgone, hfree, hall⟩
  · exact .inl (congrArg (Cell.commit c) hsame)
  · exact .inr ⟨congrArg (Cell.commit c) hgone, free_commit hfree, fun r hr => hall r (Cell.has_commit hr)⟩

theorem Sheds.rollback (h : t.Sheds P c t') : (t.rollback c).Sheds P c (t'.rollback c) := by
  refine ⟨h.next, fun j => ?_⟩
  rcases h.cell j with hsame | ⟨hgone, hfree, hall⟩
  · exact .inl (congrArg (Cell.rollback c) hsame)
  · exact .inr ⟨congrArg (Cell.rollback c) hgone, free_rollback hfree, fun r hr => hall r (Cell.has_rollback hr)⟩

end RowStore.Table
