import Kayan.Lib.SoleClient

/-!
# The versions of rows

A row has a committed version and at most one version of an open transaction. What each version
satisfies holds of every version that a statement leaves, once it holds of the one that it writes.
Deletions write no version.
-/
namespace RowStore

variable {ι V : Type}

/-- `r` is a version of the row. -/
def Cell.Has (x : Cell ι V) (r : V) : Prop := x.committed = some r ∨ ∃ c, x.held = some (c, some r)

section Ends
variable [DecidableEq ι] {c : ι} {y : Cell ι V} {r : V}

theorem Cell.has_commit (h : (y.commit c).Has r) : y.Has r := by
  obtain ⟨w, held⟩ := y
  cases held with
  | none => exact h
  | some z =>
    by_cases hc : z.1 = c
    · simp only [Cell.commit, hc, if_true] at h
      rcases h with h | ⟨b, h⟩
      · exact Or.inr ⟨z.1, congrArg some (Prod.ext rfl h)⟩
      · cases h
    · simpa only [Cell.commit, hc, if_false] using h

theorem Cell.has_rollback (h : (y.rollback c).Has r) : y.Has r := by
  obtain ⟨w, held⟩ := y
  cases held with
  | none => exact h
  | some z =>
    by_cases hc : z.1 = c
    · simp only [Cell.rollback, hc, if_true] at h
      rcases h with h | ⟨b, h⟩
      · exact Or.inl h
      · cases h
    · simpa only [Cell.rollback, hc, if_false] using h

end Ends

namespace Table

/-- `r` is a version of the row `i`. -/
def Has (t : Table ι V) (i : Nat) (r : V) : Prop := (t.cell i).Has r

/-- `P` holds of every version of every row. -/
def Every (P : Nat → V → Prop) (t : Table ι V) : Prop := ∀ i r, t.Has i r → P i r

variable {b c : ι} {t : Table ι V} {i j : Nat} {v : Option V} {r x : V} {P Q : Nat → V → Prop} {p : V → Bool}

theorem has_of_committed (h : t.committed i = some r) : t.Has i r := Or.inl h

theorem Every.committed (h : t.Every P) (hc : t.committed i = some r) : P i r := h i r (has_of_committed hc)

theorem Every.mono (h : t.Every P) (hp : ∀ i r, P i r → Q i r) : t.Every Q := fun i r hr => hp i r (h i r hr)

theorem lt_of_has (h : t.Has i r) : i < t.next := by
  by_contra hi
  have hcell : t.cell i = {} := t.fresh i (Nat.le_of_not_lt hi)
  rw [Has, hcell] at h
  rcases h with h | ⟨b, h⟩ <;> cases h

theorem Every.mono_lt (h : t.Every P) (hp : ∀ i r, i < t.next → P i r → Q i r) : t.Every Q :=
  fun i r hr => hp i r (lt_of_has hr) (h i r hr)

theorem Every.set (h : t.Every P) {y : Cell ι V} (hy : ∀ r, y.Has r → P i r) : (t.set i y).Every P := by
  intro j r hr
  simp only [Has, Table.set] at hr
  split at hr
  · rename_i hj
    rw [hj.1]
    exact hy r hr
  · exact h j r hr

theorem Every.push (h : t.Every P) {y : Cell ι V} (hy : ∀ r, y.Has r → P t.next r) : (t.push y).Every P := by
  intro j r hr
  simp only [Has, Table.push] at hr
  split at hr
  · rename_i hj
    rw [hj]
    exact hy r hr
  · exact h j r hr

theorem Every.write (h : t.Every P) (hv : ∀ r, v = some r → P i r) : (t.write c i v).Every P := by
  refine h.set fun r hr => ?_
  rcases hr with hr | ⟨b, hr⟩
  · exact h.committed hr
  · simp only [Option.some.injEq, Prod.mk.injEq] at hr
    exact hv r hr.2

theorem Every.store (h : t.Every P) (hv : ∀ r, v = some r → P i r) : (t.store i v).Every P := by
  refine h.set fun r hr => ?_
  rcases hr with hr | ⟨b, hr⟩
  · exact hv r hr
  · cases hr

theorem Every.insert (h : t.Every P) (hr : P t.next r) : (t.insert c r).Every P := by
  refine h.push fun x hx => ?_
  rcases hx with hx | ⟨b, hx⟩
  · cases hx
  · simp only [Option.some.injEq, Prod.mk.injEq] at hx
    rw [← hx.2]
    exact hr

theorem Every.append (h : t.Every P) (hr : P t.next r) : (t.append r).Every P := by
  refine h.push fun x hx => ?_
  rcases hx with hx | ⟨b, hx⟩
  · rw [← Option.some.inj hx]
    exact hr
  · cases hx

variable [DecidableEq ι]

theorem Every.commit (h : t.Every P) : (t.commit c).Every P := fun i r hr => h i r (Cell.has_commit hr)

theorem Every.rollback (h : t.Every P) : (t.rollback c).Every P := fun i r hr => h i r (Cell.has_rollback hr)

theorem has_of_view (h : t.view c i = some r) : t.Has i r := by
  rw [view_eq_own] at h
  rcases ho : t.own c i with _ | ⟨v, w⟩
  · rw [ho] at h
    exact has_of_committed h
  · rw [ho] at h
    refine Or.inr ⟨c, ?_⟩
    simp only [own, Cell.own] at ho
    split at ho
    · rename_i d u hd
      split at ho
      · rename_i hdc
        subst hdc
        have hw : u = w := (Prod.mk.inj (Option.some.inj ho)).2
        rw [hd, hw]
        exact congrArg (fun z => some (d, z)) h
      · cases ho
    · cases ho

theorem committed_of_has (h : ∀ c, t.own c i = none) (hr : t.Has i r) : t.committed i = some r := by
  rcases hr with hr | ⟨b, hr⟩
  · exact hr
  · have hb : t.own b i ≠ none := by simp [own, Cell.own, hr]
    exact absurd (h b) hb

theorem Every.view (h : t.Every P) (hv : t.view c i = some r) : P i r := h i r (has_of_view hv)

/-! Deletions in a transaction. -/

/-- The keys of the rows that `c` sees and that satisfy `p`. -/
def keysWhere (c : ι) (p : V → Bool) (t : Table ι V) : List Nat :=
  (List.range t.next).filter fun i => (t.view c i).any p

omit [DecidableEq ι] in
/-- Client `c` deletes rows, uncommitted. -/
def delete (c : ι) (keys : List Nat) (t : Table ι V) : Table ι V :=
  keys.foldl (fun t i => t.write c i none) t

/-- `DELETE ... WHERE`. It waits while another transaction holds one of the rows. -/
def deleteWhere (c : ι) (p : V → Bool) (t : Table ι V) : Option (Table ι V) :=
  if (t.keysWhere c p).all (t.free c) then some (t.delete c (t.keysWhere c p)) else none

variable {keys : List Nat}

omit [DecidableEq ι] in
theorem Every.delete (h : t.Every P) : (t.delete c keys).Every P := by
  induction keys generalizing t with
  | nil => exact h
  | cons i keys ih => exact ih (h.write (by simp))

theorem Every.deleteWhere {t' : Table ι V} (h : t.Every P) (hd : t.deleteWhere c p = some t') : t'.Every P := by
  unfold Table.deleteWhere at hd
  split at hd
  · cases hd
    exact h.delete
  · cases hd

omit [DecidableEq ι] in
theorem next_delete : (t.delete c keys).next = t.next := by
  induction keys generalizing t with
  | nil => rfl
  | cons i keys ih => exact ih

omit [DecidableEq ι] in
theorem committed_delete : (t.delete c keys).committed j = t.committed j := by
  induction keys generalizing t with
  | nil => rfl
  | cons i keys ih => exact ih.trans committed_write

theorem Sole.delete (h : t.Sole c) : (t.delete c keys).Sole c := by
  induction keys generalizing t with
  | nil => exact h
  | cons i keys ih => exact ih h.write

theorem view_delete (h : ∀ i ∈ keys, i < t.next) :
    (t.delete c keys).view c j = if j ∈ keys then none else t.view c j := by
  induction keys generalizing t with
  | nil => simp [Table.delete]
  | cons i keys ih =>
    have hi : i < t.next := h i List.mem_cons_self
    have hrest : ∀ k ∈ keys, k < (t.write c i none).next := fun k hk => h k (List.mem_cons_of_mem _ hk)
    have hstep := ih hrest
    rw [Table.delete, List.foldl_cons]
    refine hstep.trans ?_
    rw [view_write hi]
    by_cases hj : j = i <;> by_cases hk : j ∈ keys <;> simp [hj, hk]

theorem keysWhere_lt (h : i ∈ t.keysWhere c p) : i < t.next := by
  simp only [keysWhere, List.mem_filter, List.mem_range] at h
  exact h.1

theorem view_of_keysWhere (h : i ∈ t.keysWhere c p) : ∃ r, t.view c i = some r ∧ p r = true := by
  simp only [keysWhere, List.mem_filter] at h
  rcases hv : t.view c i with _ | r
  · simp [hv] at h
  · exact ⟨r, rfl, by simpa [hv] using h.2⟩

/-- A sole client deletes without waiting, and sees the other rows afterwards. -/
theorem Sole.deleteWhere (h : t.Sole c) : ∃ t', t.deleteWhere c p = some t' ∧ t'.Sole c ∧ t'.next = t.next ∧
    (∀ i, t'.committed i = t.committed i) ∧ t'.rows c = (t.rows c).filter fun r => !p r := by
  refine ⟨t.delete c (t.keysWhere c p), ?_, h.delete, next_delete, fun _ => committed_delete, ?_⟩
  · rw [Table.deleteWhere, if_pos (List.all_eq_true.mpr fun i _ => h i)]
  · rw [Table.rows, next_delete, Table.rows, List.filter_filterMap]
    refine List.filterMap_congr fun i hi => ?_
    rw [view_delete fun k hk => keysWhere_lt hk]
    have hmem : i ∈ t.keysWhere c p ↔ (t.view c i).any p = true := by
      rw [keysWhere, List.mem_filter]
      exact and_iff_right hi
    rcases hv : t.view c i with _ | r
    · simp
    · rw [hv] at hmem
      by_cases hp : p r = true <;> simp [hmem, Option.filter, hp]

/-! Tables of given rows. -/

omit [DecidableEq ι] in
/-- A table of committed rows, with the keys 1, 2, ... -/
def numbered (rows : List V) : Table ι V where
  next := rows.length + 1
  cell i := ⟨if i = 0 then none else rows[i - 1]?, none⟩
  fresh i hi := by
    rw [if_neg (by omega), List.getElem?_eq_none (by omega)]

omit [DecidableEq ι] in
theorem numbered_unlocked {rows : List V} : (numbered rows : Table ι V).Unlocked := fun _ => rfl

omit [DecidableEq ι] in
theorem numbered_every {rows : List V} (h : ∀ r ∈ rows, ∀ i, P i r) : (numbered rows : Table ι V).Every P := by
  intro i r hr
  rcases hr with hr | ⟨b, hr⟩
  · simp only [numbered] at hr
    split at hr
    · cases hr
    · exact h r (List.mem_of_getElem? hr) i
  · cases hr

end Table
end RowStore
