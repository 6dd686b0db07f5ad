import Kayan.Lib.RowVersions

/-!
# Sections that are replaced

The rows of a table in groups. A transaction replaces the rows of some groups: it deletes them all and
inserts others. `Rewrites` says what it has come to, and its commit changes these groups at once and no
others, where no other open transaction rewrites one of them.
-/
namespace RowStore

variable {ι V G L : Type} [DecidableEq ι] [DecidableEq G]

/-- What a statement of `c` may do to a table, apart from the end of its transaction: it writes the
version of a row that it sees and may lock, inserts a row, or stores one that is not locked. -/
inductive Table.Touches (c : ι) (t : Table ι V) : Table ι V → Prop
  | same : Touches c t t
  | write {i : Nat} {r : V} {w : Option V} (hv : t.view c i = some r) (hf : t.free c i = true) :
      Touches c t (t.write c i w)
  | insert {r : V} : Touches c t (t.insert c r)
  | store {i : Nat} {w : Option V} (hh : (t.cell i).held = none) : Touches c t (t.store i w)

namespace Table
variable {b c : ι} {t t' : Table ι V} {i j : Nat} {r : V} {p : V → Bool} {keys : List Nat}

theorem Touches.own_ne (h : t.Touches c t') (hb : b ≠ c) : t'.own b i = t.own b i := by
  cases h with
  | same => rfl
  | write hv hf => exact own_write_ne hb hf
  | insert => exact own_insert_ne hb
  | store hh => exact own_store hh

/-- A lock is kept. -/
theorem Touches.held (h : t.Touches c t') (hi : t.own c i ≠ none) : t'.own c i ≠ none := by
  cases h with
  | same => exact hi
  | write hv hf =>
    rw [own_write (lt_of_view hv)]
    split
    · simp
    · exact hi
  | insert =>
    rw [own_insert]
    split
    · simp
    · exact hi
  | store hh => rwa [own_store hh]

/-- A row has one lock. -/
theorem holder_unique (hb : t.own b i ≠ none) (hc : t.own c i ≠ none) : b = c :=
  free_iff_of_own hc (free_of_own hb)

theorem own_delete (hk : ∀ i ∈ keys, i < t.next) :
    (t.delete c keys).own c j = if j ∈ keys then some (t.committed j, none) else t.own c j := by
  induction keys generalizing t with
  | nil => simp [Table.delete]
  | cons i keys ih =>
    have hi : i < t.next := hk i List.mem_cons_self
    have hrest : ∀ k ∈ keys, k < (t.write c i none).next := fun k hm => hk k (List.mem_cons_of_mem _ hm)
    have hstep := ih hrest
    rw [Table.delete, List.foldl_cons]
    refine hstep.trans ?_
    rw [committed_write, own_write hi]
    by_cases hj : j = i <;> by_cases hm : j ∈ keys <;> simp [hj, hm]

theorem own_delete_ne (hb : b ≠ c) (hk : ∀ i ∈ keys, t.free c i = true) : (t.delete c keys).own b j = t.own b j := by
  induction keys generalizing t with
  | nil => rfl
  | cons i keys ih =>
    rw [Table.delete, List.foldl_cons]
    refine (ih fun k hm => ?_).trans (own_write_ne hb (hk i List.mem_cons_self))
    have hfree := hk k (List.mem_cons_of_mem _ hm)
    simp only [write, set, free] at hfree ⊢
    split
    · simp [Cell.free]
    · exact hfree

theorem deleteWhere_eq (h : t.deleteWhere c p = some t') :
    t' = t.delete c (t.keysWhere c p) ∧ ∀ i ∈ t.keysWhere c p, t.free c i = true := by
  unfold deleteWhere at h
  split at h
  · rename_i hall
    cases h
    exact ⟨rfl, List.all_eq_true.mp hall⟩
  · cases h

theorem mem_keysWhere (hi : t.view c i = some r) (hr : p r = true) : i ∈ t.keysWhere c p := by
  rw [keysWhere, List.mem_filter, List.mem_range, hi]
  exact ⟨lt_of_view hi, hr⟩

/-- A change that leaves the committed rows and what the others have written. -/
structure Beside (c : ι) (t t' : Table ι V) : Prop where
  own : ∀ b, b ≠ c → ∀ i, t'.own b i = t.own b i
  committed : ∀ i, t'.committed i = t.committed i

omit [DecidableEq G] in
theorem Beside.refl : t.Beside c t := ⟨fun _ _ _ => rfl, fun _ => rfl⟩

omit [DecidableEq G] in
theorem Beside.trans {t'' : Table ι V} (h : t.Beside c t') (h' : t'.Beside c t'') : t.Beside c t'' :=
  ⟨fun b hb i => (h'.own b hb i).trans (h.own b hb i), fun i => (h'.committed i).trans (h.committed i)⟩

omit [DecidableEq G] in
theorem beside_insert : t.Beside c (t.insert c r) :=
  ⟨fun _ hb _ => own_insert_ne hb, fun _ => committed_insert⟩

omit [DecidableEq G] in
theorem beside_deleteWhere (h : t.deleteWhere c p = some t') : t.Beside c t' := by
  obtain ⟨rfl, hfree⟩ := deleteWhere_eq h
  exact ⟨fun b hb i => own_delete_ne hb hfree, fun i => committed_delete⟩

/-- The entries of a group, in the order of their keys. -/
def listed (group : V → G) (entry : V → L) (g : G) (t : Table ι V) : List L :=
  (t.committedRows.filter fun r => group r = g).map entry

/-- What the open transaction of `c` has made of the table: the groups in `lists` hold what is listed
there, and no row of another group is touched. -/
structure Rewrites (group : V → G) (entry : V → L) (c : ι) (lists : G → Option (List L)) (t : Table ι V) : Prop where
  deleted : ∀ i r w, t.own c i = some (some r, w) → (lists (group r)).isSome ∧ w = none
  inserted : ∀ i r w, t.own c i = some (w, some r) → (lists (group r)).isSome
  cleared : ∀ i r, t.committed i = some r → (lists (group r)).isSome → t.own c i ≠ none
  filled : ∀ g l, lists g = some l → ((t.pending c).filter fun r => group r = g).map entry = l

variable {group : V → G} {entry : V → L} {lists lists' : G → Option (List L)} {g : G} {l : List L}

omit [DecidableEq G] in
/-- Rows that are listed alike, group by group. -/
theorem filter_filterMap_range {f f' : Nat → Option V} {n : Nat} {q : V → Bool}
    (h : ∀ i, (f i).filter q = (f' i).filter q) :
    ((List.range n).filterMap f).filter q = ((List.range n).filterMap f').filter q := by
  rw [List.filter_filterMap, List.filter_filterMap]
  exact List.filterMap_congr fun i _ => h i

theorem Rewrites.start (h : ∀ i, t.own c i = none) : t.Rewrites group entry c fun _ => none where
  deleted i r w hi := by
    rw [h i] at hi
    cases hi
  inserted i r w hi := by
    rw [h i] at hi
    cases hi
  cleared _ _ _ h := by cases h
  filled _ _ h := by cases h

theorem Rewrites.congr (h : t.Rewrites group entry c lists) (ho : ∀ i, t'.own c i = t.own c i)
    (hc : ∀ i, t'.committed i = t.committed i) : t'.Rewrites group entry c lists where
  deleted := by simpa only [ho] using h.deleted
  inserted := by simpa only [ho] using h.inserted
  cleared := by simpa only [ho, hc] using h.cleared
  filled := by simpa only [pending_congr ho] using h.filled

/-- A group is cleared. -/
theorem Rewrites.clear (h : t.Rewrites group entry c lists) (hg : lists g = none)
    (hd : t.deleteWhere c (fun r => group r = g) = some t') :
    t'.Rewrites group entry c (Function.update lists g (some [])) := by
  obtain ⟨rfl, hfree⟩ := deleteWhere_eq hd
  have hkeys : ∀ i ∈ t.keysWhere c fun r => group r = g, i < t.next := fun i => keysWhere_lt
  -- a row that is deleted is a committed one that the transaction has not touched
  have hrow : ∀ i ∈ t.keysWhere c fun r => group r = g, t.own c i = none ∧ ∃ r, t.committed i = some r ∧ group r = g := by
    intro i hi
    obtain ⟨r, hv, hr⟩ := view_of_keysWhere hi
    rcases ho : t.own c i with - | ⟨w, v⟩
    · rw [view_of_not_own ho] at hv
      exact ⟨rfl, r, hv, of_decide_eq_true hr⟩
    · rw [view_of_own ho] at hv
      subst hv
      have hsome := h.inserted i r w ho
      rw [of_decide_eq_true hr, hg] at hsome
      cases hsome
  have hold : ∀ g', (lists g').isSome → (Function.update lists g (some []) g').isSome := by
    intro g' hs
    by_cases heq : g' = g
    · subst heq
      simp
    · rwa [Function.update_of_ne heq]
  constructor
  · intro i r w hi
    rw [own_delete hkeys] at hi
    split at hi
    · rename_i hmem
      obtain ⟨-, r', hr', hgroup⟩ := hrow i hmem
      rw [hr'] at hi
      cases hi
      rw [hgroup]
      exact ⟨by simp, rfl⟩
    · obtain ⟨hs, hw⟩ := h.deleted i r w hi
      exact ⟨hold _ hs, hw⟩
  · intro i r w hi
    rw [own_delete hkeys] at hi
    split at hi
    · cases hi
    · exact hold _ (h.inserted i r w hi)
  · intro i r hi hs
    rw [committed_delete] at hi
    rw [own_delete hkeys]
    split
    · simp
    · rename_i hmem
      intro ho
      by_cases hgroup : group r = g
      · have hview : t.view c i = some r := by rw [view_of_not_own ho, hi]
        exact hmem (mem_keysWhere hview (by simpa using hgroup))
      · rw [Function.update_of_ne hgroup] at hs
        exact h.cleared i r hi hs ho
  · intro g' l' hl
    have hpending : (t.delete c (t.keysWhere c fun r => group r = g)).pending c = t.pending c := by
      unfold pending
      rw [next_delete]
      refine List.filterMap_congr fun i _ => ?_
      unfold pendingAt
      rw [own_delete hkeys]
      by_cases hmem : i ∈ t.keysWhere c fun r => group r = g
      · obtain ⟨ho, r', hr', -⟩ := hrow i hmem
        rw [if_pos hmem, ho, hr']
      · rw [if_neg hmem]
    rw [hpending]
    by_cases heq : g' = g
    · subst heq
      rw [Function.update_self] at hl
      cases hl
      -- nothing of the group has been inserted before
      rw [List.map_eq_nil_iff, List.filter_eq_nil_iff]
      intro r hr hgroup
      obtain ⟨i, -, hi⟩ := List.mem_filterMap.mp hr
      unfold pendingAt at hi
      split at hi
      · rename_i v ho
        subst hi
        have hsome := h.inserted i r none ho
        rw [of_decide_eq_true hgroup, hg] at hsome
        cases hsome
      · cases hi
    · rw [Function.update_of_ne heq] at hl
      exact h.filled g' l' hl

theorem Rewrites.insert (h : t.Rewrites group entry c lists) (hl : lists (group r) = some l) :
    (t.insert c r).Rewrites group entry c (Function.update lists (group r) (some (l ++ [entry r]))) := by
  have hold : ∀ g', (Function.update lists (group r) (some (l ++ [entry r])) g').isSome = (lists g').isSome := by
    intro g'
    by_cases heq : g' = group r
    · subst heq
      simp [hl]
    · rw [Function.update_of_ne heq]
  constructor
  · intro i r' w hi
    rw [own_insert] at hi
    split at hi
    · cases hi
    · rw [hold]
      exact h.deleted i r' w hi
  · intro i r' w hi
    rw [own_insert] at hi
    rw [hold]
    split at hi
    · cases hi
      rw [hl]
      rfl
    · exact h.inserted i r' w hi
  · intro i r' hi hs
    rw [committed_insert] at hi
    rw [hold] at hs
    rw [own_insert]
    split
    · simp
    · exact h.cleared i r' hi hs
  · intro g' l' hg
    rw [pending_insert, List.filter_append, List.map_append]
    by_cases heq : g' = group r
    · subst heq
      rw [Function.update_self] at hg
      cases hg
      rw [h.filled _ _ hl]
      simp
    · rw [Function.update_of_ne heq] at hg
      rw [h.filled g' l' hg]
      simp [Ne.symm heq]

/-- The commit of a transaction that rewrites no group of this one. -/
theorem Rewrites.commit_ne (h : t.Rewrites group entry c lists) (hb : c ≠ b) (h' : t.Rewrites group entry b lists')
    (hd : ∀ g, (lists g).isSome → lists' g = none) : (t.commit b).Rewrites group entry c lists where
  deleted := by simpa only [own_commit_ne hb] using h.deleted
  inserted := by simpa only [own_commit_ne hb] using h.inserted
  cleared i r hi hs := by
    rw [own_commit_ne hb]
    rw [committed_commit] at hi
    rcases ho : t.own b i with - | ⟨v, w⟩
    · rw [ho] at hi
      exact h.cleared i r hi hs
    · rw [ho] at hi
      subst hi
      have hsome := h'.inserted i r v ho
      rw [hd _ hs] at hsome
      cases hsome
  filled := by
    have hpending : (t.commit b).pending c = t.pending c := pending_congr fun i => own_commit_ne hb
    simpa only [hpending] using h.filled

/-- A commit replaces the groups that the transaction has rewritten, and leaves the others. -/
theorem Rewrites.commit (h : t.Rewrites group entry c lists) (g : G) :
    (t.commit c).listed group entry g = (lists g).getD (t.listed group entry g) := by
  have hsplit : ∀ i v w, t.own c i = some (v, w) → (t.commit c).committed i = w := by
    intro i v w ho
    rw [committed_commit, ho]
    rfl
  have hkeep : ∀ i, t.own c i = none → (t.commit c).committed i = t.committed i := by
    intro i ho
    rw [committed_commit, ho]
    rfl
  rcases hl : lists g with - | l
  · refine congrArg (List.map entry) (filter_filterMap_range fun i => ?_)
    rcases ho : t.own c i with - | ⟨v, w⟩
    · rw [hkeep i ho]
    · have hold : (t.committed i).filter (fun r => group r = g) = none := by
        rw [own_committed ho]
        rcases v with - | r
        · rfl
        · have hs := (h.deleted i r w ho).1
          have hne : group r ≠ g := by
            rintro rfl
            rw [hl] at hs
            cases hs
          simp [Option.filter, hne]
      rw [hold, hsplit i v w ho]
      rcases w with - | r
      · rfl
      · have hs := h.inserted i r v ho
        have hne : group r ≠ g := by
          rintro rfl
          rw [hl] at hs
          cases hs
        simp [Option.filter, hne]
  · rw [Option.getD_some, ← h.filled g l hl]
    refine congrArg (List.map entry) (filter_filterMap_range fun i => ?_)
    rcases ho : t.own c i with - | ⟨v, w⟩
    · rw [hkeep i ho]
      have hpending : t.pendingAt c i = none := by simp [pendingAt, ho]
      rw [hpending]
      rcases hc : t.committed i with - | r
      · rfl
      · have hne : group r ≠ g := by
          rintro rfl
          exact h.cleared i r hc (by rw [hl]; rfl) ho
        simp [Option.filter, hne]
    · rw [hsplit i v w ho]
      rcases v with - | r
      · simp [pendingAt, ho]
      · obtain ⟨-, rfl⟩ := h.deleted i r w ho
        simp [pendingAt, ho]

omit [DecidableEq ι] in
theorem listed_congr (h : ∀ i, t'.committed i = t.committed i) : t'.listed group entry g = t.listed group entry g := by
  unfold listed
  rw [committedRows_congr h]

end Table
end RowStore
