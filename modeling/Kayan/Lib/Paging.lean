import Mathlib.Data.List.Sort
import Mathlib.Data.List.Flatten
import Mathlib.Data.List.Perm.Basic
import Mathlib.Data.Nat.Find

/-!
# Paging

A query with an `ORDER BY` and an offset returns a slice of the rows, sorted by a key. Rows with equal
keys may come in any order, and in another order at each query. The pages together hold every row
once, whatever these orders are, exactly when no page ends between two rows with equal keys.
-/
namespace Paging
variable {α β K : Type}

/-- Page `k` of a list, in pages of `L` rows. -/
def page (L k : ℕ) (xs : List α) : List α := (xs.drop (k * L)).take L

/-- The pages up to the first empty one, one after the other. -/
def Walk (pages : ℕ → List α) (out : List α) : Prop :=
  ∃ n, pages n = [] ∧ (∀ k < n, pages k ≠ []) ∧ out = (List.range n).flatMap pages

section Sorting
variable {r : α → α → Prop} [DecidableRel r] {p : α → Bool} {xs : List α} {a : α}

theorem filter_orderedInsert (ht : ∀ a b c, r a b → r b c → r a c) (hs : xs.Pairwise r) :
    (xs.orderedInsert r a).filter p = if p a then (xs.filter p).orderedInsert r a else xs.filter p := by
  induction xs with
  | nil => cases hp : p a <;> simp [hp]
  | cons b xs ih =>
    obtain ⟨hb, hxs⟩ := List.pairwise_cons.mp hs
    by_cases hab : r a b
    · rw [List.orderedInsert_cons_of_le r xs hab]
      cases hp : p a with
      | false => simp [List.filter_cons, hp]
      | true =>
        rw [List.filter_cons, if_pos hp, if_pos rfl]
        have hfirst : ∀ c ∈ (b :: xs).filter p, r a c := by
          intro c hc
          rcases List.mem_cons.mp (List.mem_filter.mp hc).1 with rfl | hc
          · exact hab
          · exact ht a b c hab (hb c hc)
        rcases hrest : (b :: xs).filter p with - | ⟨c, cs⟩
        · rfl
        · rw [List.orderedInsert_cons_of_le r cs (hfirst c (hrest ▸ List.mem_cons_self))]
    · rw [List.orderedInsert_of_not_le r xs hab, List.filter_cons, List.filter_cons, ih hxs]
      cases hp : p a <;> cases hq : p b <;> simp [hab]

/-- The chosen rows of a sorted list are the chosen rows, sorted. -/
theorem filter_insertionSort (htotal : ∀ a b, r a b ∨ r b a) (ht : ∀ a b c, r a b → r b c → r a c) :
    (xs.insertionSort r).filter p = (xs.filter p).insertionSort r := by
  induction xs with
  | nil => rfl
  | cons a xs ih =>
    have hsorted : (xs.insertionSort r).Pairwise r :=
      haveI : Std.Total r := ⟨htotal⟩
      haveI : IsTrans α r := ⟨ht⟩
      List.pairwise_insertionSort r xs
    rw [List.insertionSort_cons, filter_orderedInsert ht hsorted, ih, List.filter_cons]
    cases hp : p a <;> simp

end Sorting

section Pages
variable {L k n : ℕ} {xs ys : List α}

theorem page_eq_nil_iff (hL : 0 < L) : page L k xs = [] ↔ xs.length ≤ k * L := by
  unfold page
  rw [List.take_eq_nil_iff, List.drop_eq_nil_iff]
  omega

theorem mem_page {as bs : List α} {a : α} (hlo : k * L ≤ as.length) (hhi : as.length < k * L + L) :
    a ∈ page L k (as ++ a :: bs) := by
  rw [page, List.mem_iff_getElem?]
  refine ⟨as.length - k * L, ?_⟩
  rw [List.getElem?_take, if_pos (by omega), List.getElem?_drop, Nat.add_sub_cancel' hlo,
    List.getElem?_append_right le_rfl, Nat.sub_self]
  rfl

theorem take_succ (L k : ℕ) (xs : List α) : xs.take ((k + 1) * L) = xs.take (k * L) ++ page L k xs := by
  rw [Nat.succ_mul, List.take_add]
  rfl

theorem flatMap_page (L n : ℕ) (xs : List α) : (List.range n).flatMap (fun k => page L k xs) = xs.take (n * L) := by
  induction n with
  | zero => simp
  | succ n ih => rw [List.range_succ, List.flatMap_append, ih, take_succ]; simp

theorem Walk.unique {pages : ℕ → List α} {out out' : List α} (h : Walk pages out) (h' : Walk pages out') : out = out' := by
  obtain ⟨n, hn, hlt, rfl⟩ := h
  obtain ⟨n', hn', hlt', rfl⟩ := h'
  obtain hcmp | rfl | hcmp := lt_trichotomy n n'
  · exact absurd hn (hlt' n hcmp)
  · rfl
  · exact absurd hn' (hlt n' hcmp)

/-- The pages of one list give the list back. -/
theorem walk_page (hL : 0 < L) (xs : List α) : Walk (fun k => page L k xs) xs := by
  have hend : ∃ n, page L n xs = [] := ⟨xs.length, (page_eq_nil_iff hL).mpr (Nat.le_mul_of_pos_right _ hL)⟩
  classical
  refine ⟨Nat.find hend, Nat.find_spec hend, fun k hk => Nat.find_min hend hk, ?_⟩
  rw [flatMap_page]
  exact (List.take_of_length_le ((page_eq_nil_iff hL).mp (Nat.find_spec hend))).symm

/-- Every row is on a page. -/
theorem exists_page (hL : 0 < L) {a : α} (ha : a ∈ xs) : ∃ k, a ∈ page L k xs := by
  obtain ⟨n, -, -, hout⟩ := walk_page hL xs
  rw [hout] at ha
  obtain ⟨k, -, hk⟩ := List.mem_flatMap.mp ha
  exact ⟨k, hk⟩

theorem Walk.map {pages : ℕ → List α} {out : List α} (f : α → β) (h : Walk pages out) :
    Walk (fun k => (pages k).map f) (out.map f) := by
  obtain ⟨n, hn, hlt, rfl⟩ := h
  refine ⟨n, congrArg (List.map f) hn, fun k hk hnil => hlt k hk (List.map_eq_nil_iff.mp hnil), ?_⟩
  rw [List.map_flatMap]

/-- Pages with the same rows in another order are walked alike. Only the pages up to the first empty
one matter. -/
theorem Walk.perm {pages pages' : ℕ → List α} {out : List α} (h : Walk pages out)
    (hp : ∀ k, (∀ j < k, pages j ≠ []) → (pages' k).Perm (pages k)) : ∃ out', Walk pages' out' ∧ out'.Perm out := by
  obtain ⟨n, hn, hlt, rfl⟩ := h
  have hwalked {k : ℕ} (hk : k ≤ n) : (pages' k).Perm (pages k) := hp k fun j hj => hlt j (lt_of_lt_of_le hj hk)
  refine ⟨(List.range n).flatMap pages', ⟨n, ?_, fun k hk hnil => hlt k hk ?_, rfl⟩, ?_⟩
  · exact List.perm_nil.mp (hn ▸ hwalked le_rfl)
  · exact List.nil_perm.mp (hnil ▸ hwalked hk.le)
  · exact List.Perm.flatMap_left _ fun k hk => hwalked (List.mem_range.mp hk).le

/-- Two pages of a walk that read no row twice have no row in common. -/
theorem Walk.disjoint {pages : ℕ → List α} {out : List α} {i j : ℕ} {a : α} (h : Walk pages out) (hout : out.Nodup)
    (hnext : ∀ k ≤ j, pages k ≠ []) (hij : i < j) (hi : a ∈ pages i) : a ∉ pages j := by
  obtain ⟨n, hn, -, rfl⟩ := h
  have hjn : j < n := by
    by_contra hle
    exact hnext n (by omega) hn
  intro hj
  have hpair := (List.nodup_flatMap.mp hout).2
  have hrange : (List.range n).Pairwise (· < ·) := List.pairwise_lt_range
  rw [List.pairwise_iff_getElem] at hpair
  have hdis := hpair i j (by simpa using lt_trans hij hjn) (by simpa using hjn) hij
  simp only [List.getElem_range] at hdis
  exact hdis hi hj

end Pages

section Groups
variable [LinearOrder K] (key : α → K)

/-- The number of rows with a smaller key. -/
def below (xs : List α) (x : α) : ℕ := xs.countP fun y => key y < key x

/-- The number of rows whose key is not larger. -/
def upto (xs : List α) (x : α) : ℕ := xs.countP fun y => key y ≤ key x

/-- Position `m` is not between two rows with equal keys: in sorted order, the rows with the key of `x`
are at the positions from `below` to `upto`. -/
def Between (xs : List α) (m : ℕ) : Prop := ∀ x ∈ xs, m ≤ below key xs x ∨ upto key xs x ≤ m

/-- No page ends between two rows with equal keys. -/
def Unsplit (L : ℕ) (xs : List α) : Prop := ∀ k, Between key xs (k * L)

variable {key} {L k m : ℕ} {xs ys zs : List α}

theorem below_perm (h : xs.Perm ys) (x : α) : below key xs x = below key ys x := h.countP_eq _

theorem upto_perm (h : xs.Perm ys) (x : α) : upto key xs x = upto key ys x := h.countP_eq _

theorem upto_mono {x y : α} (h : key x ≤ key y) : upto key xs x ≤ upto key xs y :=
  List.countP_mono_left fun z _ hz => by simpa using le_trans (by simpa using hz) h

theorem Between.perm (h : xs.Perm ys) (hx : Between key xs m) : Between key ys m := by
  intro x hmem
  rw [← below_perm h, ← upto_perm h]
  exact hx x (h.mem_iff.mpr hmem)

theorem countP_split (p : α → Bool) (m : ℕ) (ys : List α) : (ys.take m).countP p + (ys.drop m).countP p = ys.countP p := by
  rw [← List.countP_append, List.take_append_drop]

theorem pairwise_split {r : α → α → Prop} (h : ys.Pairwise r) (m : ℕ) :
    (ys.take m).Pairwise r ∧ (ys.drop m).Pairwise r ∧ ∀ a ∈ ys.take m, ∀ b ∈ ys.drop m, r a b := by
  rw [← List.pairwise_append, List.take_append_drop]
  exact h

/-- In sorted order, the rows before `m` are those whose group ends there or earlier. -/
theorem mem_take_upto (hs : ys.Pairwise fun a b => key a ≤ key b) (hm : Between key ys m) {x : α} (hx : x ∈ ys.take m) :
    upto key ys x ≤ m := by
  have hcross := (pairwise_split hs m).2.2
  have hnone : (ys.drop m).countP (fun y => key y < key x) = 0 := by
    rw [List.countP_eq_zero]
    intro y hy
    simpa using hcross x hx y hy
  have hless : (ys.take m).countP (fun y => key y < key x) < (ys.take m).length :=
    lt_of_le_of_ne List.countP_le_length fun hall => by simpa using List.countP_eq_length.mp hall x hx
  have hlen : (ys.take m).length ≤ m := List.length_take_le m ys
  have hbelow : below key ys x < m := by
    unfold below
    rw [← countP_split _ m]
    omega
  rcases hm x (List.mem_of_mem_take hx) with h | h
  · omega
  · exact h

theorem mem_drop_upto (hs : ys.Pairwise fun a b => key a ≤ key b) {x : α} (hx : x ∈ ys.drop m) : m < upto key ys x := by
  have hcross := (pairwise_split hs m).2.2
  have hall : (ys.take m).countP (fun y => key y ≤ key x) = (ys.take m).length :=
    List.countP_eq_length.mpr fun y hy => by simpa using hcross y hy x hx
  have hsome : 0 < (ys.drop m).countP (fun y => key y ≤ key x) := List.countP_pos_iff.mpr ⟨x, hx, by simp⟩
  have hlen : (ys.take m).length = m := by
    have hpos := List.length_pos_of_mem hx
    rw [List.length_drop] at hpos
    rw [List.length_take]
    omega
  unfold upto
  rw [← countP_split _ m]
  omega

theorem take_eq_filter (hs : ys.Pairwise fun a b => key a ≤ key b) (hm : Between key ys m) :
    ys.take m = ys.filter fun x => upto key ys x ≤ m := by
  calc ys.take m
      = (ys.take m).filter (fun x => upto key ys x ≤ m) ++ (ys.drop m).filter (fun x => upto key ys x ≤ m) := by
        rw [List.filter_eq_self.mpr fun x hx => by simpa using mem_take_upto hs hm hx,
          List.filter_eq_nil_iff.mpr fun x hx => by simpa using mem_drop_upto hs hx, List.append_nil]
    _ = ys.filter fun x => upto key ys x ≤ m := by rw [← List.filter_append, List.take_append_drop]

theorem drop_eq_filter (hs : ys.Pairwise fun a b => key a ≤ key b) (hm : Between key ys m) :
    ys.drop m = ys.filter fun x => m < upto key ys x := by
  calc ys.drop m
      = (ys.take m).filter (fun x => m < upto key ys x) ++ (ys.drop m).filter (fun x => m < upto key ys x) := by
        rw [List.filter_eq_nil_iff.mpr fun x hx => by simpa using mem_take_upto hs hm hx,
          List.filter_eq_self.mpr fun x hx => by simpa using mem_drop_upto hs hx, List.nil_append]
    _ = ys.filter fun x => m < upto key ys x := by rw [← List.filter_append, List.take_append_drop]

/-- Two sorted orders of the same rows start with the same rows. -/
theorem take_perm (hp : ys.Perm zs) (hy : ys.Pairwise fun a b => key a ≤ key b)
    (hz : zs.Pairwise fun a b => key a ≤ key b) (hm : Between key ys m) : (ys.take m).Perm (zs.take m) := by
  rw [take_eq_filter hy hm, take_eq_filter hz (hm.perm hp)]
  have hsame : (fun x => decide (upto key ys x ≤ m)) = fun x => decide (upto key zs x ≤ m) := by
    funext x
    rw [upto_perm hp]
  rw [hsame]
  exact hp.filter _

theorem page_perm (hp : ys.Perm zs) (hy : ys.Pairwise fun a b => key a ≤ key b)
    (hz : zs.Pairwise fun a b => key a ≤ key b) (h : Unsplit key L ys) (k : ℕ) :
    (page L k ys).Perm (page L k zs) := by
  have hupto := take_perm hp hy hz (h (k + 1))
  rw [take_succ, take_succ] at hupto
  have hbefore := (take_perm hp hy hz (h k)).append_right (page L k zs)
  exact (List.perm_append_left_iff _).mp (hupto.trans hbefore.symm)

/-- Where a group goes on across `m`, the rows on both sides of `m` have equal keys. -/
theorem exists_tie (hs : ys.Pairwise fun a b => key a ≤ key b) {x : α} (hlo : below key ys x < m)
    (hhi : m < upto key ys x) : ∃ as a b bs, ys = as ++ a :: b :: bs ∧ as.length + 1 = m ∧ key a = key b := by
  have hlen : m < ys.length := lt_of_lt_of_le hhi List.countP_le_length
  have hsplit : (ys.take (m - 1) ++ ys[m - 1] :: ys[m] :: ys.drop (m + 1)) = ys := by
    have hlast : ys.drop m = ys[m] :: ys.drop (m + 1) := List.drop_eq_getElem_cons hlen
    have hstep : ys.drop (m - 1) = ys[m - 1] :: ys.drop (m - 1 + 1) := List.drop_eq_getElem_cons (by omega)
    rw [← hlast]
    have hm : m - 1 + 1 = m := by omega
    rw [hm] at hstep
    rw [← hstep, List.take_append_drop]
  have hmono {i j : ℕ} (hi : i ≤ j) (hj : j < ys.length) : key ys[i] ≤ key ys[j] := by
    rcases Nat.lt_or_eq_of_le hi with h | rfl
    · exact List.pairwise_iff_getElem.mp hs i j (by omega) hj h
    · exact le_refl _
  refine ⟨_, _, _, _, hsplit.symm, by rw [List.length_take]; omega, le_antisymm (hmono (by omega) hlen) ?_⟩
  have hfirst : key x ≤ key ys[m - 1] := by
    by_contra hlt
    have hall : (ys.take m).countP (fun y => key y < key x) = (ys.take m).length := by
      rw [List.countP_eq_length]
      intro y hy
      obtain ⟨i, hi, rfl⟩ := List.getElem_of_mem hy
      rw [List.length_take] at hi
      rw [List.getElem_take]
      simpa using lt_of_le_of_lt (hmono (by omega) (by omega)) (not_le.mp hlt)
    have hsub : (ys.take m).countP (fun y => key y < key x) ≤ below key ys x :=
      (List.take_sublist m ys).countP_le
    rw [List.length_take] at hall
    omega
  have hsecond : key ys[m] ≤ key x := by
    by_contra hlt
    have hnone : (ys.drop m).countP (fun y => key y ≤ key x) = 0 := by
      rw [List.countP_eq_zero]
      intro y hy
      obtain ⟨i, hi, rfl⟩ := List.getElem_of_mem hy
      rw [List.length_drop] at hi
      rw [List.getElem_drop]
      simpa using lt_of_lt_of_le (not_le.mp hlt) (hmono (by omega) (by omega))
    have hcount : upto key ys x = (ys.take m).countP (fun y => key y ≤ key x) := by
      rw [upto, ← List.take_append_drop m ys, List.countP_append, hnone, List.take_append_drop, Nat.add_zero]
    have hle : (ys.take m).countP (fun y => key y ≤ key x) ≤ (ys.take m).length := List.countP_le_length
    rw [List.length_take] at hle
    omega
  exact le_trans hsecond hfirst

/-- Two neighbours with equal keys change places. -/
theorem swap_sorted {as bs : List α} {a b : α} (hkey : key a = key b)
    (h : (as ++ a :: b :: bs).Pairwise fun a b => key a ≤ key b) :
    (as ++ b :: a :: bs).Pairwise fun a b => key a ≤ key b := by
  have hkeys : ((as ++ b :: a :: bs).map key).Pairwise (· ≤ ·) := by
    have hsame : (as ++ b :: a :: bs).map key = (as ++ a :: b :: bs).map key := by simp [hkey]
    rw [hsame]
    exact List.pairwise_map.mpr h
  exact List.pairwise_map.mp hkeys

end Groups

section Complete
variable [LinearOrder K]

/-- The rows of a query in the order in which it finds them. -/
structure Scan (xs : List α) where
  rows : List α
  perm : rows.Perm xs

variable {xs : List α} {L : ℕ}

/-- `ORDER BY`: rows with equal keys stay in the order in which they were found. -/
def Scan.orderBy (key : α → K) (scan : Scan xs) : List α := scan.rows.insertionSort fun a b => key a ≤ key b

theorem Scan.orderBy_perm (key : α → K) (scan : Scan xs) : (scan.orderBy key).Perm xs :=
  (List.perm_insertionSort _ _).trans scan.perm

theorem Scan.orderBy_sorted (key : α → K) (scan : Scan xs) :
    (scan.orderBy key).Pairwise fun a b => key a ≤ key b := by
  have : Std.Total fun a b : α => key a ≤ key b := ⟨fun a b => le_total (key a) (key b)⟩
  have : IsTrans α fun a b => key a ≤ key b := ⟨fun _ _ _ => le_trans⟩
  exact List.pairwise_insertionSort _ _

/-- A scan that finds the rows in sorted order. -/
def Scan.ofSorted {ys : List α} (h : ys.Perm xs) : Scan xs := ⟨ys, h⟩

theorem Scan.orderBy_ofSorted {key : α → K} {ys : List α} (h : ys.Perm xs)
    (hs : ys.Pairwise fun a b => key a ≤ key b) : (Scan.ofSorted h).orderBy key = ys :=
  hs.insertionSort_eq

/-- Walking the pages reads every row once. -/
def Complete (pages : ℕ → List β) (rows : List β) : Prop := ∃ out, Walk pages out ∧ out.Perm rows

/-- A page that ends between two rows with equal keys can be read so that one of them comes again. -/
theorem unsplit_of_complete (key : α → K) (f : α → β) (hL : 0 < L) (hx : (xs.map f).Nodup)
    (h : ∀ scans : ℕ → Scan xs, Complete (fun k => (page L k ((scans k).orderBy key)).map f) (xs.map f)) :
    Unsplit key L xs := by
  intro k x hx'
  by_contra hsplit
  obtain ⟨hlo, hhi⟩ := not_or.mp hsplit
  let start : Scan xs := ⟨xs, .refl xs⟩
  have hp := start.orderBy_perm key
  have hs := start.orderBy_sorted key
  rw [not_le, ← below_perm hp] at hlo
  rw [not_le, ← upto_perm hp] at hhi
  obtain ⟨as, a, b, bs, hys, hlen, hkey⟩ := exists_tie hs hlo hhi
  rw [hys] at hp hs
  have hp' : (as ++ b :: a :: bs).Perm xs := ((List.Perm.swap a b bs).append_left as).trans hp
  -- up to page `k` the rows are found with `a` first, then with `b` first
  let scans : ℕ → Scan xs := fun j => if j < k then .ofSorted hp else .ofSorted hp'
  obtain ⟨out, hwalk, hout⟩ := h scans
  have hfirst {j : ℕ} (hj : j < k) : (scans j).orderBy key = as ++ a :: b :: bs := by
    simp only [scans, if_pos hj]
    exact Scan.orderBy_ofSorted hp hs
  have hthen : (scans k).orderBy key = as ++ b :: a :: bs := by
    simp only [scans, lt_irrefl, if_false]
    exact Scan.orderBy_ofSorted hp' (swap_sorted hkey hs)
  have hk : 0 < k := by
    rcases Nat.eq_zero_or_pos k with rfl | h0
    · omega
    · exact h0
  have hmul : (k - 1) * L + L = k * L := by
    rw [← Nat.succ_mul, Nat.succ_eq_add_one, Nat.sub_add_cancel hk]
  have hin : f a ∈ (page L (k - 1) ((scans (k - 1)).orderBy key)).map f := by
    rw [hfirst (by omega)]
    exact List.mem_map_of_mem (mem_page (by omega) (by omega))
  have hin' : f a ∈ (page L k ((scans k).orderBy key)).map f := by
    rw [hthen, List.append_cons]
    refine List.mem_map_of_mem (mem_page ?_ ?_) <;> rw [List.length_append, List.length_singleton] <;> omega
  refine hwalk.disjoint (hout.nodup_iff.mpr hx) (fun j hj hnil => ?_) (Nat.sub_lt hk one_pos) hin hin'
  have hrows : ((scans j).orderBy key).length = as.length + 2 + bs.length := by
    rw [((scans j).orderBy_perm key).length_eq, ← hp.length_eq]
    simp only [List.length_append, List.length_cons]
    omega
  have hend := (page_eq_nil_iff hL).mp (List.map_eq_nil_iff.mp hnil)
  have := Nat.mul_le_mul_right L hj
  omega

theorem complete_of_unsplit (key : α → K) (f : α → β) (hL : 0 < L) (h : Unsplit key L xs) (scans : ℕ → Scan xs) :
    Complete (fun k => (page L k ((scans k).orderBy key)).map f) (xs.map f) := by
  have hpages (k : ℕ) :
      (page L k ((scans k).orderBy key)).Perm (page L k ((scans 0).orderBy key)) :=
    page_perm (((scans k).orderBy_perm key).trans ((scans 0).orderBy_perm key).symm)
      ((scans k).orderBy_sorted key) ((scans 0).orderBy_sorted key)
      (fun j => (h j).perm ((scans k).orderBy_perm key).symm) k
  obtain ⟨out, hwalk, hout⟩ := (walk_page hL ((scans 0).orderBy key)).perm fun k _ => hpages k
  exact ⟨out.map f, hwalk.map f, (hout.trans ((scans 0).orderBy_perm key)).map f⟩

/-- The pages read every row once, whatever the orders of rows with equal keys, exactly when no page
ends between two of them. -/
theorem complete_iff (key : α → K) (f : α → β) (hL : 0 < L) (hx : (xs.map f).Nodup) :
    (∀ scans : ℕ → Scan xs, Complete (fun k => (page L k ((scans k).orderBy key)).map f) (xs.map f)) ↔
      Unsplit key L xs :=
  ⟨unsplit_of_complete key f hL hx, complete_of_unsplit key f hL⟩

end Complete

section Strict

/-- An order that compares ids at the end is strict among rows with different ids. -/
theorem sorted_strict {ids : α → Nat} {r r' : α → α → Prop} [DecidableRel r] {rows : List α}
    (hkeyed : (rows.map ids).Nodup) (htotal : ∀ a b, r a b ∨ r b a) (htrans : ∀ a b c, r a b → r b c → r a c)
    (hstrict : ∀ a b, ids a ≠ ids b → r a b → r' a b) : (rows.insertionSort r).Pairwise r' := by
  have : Std.Total r := ⟨htotal⟩
  have : IsTrans α r := ⟨htrans⟩
  have hperm := List.perm_insertionSort r rows
  have hids : ((rows.insertionSort r).map ids).Pairwise (· ≠ ·) := (hperm.map ids).nodup_iff.mpr hkeyed
  exact (List.pairwise_map.mp hids).imp₂ hstrict (List.pairwise_insertionSort r rows)

end Strict

section Ranks
variable (r r' : α → α → Bool) {xs ys zs : List α} {L o i : ℕ} {x : α}

/-- The number of rows that come before a row. -/
def rank (xs : List α) (x : α) : ℕ := xs.countP fun y => r y x

theorem rank_perm (h : xs.Perm ys) (x : α) : rank r xs x = rank r ys x := h.countP_eq _

variable {r r'} (hasymm : ∀ a b, r a b = true → r b a = false) (hasymm' : ∀ a b, r' a b = true → r' b a = false)
include hasymm

/-- In a sorted list, rows stand at their ranks. -/
theorem rank_getElem (hs : ys.Pairwise fun a b => r a b = true) (hi : i < ys.length) : rank r ys ys[i] = i := by
  have hself : r ys[i] ys[i] = false := by
    cases h : r ys[i] ys[i] with
    | false => rfl
    | true => exact h.symm.trans (hasymm _ _ h)
  have hfront : (ys.take i).countP (fun y => r y ys[i]) = (ys.take i).length := by
    rw [List.countP_eq_length]
    intro y hy
    obtain ⟨j, hj, rfl⟩ := List.getElem_of_mem hy
    rw [List.length_take] at hj
    rw [List.getElem_take]
    exact List.pairwise_iff_getElem.mp hs j i (by omega) hi (by omega)
  have hback : (ys.drop i).countP (fun y => r y ys[i]) = 0 := by
    rw [List.countP_eq_zero]
    intro y hy
    obtain ⟨j, hj, rfl⟩ := List.getElem_of_mem hy
    rw [List.length_drop] at hj
    rw [List.getElem_drop, Bool.not_eq_true]
    cases j with
    | zero => exact hself
    | succ j => exact hasymm _ _ (List.pairwise_iff_getElem.mp hs i (i + (j + 1)) hi (by omega) (by omega))
  rw [rank, ← countP_split _ i, hfront, hback, List.length_take]
  omega

theorem getElem?_iff_rank (hs : ys.Pairwise fun a b => r a b = true) (hx : x ∈ ys) : ys[i]? = some x ↔ rank r ys x = i := by
  obtain ⟨j, hj, rfl⟩ := List.getElem_of_mem hx
  rw [rank_getElem hasymm hs hj]
  constructor
  · intro h
    obtain ⟨hi, heq⟩ := List.getElem?_eq_some_iff.mp h
    rw [← rank_getElem hasymm hs hi, heq, rank_getElem hasymm hs hj]
  · rintro rfl
    exact List.getElem?_eq_getElem hj

include hasymm'

/-- Two orders put the same rows on a page exactly when each row that one of them puts there has the same
rank in both. -/
theorem slice_eq_iff (hy : ys.Perm xs) (hz : zs.Perm xs) (hsy : ys.Pairwise fun a b => r a b = true)
    (hsz : zs.Pairwise fun a b => r' a b = true) :
    (ys.drop o).take L = (zs.drop o).take L ↔
      ∀ x ∈ xs, (o ≤ rank r xs x ∧ rank r xs x < o + L) ∨ (o ≤ rank r' xs x ∧ rank r' xs x < o + L) →
        rank r xs x = rank r' xs x := by
  have hplace {x : α} (hx : x ∈ xs) (i : ℕ) : (ys[i]? = some x ↔ rank r xs x = i) ∧ (zs[i]? = some x ↔ rank r' xs x = i) := by
    rw [← rank_perm r hy, ← rank_perm r' hz]
    exact ⟨getElem?_iff_rank hasymm hsy (hy.mem_iff.mpr hx), getElem?_iff_rank hasymm' hsz (hz.mem_iff.mpr hx)⟩
  have hslice : (ys.drop o).take L = (zs.drop o).take L ↔ ∀ i, o ≤ i → i < o + L → ys[i]? = zs[i]? := by
    constructor
    · intro h i hlo hhi
      have hi := congrArg (fun l => l[i - o]?) h
      simpa [List.getElem?_take, List.getElem?_drop, show i - o < L by omega, Nat.add_sub_cancel' hlo] using hi
    · intro h
      apply List.ext_getElem?
      intro i
      simp only [List.getElem?_take, List.getElem?_drop]
      split
      · exact h (o + i) (by omega) (by omega)
      · rfl
  rw [hslice]
  constructor
  · rintro h x hx (⟨hlo, hhi⟩ | ⟨hlo, hhi⟩)
    · have := h _ hlo hhi ▸ (hplace hx _).1.mpr rfl
      exact ((hplace hx _).2.mp this).symm
    · have := (h _ hlo hhi).symm ▸ (hplace hx _).2.mpr rfl
      exact (hplace hx _).1.mp this
  · intro h i hlo hhi
    apply Option.ext
    intro x
    constructor
    · intro hi
      have hx : x ∈ xs := hy.mem_iff.mp (List.mem_of_getElem? hi)
      have hrank := (hplace hx i).1.mp hi
      exact (hplace hx i).2.mpr (h x hx (.inl (by omega)) ▸ hrank)
    · intro hi
      have hx : x ∈ xs := hz.mem_iff.mp (List.mem_of_getElem? hi)
      have hrank := (hplace hx i).2.mp hi
      exact (hplace hx i).1.mpr ((h x hx (.inr (by omega))).trans hrank)

end Ranks

end Paging
