import Kayan.Lib.Paging

/-!
# Paging with a cursor

A query returns the first rows in the order of a key, and the next one those that follow a cursor made
of the last row. The cursor may know less than the key: what it knows is a coarser key, and all rows
with the coarse key of the last row are passed over.
-/
namespace Paging
variable {α β B K C : Type} [LinearOrder K] [LinearOrder C]

/-- What a cursor of type `B` knows of the rows. -/
structure Cursor (α B C : Type) [LinearOrder C] where
  /-- The cursor made of a row. -/
  next : α → B
  /-- The rows that follow a cursor. -/
  follows : B → α → Bool
  coarse : α → C
  follows_next : ∀ last x, follows (next last) x = true ↔ coarse last < coarse x

variable (cur : Cursor α B C) (key : α → K) (xs : List α) (L : ℕ)

/-- The rows of a query with a cursor. -/
def following (before : Option B) : List α := xs.filter fun x => before.all fun b => cur.follows b x

/-- The orders in which the queries find their rows. -/
abbrev Scans : Type := ℕ → (before : Option B) → Scan (following cur xs before)

variable {xs}

def cursorPage (scans : Scans cur xs) (k : ℕ) (before : Option B) : List α := ((scans k before).orderBy key).take L

/-- The cursor of query `k`. -/
def cursorAt (scans : Scans cur xs) : ℕ → Option B
  | 0 => none
  | k + 1 => (cursorPage cur key L scans k (cursorAt scans k)).getLast?.map cur.next

/-- The rows of query `k`. -/
def cursorPages (scans : Scans cur xs) (k : ℕ) : List α := cursorPage cur key L scans k (cursorAt cur key L scans k)

variable {cur key L} {scans : Scans cur xs} {k m : ℕ} {x last : α}

theorem mem_following {before : Option B} : x ∈ following cur xs before ↔ x ∈ xs ∧ ∀ b ∈ before, cur.follows b x = true := by
  simp [following, Option.all_eq_true]

theorem cursorAt_succ (h : (cursorPages cur key L scans k).getLast? = some last) :
    cursorAt cur key L scans (k + 1) = some (cur.next last) := by
  rw [cursorAt]
  exact congrArg (Option.map cur.next) h

theorem exists_last {ys : List α} (h : ys ≠ []) : ∃ last, ys.getLast? = some last :=
  ⟨ys.getLast h, List.getLast?_eq_some_getLast h⟩

/-- Along a walk, each page has later rows than the pages before it. -/
theorem lt_later {i : ℕ} (hnext : ∀ j < i, cursorPages cur key L scans j ≠ [])
    (hlast : (cursorPages cur key L scans k).getLast? = some last) (hki : k < i)
    (hx : x ∈ cursorPages cur key L scans i) : cur.coarse last < cur.coarse x := by
  induction i generalizing x with
  | zero => omega
  | succ i ih =>
    obtain ⟨prev, hprev⟩ := exists_last (hnext i (Nat.lt_succ_self i))
    have hfollow : cur.coarse prev < cur.coarse x := by
      have hmem := (mem_following.mp (((scans (i + 1) _).orderBy_perm key).mem_iff.mp (List.mem_of_mem_take hx))).2
      rw [cursorAt_succ hprev] at hmem
      exact (cur.follows_next prev x).mp (hmem _ rfl)
    obtain rfl | hlt := Nat.eq_or_lt_of_le (Nat.le_of_lt_succ hki)
    · rw [hlast] at hprev
      exact Option.some_inj.mp hprev ▸ hfollow
    · exact lt_trans (ih (fun j hj => hnext j (Nat.lt_succ_of_lt hj)) hlt (List.mem_of_getLast? hprev)) hfollow

section Page
variable (hmono : ∀ a b, key a ≤ key b → cur.coarse a ≤ cur.coarse b)
include hmono

theorem orderBy_coarse {ys : List α} (scan : Scan ys) :
    (scan.orderBy key).Pairwise fun a b => cur.coarse a ≤ cur.coarse b :=
  (scan.orderBy_sorted key).imp fun h => hmono _ _ h

/-- The last row of a page is its greatest. -/
theorem le_last (hlast : (cursorPages cur key L scans k).getLast? = some last) (hx : x ∈ cursorPages cur key L scans k) :
    cur.coarse x ≤ cur.coarse last := by
  have hsorted : (cursorPages cur key L scans k).Pairwise fun a b => cur.coarse a ≤ cur.coarse b :=
    (orderBy_coarse hmono _).sublist (List.take_sublist _ _)
  obtain ⟨front, hfront⟩ := List.getLast?_eq_some_iff.mp hlast
  rw [hfront] at hsorted hx
  rcases List.mem_append.mp hx with h | h
  · exact (List.pairwise_append.mp hsorted).2.2 x h last (List.mem_singleton_self _)
  · exact (List.mem_singleton.mp h) ▸ le_rfl

/-- A query that has to find the rows after position `k * L` returns the rows of page `k`. -/
theorem page_of_following {ys : List α} (hys : ys.Perm xs) (hs : ys.Pairwise fun a b => cur.coarse a ≤ cur.coarse b)
    (h : Unsplit cur.coarse L xs) (hrest : (following cur xs (cursorAt cur key L scans k)).Perm (ys.drop (k * L))) :
    (cursorPages cur key L scans k).Perm (page L k ys) := by
  let zs := (scans k (cursorAt cur key L scans k)).orderBy key
  have hzs : zs.Perm (ys.drop (k * L)) := ((scans k _).orderBy_perm key).trans hrest
  change (zs.take L).Perm (page L k ys)
  rcases Nat.lt_or_ge ys.length (k * L) with hshort | hlong
  · have hnil : ys.drop (k * L) = [] := List.drop_eq_nil_of_le hshort.le
    rw [page, hnil]
    rw [hnil] at hzs
    rw [List.perm_nil.mp hzs]
  · obtain ⟨htake, -, hcross⟩ := pairwise_split hs (k * L)
    have hall : (ys.take (k * L) ++ zs).Perm ys := by
      have := hzs.append_left (ys.take (k * L))
      rwa [List.take_append_drop] at this
    have hsorted : (ys.take (k * L) ++ zs).Pairwise fun a b => cur.coarse a ≤ cur.coarse b :=
      List.pairwise_append.mpr
        ⟨htake, orderBy_coarse hmono _, fun a ha b hb => hcross a ha b (hzs.mem_iff.mp hb)⟩
    have hboth := take_perm hall hsorted hs ((h (k + 1)).perm (hall.trans hys).symm)
    have hlen : (ys.take (k * L)).length = k * L := List.length_take_of_le hlong
    have hfront : (ys.take (k * L) ++ zs).take ((k + 1) * L) = ys.take (k * L) ++ zs.take L := by
      rw [Nat.succ_mul, List.take_append, hlen, Nat.add_sub_cancel_left, List.take_of_length_le (by omega)]
    rw [hfront, take_succ] at hboth
    exact (List.perm_append_left_iff _).mp hboth

/-- What follows the last row of page `k` is what comes after position `(k + 1) * L`. -/
theorem following_last {ys : List α} (hys : ys.Perm xs) (hs : ys.Pairwise fun a b => cur.coarse a ≤ cur.coarse b)
    (h : Unsplit cur.coarse L xs) (hpage : (cursorPages cur key L scans k).Perm (page L k ys))
    (hlast : (cursorPages cur key L scans k).getLast? = some last) :
    (following cur xs (some (cur.next last))).Perm (ys.drop ((k + 1) * L)) := by
  have hbetween := (h (k + 1)).perm hys.symm
  have hmem : last ∈ page L k ys := hpage.mem_iff.mp (List.mem_of_getLast? hlast)
  have hlastTake : last ∈ ys.take ((k + 1) * L) := by
    rw [take_succ]
    exact List.mem_append_right _ hmem
  have hbefore : ∀ x ∈ ys.take ((k + 1) * L), cur.coarse x ≤ cur.coarse last := by
    intro x hx
    rw [take_succ] at hx
    rcases List.mem_append.mp hx with hold | hnew
    · exact (pairwise_split hs (k * L)).2.2 x hold last (List.mem_of_mem_take hmem)
    · exact le_last hmono hlast (hpage.mem_iff.mpr hnew)
  rw [drop_eq_filter hs hbetween]
  refine (hys.symm.filter _).trans (.of_eq (List.filter_congr fun x hx => ?_))
  rw [Bool.eq_iff_iff, Option.all_some, cur.follows_next, decide_eq_true_eq]
  constructor
  · intro hlt
    by_contra hle
    have hx' : x ∈ ys.take ((k + 1) * L) := by
      rw [take_eq_filter hs hbetween]
      simpa [hx] using hle
    exact absurd hlt (not_lt.mpr (hbefore x hx'))
  · intro hlt
    by_contra hle
    have hupto := mem_take_upto hs hbetween hlastTake
    have hmore : upto cur.coarse ys _ ≤ upto cur.coarse ys _ := upto_mono (not_lt.mp hle)
    omega

theorem pages_of_unsplit {ys : List α} (hys : ys.Perm xs) (hs : ys.Pairwise fun a b => cur.coarse a ≤ cur.coarse b)
    (h : Unsplit cur.coarse L xs) (k : ℕ) (hprev : ∀ j < k, page L j ys ≠ []) :
    (cursorPages cur key L scans k).Perm (page L k ys) := by
  refine page_of_following hmono hys hs h ?_
  induction k with
  | zero =>
    have hstart : following cur xs (cursorAt cur key L scans 0) = xs := List.filter_eq_self.mpr fun _ _ => rfl
    rw [hstart, Nat.zero_mul, List.drop_zero]
    exact hys.symm
  | succ k ih =>
    have hpage := page_of_following hmono hys hs h (ih fun j hj => hprev j (Nat.lt_succ_of_lt hj))
    obtain ⟨last, hlast⟩ := exists_last fun hnil =>
      hprev k (Nat.lt_succ_self k) (List.nil_perm.mp (hnil ▸ hpage))
    rw [cursorAt_succ hlast]
    exact following_last hmono hys hs h hpage hlast

theorem complete_of_unsplit_cursor (f : α → β) (hL : 0 < L) (h : Unsplit cur.coarse L xs) (scans : Scans cur xs) :
    Complete (fun k => (cursorPages cur key L scans k).map f) (xs.map f) := by
  let start : Scan xs := ⟨xs, .refl xs⟩
  have hys := start.orderBy_perm key
  have hpages (k : ℕ) (hprev : ∀ j < k, page L j (start.orderBy key) ≠ []) :
      (cursorPages cur key L scans k).Perm (page L k (start.orderBy key)) :=
    pages_of_unsplit hmono hys (orderBy_coarse hmono start) h k hprev
  obtain ⟨out, hwalk, hout⟩ := (walk_page hL (start.orderBy key)).perm hpages
  exact ⟨out.map f, hwalk.map f, (hout.trans hys).map f⟩

/-- A page that is not the last one is full. -/
theorem length_page (hnext : ∀ j ≤ k, cursorPages cur key L scans j ≠ [])
    (hlater : cursorPages cur key L scans (k + 1) ≠ []) : (cursorPages cur key L scans k).length = L := by
  obtain ⟨last, hlast⟩ := exists_last (hnext k le_rfl)
  obtain ⟨x, hx⟩ := List.exists_mem_of_ne_nil _ hlater
  have hlt := lt_later (fun j hj => hnext j (Nat.le_of_lt_succ hj)) hlast (Nat.lt_succ_self k) hx
  by_contra hshort
  have hlen : ((scans k (cursorAt cur key L scans k)).orderBy key).length ≤ L := by
    have hle : (cursorPages cur key L scans k).length = min L _ := List.length_take
    omega
  have hwhole : cursorPages cur key L scans k = (scans k (cursorAt cur key L scans k)).orderBy key :=
    List.take_of_length_le hlen
  -- `x` was there for page `k` as well
  have hx' : x ∈ cursorPages cur key L scans k := by
    rw [hwhole, ((scans k _).orderBy_perm key).mem_iff, mem_following]
    have hmem := mem_following.mp (((scans (k + 1) _).orderBy_perm key).mem_iff.mp (List.mem_of_mem_take hx))
    refine ⟨hmem.1, fun b hb => ?_⟩
    cases k with
    | zero => cases hb
    | succ k =>
      obtain ⟨prev, hprev⟩ := exists_last (hnext k (Nat.le_succ k))
      rw [cursorAt_succ hprev] at hb
      cases hb
      rw [cur.follows_next]
      exact lt_trans (lt_later (fun j hj => hnext j (Nat.le_of_lt_succ (Nat.lt_succ_of_lt hj))) hprev
        (Nat.lt_succ_self k) (List.mem_of_getLast? hlast)) hlt
  exact absurd hlt (not_lt.mpr (le_last hmono hlast hx'))

/-- The rows of the first pages of a walk do not come after the last of them. -/
theorem le_of_mem_pages (hnext : ∀ j ≤ k, cursorPages cur key L scans j ≠ [])
    (hlast : (cursorPages cur key L scans k).getLast? = some last)
    (hx : x ∈ (List.range (k + 1)).flatMap (cursorPages cur key L scans)) : cur.coarse x ≤ cur.coarse last := by
  obtain ⟨j, hj, hmem⟩ := List.mem_flatMap.mp hx
  obtain rfl | hlt := Nat.eq_or_lt_of_le (Nat.le_of_lt_succ (List.mem_range.mp hj))
  · exact le_last hmono hlast hmem
  · obtain ⟨prev, hprev⟩ := exists_last (hnext j hlt.le)
    exact (le_last hmono hprev hmem).trans
      (lt_later (fun i hi => hnext i hi.le) hprev hlt (List.mem_of_getLast? hlast)).le

theorem length_pages {n : ℕ} (hnext : ∀ j ≤ n, cursorPages cur key L scans j ≠ []) :
    ((List.range n).flatMap (cursorPages cur key L scans)).length = n * L := by
  induction n with
  | zero => simp
  | succ n ih =>
    rw [List.range_succ, List.flatMap_append, List.length_append, ih fun j hj => hnext j (by omega),
      List.flatMap_singleton, length_page hmono (fun j hj => hnext j (by omega)) (hnext (n + 1) le_rfl), Nat.succ_mul]

omit hmono in
theorem length_pages_le (n : ℕ) : ((List.range n).flatMap (cursorPages cur key L scans)).length ≤ n * L := by
  induction n with
  | zero => simp
  | succ n ih =>
    have hpage : (cursorPages cur key L scans n).length ≤ L := List.length_take_le _ _
    rw [List.range_succ, List.flatMap_append, List.length_append, List.flatMap_singleton, Nat.succ_mul]
    omega

/-- Where the pages hold every row, none of them ends within a group. -/
theorem unsplit_of_pages {n : ℕ} (hnext : ∀ j < n, cursorPages cur key L scans j ≠ [])
    (hout : ((List.range n).flatMap (cursorPages cur key L scans)).Perm xs) : Unsplit cur.coarse L xs := by
  intro k
  refine Between.perm hout fun x _ => ?_
  rcases Nat.lt_or_ge k n with hkn | hkn
  · cases k with
    | zero => exact .inl (by omega)
    | succ k =>
      obtain ⟨last, hlast⟩ := exists_last (hnext k (by omega))
      have hlen := length_pages (n := k + 1) hmono fun j hj => hnext j (by omega)
      have hfront (y : α) (hy : y ∈ (List.range (k + 1)).flatMap (cursorPages cur key L scans)) :
          cur.coarse y ≤ cur.coarse last :=
        le_of_mem_pages hmono (fun j hj => hnext j (by omega)) hlast hy
      have hback (y : α) (hy : y ∈ (List.range (n - (k + 1))).flatMap fun j => cursorPages cur key L scans (k + 1 + j)) :
          cur.coarse last < cur.coarse y := by
        obtain ⟨j, hj, hmem⟩ := List.mem_flatMap.mp hy
        have := List.mem_range.mp hj
        exact lt_later (fun i hi => hnext i (by omega)) hlast (by omega) hmem
      rw [← Nat.add_sub_cancel' hkn.le, List.range_add, List.flatMap_append, List.flatMap_map, below, upto,
        List.countP_append, List.countP_append]
      rcases le_or_gt (cur.coarse x) (cur.coarse last) with hle | hlt
      · right
        have hnone : ((List.range (n - (k + 1))).flatMap fun j => cursorPages cur key L scans (k + 1 + j)).countP
            (fun y => cur.coarse y ≤ cur.coarse x) = 0 :=
          List.countP_eq_zero.mpr fun y hy => by simpa using lt_of_le_of_lt hle (hback y hy)
        rw [hnone, ← hlen]
        exact List.countP_le_length
      · left
        have hall : ((List.range (k + 1)).flatMap (cursorPages cur key L scans)).countP
            (fun y => cur.coarse y < cur.coarse x) = (k + 1) * L :=
          (List.countP_eq_length.mpr fun y hy => by simpa using lt_of_le_of_lt (hfront y hy) hlt).trans hlen
        omega
  · right
    have hlen : ((List.range n).flatMap (cursorPages cur key L scans)).length ≤ n * L := length_pages_le n
    have hcount : upto cur.coarse ((List.range n).flatMap (cursorPages cur key L scans)) x ≤ _ := List.countP_le_length
    have := Nat.mul_le_mul_right L hkn
    omega

/-- A query after the last row of the page before gives every row once exactly when no page ends
between two rows with equal coarse keys. -/
theorem cursor_complete_iff (f : α → β) (hL : 0 < L) (hx : (xs.map f).Nodup) (scans : Scans cur xs) :
    Complete (fun k => (cursorPages cur key L scans k).map f) (xs.map f) ↔ Unsplit cur.coarse L xs := by
  refine ⟨?_, fun h => complete_of_unsplit_cursor hmono f hL h scans⟩
  rintro ⟨_, ⟨n, -, hnext, rfl⟩, hout⟩
  refine unsplit_of_pages hmono (fun j hj hnil => hnext j hj (congrArg (List.map f) hnil)) ?_
  rw [← List.map_flatMap] at hout
  have hsub (x : α) (hmem : x ∈ (List.range n).flatMap (cursorPages cur key L scans)) : x ∈ xs := by
    obtain ⟨j, -, hj⟩ := List.mem_flatMap.mp hmem
    exact (mem_following.mp (((scans j _).orderBy_perm key).mem_iff.mp (List.mem_of_mem_take hj))).1
  refine (List.perm_ext_iff_of_nodup (List.Nodup.of_map f (hout.nodup_iff.mpr hx)) (List.Nodup.of_map f hx)).mpr fun x => ?_
  refine ⟨hsub x, fun hmem => ?_⟩
  obtain ⟨y, hy, hfy⟩ := List.mem_map.mp (hout.mem_iff.mpr (List.mem_map_of_mem (f := f) hmem))
  exact List.inj_on_of_nodup_map hx (hsub y hy) hmem hfy ▸ hy

end Page

end Paging
