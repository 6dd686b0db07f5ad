import Mathlib.Algebra.BigOperators.Group.Finset.Basic
import Mathlib.Algebra.Order.Group.Int
import Mathlib.Data.List.Perm.Basic
import Mathlib.Tactic.Ring

/-!
# Tables under row locks

A table with generated keys. A row has its committed version and, while a client holds
its lock, the version that client has written. A client reads its own versions and
otherwise the committed ones. Commit publishes the versions of one client, rollback
forgets them.
-/
namespace RowStore

/-- A row: the committed version, and the lock holder with its own version. -/
structure Cell (ι V : Type) where
  committed : Option V := none
  held : Option (ι × Option V) := none

/-- A table whose keys below `next` have been handed out. -/
structure Table (ι V : Type) where
  next : Nat
  cell : Nat → Cell ι V
  fresh : ∀ i, next ≤ i → cell i = {}

variable {ι V : Type} [DecidableEq ι]

namespace Cell

/-- The version that client `c` reads. -/
def view (c : ι) (x : Cell ι V) : Option V :=
  match x.held with
  | some (d, v) => if d = c then v else x.committed
  | none => x.committed

/-- The lock is free or already held by `c`. -/
def free (c : ι) (x : Cell ι V) : Bool :=
  match x.held with
  | some (d, _) => d = c
  | none => true

/-- The committed and the own version, where `c` holds the lock. -/
def own (c : ι) (x : Cell ι V) : Option (Option V × Option V) :=
  match x.held with
  | some (d, v) => if d = c then some (x.committed, v) else none
  | none => none

def commit (c : ι) (x : Cell ι V) : Cell ι V :=
  match x.held with
  | some (d, v) => if d = c then ⟨v, none⟩ else x
  | none => x

def rollback (c : ι) (x : Cell ι V) : Cell ι V :=
  match x.held with
  | some (d, _) => if d = c then ⟨x.committed, none⟩ else x
  | none => x

variable {b c : ι} {x : Cell ι V}

theorem own_eq_none_of_free (h : x.free c = true) (hb : b ≠ c) : x.own b = none := by
  unfold free at h
  unfold own
  split at h <;> simp_all [Ne.symm hb]

theorem own_commit_ne (hb : b ≠ c) : (x.commit c).own b = x.own b := by
  obtain ⟨v, h⟩ := x
  cases h with
  | none => rfl
  | some w =>
    by_cases hc : w.1 = c <;> simp [commit, own, hc, Ne.symm hb]

theorem own_rollback_ne (hb : b ≠ c) : (x.rollback c).own b = x.own b := by
  obtain ⟨v, h⟩ := x
  cases h with
  | none => rfl
  | some w =>
    by_cases hc : w.1 = c <;> simp [rollback, own, hc, Ne.symm hb]

@[simp] theorem own_commit_self : (x.commit c).own c = none := by
  obtain ⟨v, h⟩ := x
  cases h with
  | none => rfl
  | some w => by_cases hc : w.1 = c <;> simp [commit, own, hc]

@[simp] theorem own_rollback_self : (x.rollback c).own c = none := by
  obtain ⟨v, h⟩ := x
  cases h with
  | none => rfl
  | some w => by_cases hc : w.1 = c <;> simp [rollback, own, hc]

/-- Commit publishes exactly the own version, where there is one. -/
theorem committed_commit :
    (x.commit c).committed = ((x.own c).map Prod.snd).getD x.committed := by
  obtain ⟨v, h⟩ := x
  cases h with
  | none => rfl
  | some w => by_cases hc : w.1 = c <;> simp [commit, own, hc]

@[simp] theorem committed_rollback : (x.rollback c).committed = x.committed := by
  obtain ⟨v, h⟩ := x
  cases h with
  | none => rfl
  | some w => by_cases hc : w.1 = c <;> simp [rollback, hc]

theorem view_eq_own : x.view c = ((x.own c).map Prod.snd).getD x.committed := by
  obtain ⟨v, h⟩ := x
  cases h with
  | none => rfl
  | some w => by_cases hc : w.1 = c <;> simp [view, own, hc]

theorem own_committed {v w : Option V} (h : x.own c = some (v, w)) : x.committed = v := by
  unfold own at h
  split at h
  · split at h <;> simp_all
  · cases h

end Cell

namespace Table

/-- A table of committed rows, keyed by their positions. -/
def ofRows (rows : List V) : Table ι V where
  next := rows.length
  cell i := ⟨rows[i]?, none⟩
  fresh i hi := by rw [List.getElem?_eq_none hi]

def committed (t : Table ι V) (i : Nat) : Option V := (t.cell i).committed

def view (c : ι) (t : Table ι V) (i : Nat) : Option V := (t.cell i).view c

def free (c : ι) (t : Table ι V) (i : Nat) : Bool := (t.cell i).free c

def own (c : ι) (t : Table ι V) (i : Nat) : Option (Option V × Option V) := (t.cell i).own c

/-- Replaces the cell of a key that has been handed out. -/
def set (i : Nat) (x : Cell ι V) (t : Table ι V) : Table ι V where
  next := t.next
  cell j := if j = i ∧ j < t.next then x else t.cell j
  fresh j hj := by
    rw [if_neg (by omega)]
    exact t.fresh j hj

/-- Client `c` writes its own version of a row, taking the row's lock. -/
def write (c : ι) (i : Nat) (v : Option V) (t : Table ι V) : Table ι V :=
  t.set i ⟨t.committed i, some (c, v)⟩

/-- Client `c` takes a row's lock. -/
def lock (c : ι) (i : Nat) (t : Table ι V) : Table ι V := t.write c i (t.view c i)

/-- A row written and committed in one step, by a statement outside any transaction. -/
def store (i : Nat) (v : Option V) (t : Table ι V) : Table ι V := t.set i ⟨v, none⟩

/-- A new row with the next key. -/
def push (x : Cell ι V) (t : Table ι V) : Table ι V where
  next := t.next + 1
  cell j := if j = t.next then x else t.cell j
  fresh j hj := by
    rw [if_neg (by omega)]
    exact t.fresh j (by omega)

/-- Client `c` inserts a row, uncommitted. -/
def insert (c : ι) (v : V) (t : Table ι V) : Table ι V := t.push ⟨none, some (c, some v)⟩

/-- A row inserted and committed in one step. -/
def append (v : V) (t : Table ι V) : Table ι V := t.push ⟨some v, none⟩

def commit (c : ι) (t : Table ι V) : Table ι V where
  next := t.next
  cell j := (t.cell j).commit c
  fresh j hj := by rw [t.fresh j hj]; rfl

def rollback (c : ι) (t : Table ι V) : Table ι V where
  next := t.next
  cell j := (t.cell j).rollback c
  fresh j hj := by rw [t.fresh j hj]; rfl

/-- The rows that `c` sees, in key order. -/
def rows (c : ι) (t : Table ι V) : List V := (List.range t.next).filterMap (t.view c)

/-- The committed rows, in key order. -/
def committedRows (t : Table ι V) : List V := (List.range t.next).filterMap t.committed

/-- A row that `c` has inserted and not yet committed. -/
def pendingAt (c : ι) (t : Table ι V) (i : Nat) : Option V :=
  match t.own c i with
  | some (none, v) => v
  | _ => none

/-- The rows that `c` has inserted and not yet committed, in key order. -/
def pending (c : ι) (t : Table ι V) : List V := (List.range t.next).filterMap (t.pendingAt c)

/-- A committed row that `c` has deleted, not yet committed. -/
def deletedAt (c : ι) (t : Table ι V) (i : Nat) : Option V :=
  match t.own c i with
  | some (v, none) => v
  | _ => none

/-- The committed rows that `c` has deleted, not yet committed, in key order. -/
def deleted (c : ι) (t : Table ι V) : List V := (List.range t.next).filterMap (t.deletedAt c)

/-- The sum of `f` over the committed rows. -/
def total (f : Option V → Int) (t : Table ι V) : Int := ∑ i ∈ Finset.range t.next, f (t.committed i)

/-- How much the commit of `c` will change `total f`. -/
def delta (c : ι) (f : Option V → Int) (t : Table ι V) : Int :=
  ∑ i ∈ Finset.range t.next, ((t.own c i).elim 0 fun x => f x.2 - f x.1)

variable {b c : ι} {t t' : Table ι V} {i j : Nat} {x : Cell ι V} {v w : Option V} {r : V}

/-! What a write to a single row leaves alone. -/

omit [DecidableEq ι] in
@[simp] theorem committed_write : (t.write c i v).committed j = t.committed j := by
  simp only [write, set, committed]
  split
  · rename_i h
    rw [h.1]
  · rfl

@[simp] theorem committed_lock : (t.lock c i).committed j = t.committed j := committed_write

omit [DecidableEq ι] in
theorem committed_store (hi : i < t.next) :
    (t.store i v).committed j = if j = i then v else t.committed j := by
  by_cases hj : j = i
  · subst hj
    simp [store, set, committed, hi]
  · simp [store, set, committed, hj]

omit [DecidableEq ι] in
theorem committed_fresh (hi : t.next ≤ i) : t.committed i = none := by
  simp [committed, t.fresh i hi]

omit [DecidableEq ι] in
theorem lt_of_committed (h : t.committed i = some r) : i < t.next := by
  by_contra hn
  rw [committed_fresh (Nat.le_of_not_lt hn)] at h
  cases h

theorem lt_of_view (h : t.view c i = some r) : i < t.next := by
  by_contra hn
  simp [view, t.fresh i (Nat.le_of_not_lt hn), Cell.view] at h

omit [DecidableEq ι] in
@[simp] theorem committed_insert : (t.insert c r).committed j = t.committed j := by
  simp only [insert, push, committed]
  split
  · rename_i h
    rw [h, t.fresh _ (Nat.le_refl _)]
  · rfl

omit [DecidableEq ι] in
theorem committed_append :
    (t.append r).committed j = if j = t.next then some r else t.committed j := by
  simp only [append, push, committed]
  split <;> rfl

@[simp] theorem committed_rollback : (t.rollback c).committed j = t.committed j :=
  Cell.committed_rollback

theorem committed_commit :
    (t.commit c).committed j = ((t.own c j).map Prod.snd).getD (t.committed j) :=
  Cell.committed_commit

theorem view_eq_own : t.view c j = ((t.own c j).map Prod.snd).getD (t.committed j) :=
  Cell.view_eq_own

theorem own_committed (h : t.own c i = some (v, w)) : t.committed i = v := Cell.own_committed h

theorem view_of_own (h : t.own c i = some (v, w)) : t.view c i = w := by
  rw [view_eq_own, h]
  rfl

theorem view_of_not_own (h : t.own c i = none) : t.view c i = t.committed i := by
  rw [view_eq_own, h]
  rfl

/-- A row held by one client is free to no other. -/
theorem free_iff_of_own (h : t.own c i ≠ none) : t.free b i = true → b = c := by
  intro hf
  by_contra hb
  exact h (Cell.own_eq_none_of_free hf (Ne.symm hb))

theorem free_of_own (h : t.own c i ≠ none) : t.free c i = true := by
  rcases hx : t.cell i with ⟨x, _ | ⟨b, w⟩⟩
  · simp [own, Cell.own, hx] at h
  · by_cases hb : b = c
    · simp [free, Cell.free, hx, hb]
    · simp [own, Cell.own, hx, hb] at h

theorem own_write (hi : i < t.next) :
    (t.write c i v).own c j = if j = i then some (t.committed i, v) else t.own c j := by
  by_cases hj : j = i
  · subst hj
    simp [write, set, own, Cell.own, hi]
  · simp [write, set, own, hj]

theorem own_write_ne (hb : b ≠ c) (hf : t.free c i = true) :
    (t.write c i v).own b j = t.own b j := by
  simp only [write, set, own]
  split
  · rename_i h
    rw [h.1, Cell.own_eq_none_of_free hf hb]
    simp [Cell.own, Ne.symm hb]
  · rfl

theorem own_lock (hi : i < t.next) :
    (t.lock c i).own c j = if j = i then some (t.committed i, t.view c i) else t.own c j :=
  own_write hi

theorem own_store (hh : (t.cell i).held = none) : (t.store i v).own b j = t.own b j := by
  simp only [store, set, own]
  split
  · rename_i h
    simp [Cell.own, h.1, hh]
  · rfl

theorem own_fresh (hi : t.next ≤ i) : t.own c i = none := by
  simp [own, t.fresh i hi, Cell.own]

theorem lt_of_own (h : t.own c i ≠ none) : i < t.next := by
  by_contra hn
  exact h (own_fresh (Nat.le_of_not_lt hn))

theorem own_insert :
    (t.insert c r).own c j = if j = t.next then some (none, some r) else t.own c j := by
  simp only [insert, push, own]
  split <;> simp [Cell.own]

theorem own_insert_ne (hb : b ≠ c) : (t.insert c r).own b j = t.own b j := by
  simp only [insert, push, own]
  split
  · rename_i h
    simp [Cell.own, h, t.fresh _ (Nat.le_refl _), Ne.symm hb]
  · rfl

theorem own_append : (t.append r).own b j = t.own b j := by
  simp only [append, push, own]
  split
  · rename_i h
    simp [Cell.own, h, t.fresh _ (Nat.le_refl _)]
  · rfl

theorem own_commit_ne (hb : b ≠ c) : (t.commit c).own b j = t.own b j := Cell.own_commit_ne hb

theorem own_rollback_ne (hb : b ≠ c) : (t.rollback c).own b j = t.own b j :=
  Cell.own_rollback_ne hb

@[simp] theorem own_commit_self : (t.commit c).own c j = none := Cell.own_commit_self

@[simp] theorem own_rollback_self : (t.rollback c).own c j = none := Cell.own_rollback_self

/-! A row that has been deleted never comes back: its key is not handed out again. -/

/-- The key has been handed out and its row is gone for good. -/
def Dead (t : Table ι V) (i : Nat) : Prop := i < t.next ∧ t.cell i = {}

omit [DecidableEq ι] in
theorem Dead.committed (h : t.Dead i) : t.committed i = none := by
  simp [Table.committed, h.2]

theorem Dead.view (h : t.Dead i) : t.view c i = none := by
  simp [Table.view, h.2, Cell.view]

omit [DecidableEq ι] in
theorem Dead.set (h : t.Dead i) (hj : t.cell j ≠ {}) : (t.set j x).Dead i := by
  have hne : i ≠ j := by
    rintro rfl
    exact hj h.2
  exact ⟨h.1, by simp [Table.set, hne, h.2]⟩

omit [DecidableEq ι] in
theorem Dead.push (h : t.Dead i) : (t.push x).Dead i := by
  refine ⟨Nat.lt_succ_of_lt h.1, ?_⟩
  have hne : i ≠ t.next := Nat.ne_of_lt h.1
  simp [Table.push, hne, h.2]

theorem Dead.commit (h : t.Dead i) : (t.commit c).Dead i :=
  ⟨h.1, by simp [Table.commit, h.2, Cell.commit]⟩

theorem Dead.rollback (h : t.Dead i) : (t.rollback c).Dead i :=
  ⟨h.1, by simp [Table.rollback, h.2, Cell.rollback]⟩

/-- Committing a deletion makes it final. -/
theorem dead_of_deleted (h : t.own c i = some (v, none)) : (t.commit c).Dead i := by
  refine ⟨lt_of_own (t := t) (c := c) (by simp [h]), ?_⟩
  rcases hx : t.cell i with ⟨x, _ | ⟨b, w⟩⟩
  · simp [own, Cell.own, hx] at h
  · by_cases hb : b = c
    · simp only [own, Cell.own, hx, if_pos hb, Option.some.injEq, Prod.mk.injEq] at h
      simp [commit, Cell.commit, hx, hb, h.2]
    · simp [own, Cell.own, hx, hb] at h

theorem Dead.own (h : t.Dead i) : t.own c i = none := by
  simp [Table.own, h.2, Cell.own]

theorem cell_ne_of_view (h : t.view c i = some r) : t.cell i ≠ {} := by
  intro he
  simp [view, he, Cell.view] at h

omit [DecidableEq ι] in
theorem cell_ne_of_committed (h : t.committed i = some r) : t.cell i ≠ {} := by
  intro he
  simp [committed, he] at h

/-! Inserted rows. -/

/-- The transaction of `c` has only inserted into the table. -/
def Inserts (c : ι) (t : Table ι V) : Prop := ∀ i v w, t.own c i = some (v, w) → v = none

omit [DecidableEq ι] in
private theorem filterMap_range_of_none {f g : Nat → Option V} {m n : Nat} (hmn : m ≤ n)
    (hfg : ∀ i, f i = g i) (hg : ∀ i, m ≤ i → g i = none) :
    (List.range n).filterMap f = (List.range m).filterMap g := by
  have hf : f = g := funext hfg
  subst hf
  induction n, hmn using Nat.le_induction with
  | base => rfl
  | succ n hmn ih => rw [List.range_succ, List.filterMap_append, ih]; simp [hg n hmn]

omit [DecidableEq ι] in
/-- Two lists of rows agree when they agree key by key and none lies beyond either table. -/
private theorem filterMap_next_congr {f g : Nat → Option V} (hfg : ∀ i, f i = g i)
    (hf : ∀ i, t'.next ≤ i → f i = none) (hg : ∀ i, t.next ≤ i → g i = none) :
    (List.range t'.next).filterMap f = (List.range t.next).filterMap g := by
  rcases Nat.le_total t.next t'.next with hn | hn
  · exact filterMap_range_of_none hn hfg hg
  · exact (filterMap_range_of_none hn (fun i => (hfg i).symm) hf).symm

theorem pendingAt_fresh (hi : t.next ≤ i) : t.pendingAt c i = none := by
  simp [pendingAt, own_fresh hi]

theorem deletedAt_fresh (hi : t.next ≤ i) : t.deletedAt c i = none := by
  simp [deletedAt, own_fresh hi]

/-- The pending rows depend on nothing but the client's own versions. -/
theorem pending_congr (h : ∀ i, t'.own c i = t.own c i) : t'.pending c = t.pending c := by
  refine filterMap_next_congr (fun i => ?_) (fun _ => pendingAt_fresh) fun _ => pendingAt_fresh
  simp only [pendingAt, h i]

/-- So do the deleted rows. -/
theorem deleted_congr (h : ∀ i, t'.own c i = t.own c i) : t'.deleted c = t.deleted c := by
  refine filterMap_next_congr (fun i => ?_) (fun _ => deletedAt_fresh) fun _ => deletedAt_fresh
  simp only [deletedAt, h i]

theorem deleted_eq_nil (h : ∀ i, t.own c i = none) : t.deleted c = [] := by
  simp [deleted, deletedAt, h]

theorem mem_pending : r ∈ t.pending c ↔ ∃ i, t.own c i = some (none, some r) := by
  simp only [pending, List.mem_filterMap, List.mem_range]
  constructor
  · rintro ⟨i, _, hi⟩
    refine ⟨i, ?_⟩
    unfold pendingAt at hi
    split at hi <;> simp_all
  · rintro ⟨i, hi⟩
    exact ⟨i, lt_of_own (c := c) (by simp [hi]), by simp [pendingAt, hi]⟩

theorem mem_deleted : r ∈ t.deleted c ↔ ∃ i, t.own c i = some (some r, none) := by
  simp only [deleted, List.mem_filterMap, List.mem_range]
  constructor
  · rintro ⟨i, _, hi⟩
    refine ⟨i, ?_⟩
    unfold deletedAt at hi
    split at hi <;> simp_all
  · rintro ⟨i, hi⟩
    exact ⟨i, lt_of_own (c := c) (by simp [hi]), by simp [deletedAt, hi]⟩

theorem mem_rows : r ∈ t.rows c ↔ ∃ i, t.view c i = some r := by
  simp only [rows, List.mem_filterMap, List.mem_range]
  constructor
  · rintro ⟨i, _, hi⟩
    exact ⟨i, hi⟩
  · rintro ⟨i, hi⟩
    exact ⟨i, lt_of_view hi, hi⟩

omit [DecidableEq ι] in
theorem mem_committedRows : r ∈ t.committedRows ↔ ∃ i, t.committed i = some r := by
  simp only [committedRows, List.mem_filterMap, List.mem_range]
  constructor
  · rintro ⟨i, _, hi⟩
    exact ⟨i, hi⟩
  · rintro ⟨i, hi⟩
    exact ⟨i, lt_of_committed hi, hi⟩

omit [DecidableEq ι] in
theorem committedRows_congr (h : ∀ i, t'.committed i = t.committed i) :
    t'.committedRows = t.committedRows :=
  filterMap_next_congr h (fun _ => committed_fresh) fun _ => committed_fresh

omit [DecidableEq ι] in
/-- A row replaced by one with the same key leaves the list of keys as it is. -/
theorem map_committedRows_store {α : Type} {key : V → α} {r' : V} (hc : t.committed i = some r)
    (hk : key r' = key r) :
    (t.store i (some r')).committedRows.map key = t.committedRows.map key := by
  have hnext : (t.store i (some r')).next = t.next := rfl
  rw [committedRows, committedRows, List.map_filterMap, List.map_filterMap, hnext]
  refine List.filterMap_congr fun j _ => ?_
  rw [committed_store (lt_of_committed hc)]
  by_cases hj : j = i
  · subst hj
    simp [hc, hk]
  · rw [if_neg hj]

omit [DecidableEq ι] in
/-- Rows that carry their key are listed without repetition. -/
theorem nodup_of_keys {f : Nat → Option V} {key : V → Nat} (h : ∀ i r, f i = some r → key r = i)
    (n : Nat) : (((List.range n).filterMap f).map key).Nodup := by
  rw [List.map_filterMap]
  refine List.nodup_range.filterMap fun i j k hi hj => ?_
  simp only [Option.mem_def, Option.map_eq_some_iff] at hi hj
  obtain ⟨r, hr, rfl⟩ := hi
  obtain ⟨r', hr', he⟩ := hj
  rw [← h i r hr, ← he, h j r' hr']

theorem pending_eq_nil (h : ∀ i, t.own c i = none) : t.pending c = [] := by
  simp [pending, pendingAt, h]

theorem pending_insert : (t.insert c r).pending c = t.pending c ++ [r] := by
  have hat : ∀ i, (t.insert c r).pendingAt c i = if i = t.next then some r else t.pendingAt c i := by
    intro i
    by_cases hi : i = t.next <;> simp [pendingAt, own_insert, hi]
  have hnext : (t.insert c r).next = t.next + 1 := rfl
  rw [pending, hnext, List.range_succ, List.filterMap_append, pending]
  congr 1
  · refine List.filterMap_congr fun i hi => ?_
    rw [hat, if_neg (Nat.ne_of_lt (List.mem_range.mp hi))]
  · simp [hat]

theorem Inserts.insert (h : t.Inserts c) : (t.insert c r).Inserts c := by
  intro i v w hi
  rw [own_insert] at hi
  split at hi
  · simp only [Option.some.injEq, Prod.mk.injEq] at hi
    exact hi.1.symm
  · exact h i v w hi

/-- Committing insertions keeps the rows that are there. -/
theorem Inserts.committed_commit (h : t.Inserts c) (hc : t.committed i = some r) :
    (t.commit c).committed i = some r := by
  rw [Table.committed_commit]
  rcases ho : t.own c i with _ | ⟨v, w⟩
  · exact hc
  · obtain rfl := h i v w ho
    rw [own_committed ho] at hc
    cases hc

omit [DecidableEq ι] in
private theorem filterMap_or_perm {f g : Nat → Option V} (l : List Nat)
    (h : ∀ i, f i = none ∨ g i = none) :
    (l.filterMap fun i => (f i).or (g i)).Perm (l.filterMap f ++ l.filterMap g) := by
  induction l with
  | nil => exact .nil
  | cons i l ih =>
    rcases hf : f i with _ | a
    · rcases hg : g i with _ | b
      · simpa [hf, hg] using ih
      · simp only [List.filterMap_cons, hf, hg, Option.none_or]
        exact (ih.cons b).trans List.perm_middle.symm
    · have hg : g i = none := by
        rcases h i with h | h
        · rw [hf] at h
          cases h
        · exact h
      simpa [hf, hg] using ih.cons a

theorem Inserts.of_own {t' : Table ι V} (h : t.Inserts b)
    (ho : ∀ i, t'.own b i = t.own b i ∨ t'.own b i = none) : t'.Inserts b := by
  intro i v w hv
  rcases ho i with hi | hi
  · exact h i v w (hi.symm.trans hv)
  · rw [hi] at hv
    cases hv

theorem Inserts.insert_any (h : t.Inserts b) : (t.insert c r).Inserts b := by
  by_cases hb : b = c
  · subst hb
    exact h.insert
  · exact h.of_own fun _ => Or.inl (own_insert_ne hb)

theorem Inserts.append (h : t.Inserts b) : (t.append r).Inserts b :=
  h.of_own fun _ => Or.inl own_append

theorem Inserts.commit (h : t.Inserts b) : (t.commit c).Inserts b := by
  refine h.of_own fun i => ?_
  by_cases hb : b = c
  · exact Or.inr (hb ▸ own_commit_self)
  · exact Or.inl (own_commit_ne hb)

theorem Inserts.rollback (h : t.Inserts b) : (t.rollback c).Inserts b := by
  refine h.of_own fun i => ?_
  by_cases hb : b = c
  · exact Or.inr (hb ▸ own_rollback_self)
  · exact Or.inl (own_rollback_ne hb)

theorem Inserts.committed_commit_or (h : t.Inserts c) :
    (t.commit c).committed i = (t.pendingAt c i).or (t.committed i) := by
  rw [Table.committed_commit]
  rcases ho : t.own c i with _ | ⟨v, w⟩
  · simp [pendingAt, ho]
  · obtain rfl := h i v w ho
    have hc : t.committed i = none := own_committed ho
    cases w <;> simp [pendingAt, ho, hc]

theorem Inserts.pending_or_committed (h : t.Inserts c) (i : Nat) :
    t.pendingAt c i = none ∨ t.committed i = none := by
  rcases ho : t.own c i with _ | ⟨v, w⟩
  · exact Or.inl (by simp [pendingAt, ho])
  · obtain rfl := h i v w ho
    exact Or.inr (own_committed ho)

/-- Committing insertions adds exactly the pending rows. -/
theorem committedRows_commit (h : t.Inserts c) :
    (t.commit c).committedRows.Perm (t.pending c ++ t.committedRows) := by
  simp only [committedRows, pending, funext fun i => h.committed_commit_or (i := i)]
  exact filterMap_or_perm (List.range t.next) h.pending_or_committed

omit [DecidableEq ι] in
private theorem filter_filterMap_or {p : V → Bool} {f g : Nat → Option V} {l : List Nat}
    (h : ∀ i, f i = none ∨ g i = none) (hf : (l.filterMap f).filter p = []) :
    (l.filterMap fun i => (f i).or (g i)).filter p = (l.filterMap g).filter p := by
  rw [List.filter_filterMap, List.filter_filterMap]
  refine List.filterMap_congr fun i hi => ?_
  rcases hfi : f i with _ | r
  · rfl
  · have hr : p r = false := by
      have hn := List.filter_eq_nil_iff.mp hf r (List.mem_filterMap.mpr ⟨i, hi, hfi⟩)
      simpa using hn
    have hg : g i = none := (h i).resolve_left (by simp [hfi])
    simp [hg, hr]

/-- Committing insertions of which none satisfies `p` leaves the rows that do. -/
theorem Inserts.filter_committedRows_commit {p : V → Bool} (h : t.Inserts c)
    (hp : (t.pending c).filter p = []) :
    (t.commit c).committedRows.filter p = t.committedRows.filter p := by
  simp only [committedRows, funext fun i => h.committed_commit_or (i := i)]
  exact filter_filterMap_or h.pending_or_committed hp

/-- Where no committed row satisfies `p`, the rows that do are the pending ones. -/
theorem Inserts.filter_committedRows_pending {p : V → Bool} (h : t.Inserts c)
    (hp : t.committedRows.filter p = []) :
    (t.commit c).committedRows.filter p = (t.pending c).filter p := by
  have hcomm : ∀ i, (t.pendingAt c i).or (t.committed i) = (t.committed i).or (t.pendingAt c i) := by
    intro i
    rcases h.pending_or_committed i with hi | hi <;> simp [hi]
  simp only [committedRows, funext fun i => h.committed_commit_or (i := i), hcomm]
  exact filter_filterMap_or (fun i => (h.pending_or_committed i).symm) hp

omit [DecidableEq ι] in
theorem committedRows_append : (t.append r).committedRows = t.committedRows ++ [r] := by
  have hnext : (t.append r).next = t.next + 1 := rfl
  rw [committedRows, hnext, List.range_succ, List.filterMap_append, committedRows]
  congr 1
  · refine List.filterMap_congr fun i hi => ?_
    rw [committed_append, if_neg (Nat.ne_of_lt (List.mem_range.mp hi))]
  · simp [committed_append]

/-! The rows that an open transaction has written. -/

/-- The own version of `c`, where it has one and has not deleted the row. -/
def draft (c : ι) (t : Table ι V) (i : Nat) : Option V := (t.own c i).bind Prod.snd

/-- No open transaction has deleted a row. -/
def Keeping (t : Table ι V) : Prop := ∀ c i v, t.own c i ≠ some (v, none)

theorem draft_eq (h : t.Keeping) : t.own c i = (t.draft c i).map fun w => (t.committed i, some w) := by
  rcases ho : t.own c i with _ | ⟨v, w⟩
  · simp [draft, ho]
  · rcases w with _ | w
    · exact absurd ho (h c i v)
    · simp [draft, ho, own_committed ho]

theorem Keeping.view (h : t.Keeping) : t.view c i = (t.draft c i).or (t.committed i) := by
  rw [view_eq_own, draft_eq h]
  cases t.draft c i <;> simp

theorem Keeping.committed_commit (h : t.Keeping) :
    (t.commit c).committed i = (t.draft c i).or (t.committed i) := by
  rw [Table.committed_commit, draft_eq h]
  cases t.draft c i <;> simp

theorem draft_of_free (hf : t.free c i = true) (hb : b ≠ c) : t.draft b i = none := by
  simp [draft, Table.own, Cell.own_eq_none_of_free hf hb]

theorem draft_of_held (hh : (t.cell i).held = none) : t.draft b i = none := by
  simp [draft, Table.own, Cell.own, hh]

theorem draft_fresh (hi : t.next ≤ i) : t.draft b i = none := by
  simp [draft, own_fresh hi]

theorem draft_insert : (t.insert c r).draft b i = if b = c ∧ i = t.next then some r else t.draft b i := by
  by_cases hb : b = c
  · subst hb
    by_cases hi : i = t.next <;> simp [draft, own_insert, hi]
  · simp [draft, own_insert_ne hb, hb]

theorem draft_write (hi : i < t.next) (hf : t.free c i = true) :
    (t.write c i (some r)).draft b j = if b = c ∧ j = i then some r else t.draft b j := by
  by_cases hb : b = c
  · subst hb
    by_cases hj : j = i <;> simp [draft, own_write hi, hj]
  · simp [draft, own_write_ne hb hf, hb]

theorem draft_store (hh : (t.cell i).held = none) : (t.store i v).draft b j = t.draft b j := by
  simp [draft, own_store hh]

theorem draft_append : (t.append r).draft b j = t.draft b j := by
  simp [draft, own_append]

theorem draft_commit : (t.commit c).draft b i = if b = c then none else t.draft b i := by
  by_cases hb : b = c
  · subst hb
    simp [draft]
  · simp [draft, own_commit_ne hb, hb]

theorem draft_rollback : (t.rollback c).draft b i = if b = c then none else t.draft b i := by
  by_cases hb : b = c
  · subst hb
    simp [draft]
  · simp [draft, own_rollback_ne hb, hb]

theorem Keeping.of_own {t' : Table ι V} (h : t.Keeping)
    (ho : ∀ c i, t'.own c i = t.own c i ∨ t'.own c i = none) : t'.Keeping := by
  intro c i v hv
  rcases ho c i with hc | hc
  · exact h c i v (hc.symm.trans hv)
  · rw [hc] at hv
    cases hv

theorem Keeping.store (h : t.Keeping) (hh : (t.cell i).held = none) : (t.store i v).Keeping :=
  h.of_own fun _ _ => Or.inl (own_store hh)

theorem Keeping.append (h : t.Keeping) : (t.append r).Keeping := h.of_own fun _ _ => Or.inl own_append

theorem Keeping.commit (h : t.Keeping) : (t.commit c).Keeping := by
  refine h.of_own fun b i => ?_
  by_cases hb : b = c
  · exact Or.inr (hb ▸ own_commit_self)
  · exact Or.inl (own_commit_ne hb)

theorem Keeping.rollback (h : t.Keeping) : (t.rollback c).Keeping := by
  refine h.of_own fun b i => ?_
  by_cases hb : b = c
  · exact Or.inr (hb ▸ own_rollback_self)
  · exact Or.inl (own_rollback_ne hb)

theorem Keeping.insert (h : t.Keeping) : (t.insert c r).Keeping := by
  intro b i v hv
  by_cases hb : b = c
  · subst hb
    rw [own_insert] at hv
    split at hv
    · cases hv
    · exact h b i v hv
  · rw [own_insert_ne hb] at hv
    exact h b i v hv

theorem Keeping.write (h : t.Keeping) (hi : i < t.next) (hf : t.free c i = true) :
    (t.write c i (some r)).Keeping := by
  intro b j v hv
  by_cases hb : b = c
  · subst hb
    rw [own_write hi] at hv
    split at hv
    · cases hv
    · exact h b j v hv
  · rw [own_write_ne hb hf] at hv
    exact h b j v hv

/-! Sums over the committed rows. -/

variable {f : Option V → Int}

theorem total_commit : (t.commit c).total f = t.total f + t.delta c f := by
  have hnext : (t.commit c).next = t.next := rfl
  rw [total, total, delta, hnext, ← Finset.sum_add_distrib]
  refine Finset.sum_congr rfl fun i _ => ?_
  rw [committed_commit]
  rcases ho : t.own c i with _ | ⟨v, w⟩
  · simp
  · rw [own_committed ho]
    simp

omit [DecidableEq ι] in
theorem total_append : (t.append r).total f = t.total f + f (some r) := by
  have hnext : (t.append r).next = t.next + 1 := rfl
  rw [total, hnext, Finset.sum_range_succ, total]
  congr 1
  · refine Finset.sum_congr rfl fun i hi => ?_
    rw [committed_append, if_neg (Nat.ne_of_lt (Finset.mem_range.mp hi))]
  · rw [committed_append, if_pos rfl]

omit [DecidableEq ι] in
theorem total_store (hi : i < t.next) :
    (t.store i v).total f = t.total f - f (t.committed i) + f v := by
  have hnext : (t.store i v).next = t.next := rfl
  have hmem : i ∈ Finset.range t.next := Finset.mem_range.mpr hi
  rw [total, total, hnext, ← Finset.add_sum_erase _ _ hmem, ← Finset.add_sum_erase _ _ hmem,
    committed_store hi, if_pos rfl]
  have hrest : ∑ j ∈ (Finset.range t.next).erase i, f ((t.store i v).committed j) =
      ∑ j ∈ (Finset.range t.next).erase i, f (t.committed j) := by
    refine Finset.sum_congr rfl fun j hj => ?_
    rw [committed_store hi, if_neg (Finset.ne_of_mem_erase hj)]
  rw [hrest]
  ring

omit [DecidableEq ι] in
private theorem sum_filterMap_range (g : V → Int) (f : Nat → Option V) (n : Nat) :
    (((List.range n).filterMap f).map g).sum = ∑ i ∈ Finset.range n, (f i).elim 0 g := by
  induction n with
  | zero => rfl
  | succ n ih =>
    rw [List.range_succ, List.filterMap_append, List.map_append, List.sum_append, ih,
      Finset.sum_range_succ]
    congr 1
    rcases hf : f n with _ | r <;> simp [hf]

omit [DecidableEq ι] in
theorem sum_committedRows (g : V → Int) :
    (t.committedRows.map g).sum = t.total fun v => v.elim 0 g :=
  sum_filterMap_range g t.committed t.next

/-- A transaction that only deletes lowers a sum by the rows it has deleted. -/
theorem delta_of_deleted (g : V → Int) (h : ∀ i v w, t.own c i = some (v, w) → w = none) :
    t.delta c (fun v => v.elim 0 g) = -((t.deleted c).map g).sum := by
  rw [deleted, sum_filterMap_range, delta, ← Finset.sum_neg_distrib]
  refine Finset.sum_congr rfl fun i _ => ?_
  rcases ho : t.own c i with _ | ⟨v, w⟩
  · simp [deletedAt, ho]
  · obtain rfl := h i v w ho
    simp [deletedAt, ho]

end Table
end RowStore
