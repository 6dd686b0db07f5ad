import Kayan.Lib.WaitFor
import Kayan.Shop.Checkout
import Kayan.Shop.Locking
import Mathlib.Data.Finset.Max

/-!
# Deadlocks between orders

The loop locks products in the order of the lines, so calls that list the same products in
different orders can come to wait for each other. They do not when their lists give no such
cycle.
-/
namespace Kayan.Shop
open RowStore Interleave

section Waiting

/-- A row that statements lock. -/
inductive LockRow where
  | product (p : Nat)
  | cartItem (i : Nat)

/-- The row whose lock a statement needs. -/
def Stmt.locks : Stmt → Option LockRow
  | .selectProductForUpdate p => some (.product p)
  | .decrementAmount _ p => some (.product p)
  | .updateProduct p _ => some (.product p)
  | .lockCartRow i _ => some (.cartItem i)
  | .deleteCartRow i _ => some (.cartItem i)
  | _ => none

/-- The client that has locked a row. -/
def LockRow.holder (d : Db) : LockRow → Option Client
  | .product p => (d.catalog.cell p).held.map Prod.fst
  | .cartItem i => (d.cart.cell i).held.map Prod.fst

/-- The next statement of `c` has to wait for a row that `b` has locked. -/
def WaitsFor (s : State) (c b : Client) : Prop :=
  ∃ q row, Next c q s ∧ (∀ now, exec now c q s.db = none) ∧ q.locks = some row ∧ row.holder s.db = some b

/-- Clients that wait for each other in a circle. -/
def Deadlocked (s : State) : Prop := ∃ c, Relation.TransGen (WaitsFor s) c c

end Waiting

section Condition

/-- The cart rows that a call locks. -/
def Request.cart (d : Db) (req : Request) : List CartItem := (req.cartOwner.map (cartOf d)).getD []

/-- The lines of a call, in the order in which it locks their products. -/
def Request.lines (d : Db) : Request → List OrderLine
  | .createOrder _ _ items => items
  | .checkoutCart userId _ => (cartOf d userId).map CartItem.line
  | _ => []

/-- Some calls of which each has gone through its first `n` lines, with no product in common, and
comes next to a product of another one. -/
structure LockCycle (d : Db) (req : Client → Request) (S : Finset Client) (n : Client → Nat) : Prop where
  nonempty : S.Nonempty
  positive : ∀ c ∈ S, ∀ l ∈ ((req c).lines d).take (n c), 0 < l.quantity
  fits : ∀ c ∈ S, Fits d (((req c).lines d).take (n c))
  apart : ∀ b ∈ S, ∀ c ∈ S, b ≠ c → ∀ l ∈ ((req b).lines d).take (n b), ∀ m ∈ ((req c).lines d).take (n c),
    l.productId ≠ m.productId
  next : ∀ c ∈ S, ∃ l, ((req c).lines d)[n c]? = some l ∧ ∃ b ∈ S, b ≠ c ∧
    ∃ m ∈ ((req b).lines d).take (n b), m.productId = l.productId

end Condition

section Invariant
variable {req : Client → Request} {d₀ d d' : Db} {b c : Client} {u : Nat} {done rest : List OrderLine}
  {ps : List Nat} {x : Stage}

/-- The transaction of `c` has locked the given products, and has sold the lines. -/
structure Holds (c : Client) (ps : List Nat) (done : List OrderLine) (d : Db) : Prop where
  held : ∀ p ∈ ps, ∃ row, d.catalog.own c p = some (some row, some (sold done p row)) ∧ row.deleted = false ∧
    row.isActive = true ∧ lineQuantity p done ≤ row.amount
  others : ∀ p, p ∉ ps → d.catalog.own c p = none
  positive : ∀ l ∈ done, 0 < l.quantity

/-- The products of the lines. -/
def products (lines : List OrderLine) : List Nat := lines.map (·.productId)

/-- The rows of the user's cart are gone. -/
def Gone (rows : List CartItem) (d : Db) : Prop := ∀ r ∈ rows, d.cart.Dead r.id

/-- Enough is left of a product that is locked. -/
def Covers (c : Client) (done : List OrderLine) (item : OrderLine) (d : Db) : Prop :=
  ∃ row w, d.catalog.own c item.productId = some (some row, w) ∧
    item.quantity ≤ row.amount - lineQuantity item.productId done

/-- What a call holds at its phase. -/
def At (d₀ : Db) (c : Client) (x : Stage) (d : Db) : Prop :=
  match x.phase with
  | .closed | .opened => Holds c [] [] d ∧ Held [] (d.cart.own c)
  | .carting rows todo => Holds c [] [] d ∧ Held rows (d.cart.own c) ∧ ∃ pre rest, x.req.cart d₀ = pre ++ rest ∧
      todo = rest.map (·.id) ∧ (rows = pre ∨ rows = [] ∧ Gone (x.req.cart d₀) d)
  | .choosing done rest => Holds c (products done) done d ∧ Held (x.req.cart d₀) (d.cart.own c) ∧
      x.req.lines d₀ = done ++ rest
  | .taking done item rest => Holds c (item.productId :: products done) done d ∧ Covers c done item d ∧
      Held (x.req.cart d₀) (d.cart.own c) ∧ x.req.lines d₀ = done ++ item :: rest
  | .paying done item rest => 0 < item.quantity ∧ Holds c (item.productId :: products done) done d ∧
      Covers c done item d ∧ Held (x.req.cart d₀) (d.cart.own c) ∧ x.req.lines d₀ = done ++ item :: rest
  | .deleting done ids => Holds c (products done) done d ∧ Deleting True (x.req.cart d₀) ids (d.cart.own c) ∧
      ∀ i ∈ ids, d.cart.own c i ≠ none
  | .refused => True

/-- Products are sold and nothing else happens to them. -/
def Stocks (d₀ d : Db) : Prop :=
  ∀ p row, d.catalog.committed p = some row → 0 ≤ row.amount ∧ ∃ row₀, d₀.catalog.committed p = some row₀ ∧
    row₀.deleted = row.deleted ∧ row₀.isActive = row.isActive ∧ row.amount ≤ row₀.amount

/-- Each cart is there as it was, or gone as a whole. -/
structure Carts (d₀ d : Db) : Prop where
  next : d.cart.next = d₀.cart.next
  rows : ∀ i r, d.cart.committed i = some r → d₀.cart.committed i = some r
  whole : ∀ u, (∀ r ∈ cartOf d₀ u, d.cart.committed r.id = some r) ∨ Gone (cartOf d₀ u) d

/-- What holds of the locks in every run of calls that place orders. -/
structure Locks (req : Client → Request) (d₀ : Db) (ph : Client → Stage) (d : Db) : Prop where
  stage : ∀ c, (ph c).req = req c
  stocks : Stocks d₀ d
  carts : Carts d₀ d
  at_phase : ∀ c, At d₀ c (ph c) d

theorem Holds.of_own (h : Holds c ps done d) (hc : ∀ p, d'.catalog.own c p = d.catalog.own c p) :
    Holds c ps done d' where
  held p hp := by
    rw [hc]
    exact h.held p hp
  others p hp := (hc p).trans (h.others p hp)
  positive := h.positive

theorem At.of_rely (h : At d₀ c x d) (hr : Rely c d d') (hd : ∀ i, d.cart.Dead i → d'.cart.Dead i) : At d₀ c x d' := by
  obtain ⟨r, p⟩ := x
  have hcart : d'.cart.own c = d.cart.own c := hr.ownCart
  have hcovers : ∀ {done item}, Covers c done item d → Covers c done item d' := by
    rintro done item ⟨row, w, hown, hle⟩
    exact ⟨row, w, (hr.catalog _).trans hown, hle⟩
  cases p with
  | closed | opened => exact ⟨h.1.of_own hr.catalog, hcart ▸ h.2⟩
  | carting rows todo =>
    obtain ⟨hh, hc, pre, rest, hpre, hids, hrows⟩ := h
    refine ⟨hh.of_own hr.catalog, hcart ▸ hc, pre, rest, hpre, hids, ?_⟩
    exact hrows.imp_right fun hgone => ⟨hgone.1, fun r hr => hd _ (hgone.2 r hr)⟩
  | choosing done rest => exact ⟨h.1.of_own hr.catalog, hcart ▸ h.2.1, h.2.2⟩
  | taking done item rest => exact ⟨h.1.of_own hr.catalog, hcovers h.2.1, hcart ▸ h.2.2.1, h.2.2.2⟩
  | paying done item rest =>
    exact ⟨h.1, h.2.1.of_own hr.catalog, hcovers h.2.2.1, hcart ▸ h.2.2.2.1, h.2.2.2.2⟩
  | deleting done ids => exact ⟨h.1.of_own hr.catalog, hcart ▸ h.2⟩
  | refused => trivial

/-- The product of the next line is locked. -/
theorem Holds.lock {p : Nat} {row : CatalogProduct} (h : Holds c (products done) done d) (hs : Stocks d₀ d)
    (hv : d.catalog.view c p = some row) (hdel : row.deleted = false) (hact : row.isActive = true) :
    Holds c (p :: products done) done { d with catalog := d.catalog.lock c p } := by
  have hlt := Table.lt_of_view hv
  constructor
  · intro j hj
    by_cases hmem : j ∈ products done
    · obtain ⟨r, hown, hrest⟩ := h.held j hmem
      refine ⟨r, ?_, hrest⟩
      rw [Table.own_lock hlt]
      by_cases he : j = p
      · subst he
        rw [if_pos rfl, Table.own_committed hown, Table.view_of_own hown]
      · rw [if_neg he, hown]
    · obtain rfl : j = p := (List.mem_cons.mp hj).resolve_right hmem
      have hnone := h.others j hmem
      have hcommitted : d.catalog.committed j = some row := (Table.view_of_not_own hnone).symm.trans hv
      have hzero : lineQuantity j done = 0 :=
        lineQuantity_eq_zero fun l hl he => hmem (he ▸ List.mem_map_of_mem hl)
      have hsold : sold done j row = row := by rw [sold, hzero, Int.sub_zero]
      refine ⟨row, ?_, hdel, hact, ?_⟩
      · rw [Table.own_lock hlt, if_pos rfl, hcommitted, hv, hsold]
      · rw [hzero]
        exact (hs j row hcommitted).1
  · intro j hj
    rw [List.mem_cons, not_or] at hj
    rw [Table.own_lock hlt, if_neg hj.1]
    exact h.others j hj.2
  · exact h.positive

/-- The quantity of the line is taken off its product. -/
theorem Holds.pay {item : OrderLine} (h : Holds c (item.productId :: products done) done d)
    (hc : Covers c done item d) (hq : 0 < item.quantity) {w : CatalogProduct}
    (hv : d.catalog.view c item.productId = some w) :
    Holds c (products (done ++ [item])) (done ++ [item])
      { d with catalog := d.catalog.write c item.productId (some { w with amount := w.amount - item.quantity }) } := by
  have hlt := Table.lt_of_view hv
  have hprod : ∀ p, p ∈ products (done ++ [item]) ↔ p ∈ item.productId :: products done := by
    intro p
    simp [products, or_comm]
  constructor
  · intro p hp
    obtain ⟨row, hown, hdel, hact, hle⟩ := h.held p ((hprod p).mp hp)
    by_cases he : p = item.productId
    · subst he
      obtain ⟨row', v, hown', hcover⟩ := hc
      cases hown.symm.trans hown'
      cases hv.symm.trans (Table.view_of_own hown)
      refine ⟨row, ?_, hdel, hact, ?_⟩
      · rw [Table.own_write hlt, if_pos rfl, Table.own_committed hown, sold, sold, lineQuantity_append,
          lineQuantity_singleton, if_pos rfl, Int.sub_sub]
      · rw [lineQuantity_append, lineQuantity_singleton, if_pos rfl]
        omega
    · have hsame : lineQuantity p (done ++ [item]) = lineQuantity p done := by
        rw [lineQuantity_append, lineQuantity_singleton, if_neg (Ne.symm he), Int.add_zero]
      refine ⟨row, ?_, hdel, hact, hsame ▸ hle⟩
      rw [Table.own_write hlt, if_neg he, hown, sold, sold, hsame]
  · intro p hp
    rw [hprod, List.mem_cons, not_or] at hp
    rw [Table.own_write hlt, if_neg hp.1]
    exact h.others p (by simp [hp])
  · intro l hl
    rcases List.mem_append.mp hl with hl | hl
    · exact h.positive l hl
    · rwa [List.mem_singleton.mp hl]

theorem holds_nothing (h : ∀ p, d.catalog.own c p = none) : Holds c [] [] d :=
  ⟨nofun, fun p _ => h p, nofun⟩

theorem held_nothing {own : OwnCart} (h : ∀ i, own i = none) : Held [] own :=
  ⟨nofun, fun i hi => absurd (h i) hi⟩

theorem next_rollback {p : Phase} {v : Reply .rollback} : p.next x.req .rollback v = .closed := by
  cases p <;> rfl

theorem Quiet.cartId (hq : Quiet d₀) : ∀ i r, d₀.cart.committed i = some r → r.id = i :=
  fun i r hr => (hq.cartRow i r hr).1

/-- What a checkout finds in its snapshot: the whole cart, or nothing. -/
theorem Carts.snapshot (hq : Quiet d₀) (h : Carts d₀ d) (hc : ∀ i, d.cart.own c i = none) :
    (cartRows c u d).insertionSort (fun a b => a.before b) = cartOf d₀ u ∨
      cartRows c u d = [] ∧ Gone (cartOf d₀ u) d := by
  have hview : d.cart.view c = d.cart.committed := funext fun i => Table.view_of_not_own (hc i)
  have hrow : ∀ i r, d.cart.committed i = some r → r.userId = u → r ∈ cartOf d₀ u ∧ r.id = i := by
    intro i r hi hu
    have h₀ := h.rows i r hi
    obtain ⟨hid, -⟩ := hq.cartRow i r h₀
    exact ⟨(mem_cartOf hq.cartId).mpr ⟨hid ▸ h₀, hu⟩, hid⟩
  rcases h.whole u with hwhole | hgone
  · refine Or.inl (congrArg (List.insertionSort _) ?_)
    rw [cartRows, Table.rows, Table.committedRows, hview, h.next, List.filter_filterMap, List.filter_filterMap]
    refine List.filterMap_congr fun i _ => ?_
    rcases hi : d.cart.committed i with _ | r
    · rcases hi₀ : d₀.cart.committed i with _ | r
      · rfl
      · have hne : r.userId ≠ u := by
          intro hu
          obtain ⟨hid, -⟩ := hq.cartRow i r hi₀
          have hr := hwhole r ((mem_cartOf hq.cartId).mpr ⟨hid ▸ hi₀, hu⟩)
          rw [hid, hi] at hr
          cases hr
        simp [Option.filter, hne]
    · rw [h.rows i r hi]
  · refine Or.inr ⟨?_, hgone⟩
    rw [cartRows, List.filter_eq_nil_iff]
    intro r hr hu
    obtain ⟨i, hi⟩ := Table.mem_rows.mp hr
    rw [hview] at hi
    obtain ⟨hmem, rfl⟩ := hrow i r hi (by simpa using hu)
    rw [(hgone r hmem).committed] at hi
    cases hi

/-- The next row of the cart: it is locked, or the cart is gone. -/
theorem Carts.lockRow {now : Nat} {rows pre rest : List CartItem} {r₀ : CartItem} {v : Option CartItem}
    (hq : Quiet d₀) (h : Carts d₀ d) (hpre : cartOf d₀ u = pre ++ r₀ :: rest) (hheld : Held rows (d.cart.own c))
    (hrows : rows = pre ∨ rows = [] ∧ Gone (cartOf d₀ u) d)
    (hx : exec now c (.lockCartRow r₀.id u) d = some (.ok v, d')) :
    (∀ p, d'.catalog.own c p = d.catalog.own c p) ∧ Held (rows ++ v.toList) (d'.cart.own c) ∧
      (rows ++ v.toList = pre ++ [r₀] ∨ rows ++ v.toList = [] ∧ Gone (cartOf d₀ u) d') := by
  have hmem : r₀ ∈ cartOf d₀ u := by simp [hpre]
  obtain ⟨h₀, hu⟩ := (mem_cartOf hq.cartId).mp hmem
  rcases h.whole u with hwhole | hgone
  · obtain rfl : rows = pre := by
      refine hrows.resolve_right fun ⟨_, hgone⟩ => ?_
      have hr := hwhole r₀ hmem
      rw [(hgone r₀ hmem).committed] at hr
      cases hr
    have hnew : r₀.id ∉ rows.map (·.id) := by
      have hnodup := cartOf_nodup hq.cartId (u := u)
      rw [hpre, List.map_append, List.map_cons] at hnodup
      exact fun hin => (List.nodup_append.mp hnodup).2.2 _ hin _ List.mem_cons_self rfl
    have hown : d.cart.own c r₀.id = none := by
      by_contra hne
      exact hnew (hheld.2 _ hne)
    have hview : d.cart.view c r₀.id = some r₀ := (Table.view_of_not_own hown).trans (hwhole r₀ hmem)
    simp only [exec, hview, hu, if_true] at hx
    split at hx
    · cases hx
    · cases hx
      refine ⟨fun _ => rfl, ?_, Or.inl rfl⟩
      refine hheld.lock hnew fun j => ?_
      rw [Table.own_lock (Table.lt_of_view hview), hwhole r₀ hmem, hview]
  · have hempty : rows = [] := by
      rcases hrows with rfl | ⟨hnil, -⟩
      · rcases rows with _ | ⟨r, rows⟩
        · rfl
        · have hdead := hgone r (by simp [hpre])
          have hr := hheld.1 r List.mem_cons_self
          rw [hdead.own] at hr
          cases hr
      · exact hnil
    have hview : d.cart.view c r₀.id = none := (hgone r₀ hmem).view
    simp only [exec, hview] at hx
    split at hx
    · cases hx
    · cases hx
      subst hempty
      exact ⟨fun _ => rfl, hheld, Or.inr ⟨rfl, hgone⟩⟩

/-- The rows that the `DELETE` finds are those that are locked. -/
theorem Carts.found {rows : List CartItem} {i : Nat} {r : CartItem} (h : Carts d₀ d) (hq : Quiet d₀)
    (hall : ∀ r ∈ cartOf d₀ u, r ∈ rows) (hown : ∀ r ∈ rows, ∃ w, d.cart.own c r.id = some (some r, w))
    (hv : d.cart.view c i = some r) (hu : r.userId = u) : d.cart.own c i ≠ none := by
  intro hnone
  have hi := h.rows i r ((Table.view_of_not_own hnone).symm.trans hv)
  obtain ⟨hid, -⟩ := hq.cartRow i r hi
  obtain ⟨w, hw⟩ := hown r (hall r ((mem_cartOf hq.cartId).mpr ⟨hid ▸ hi, hu⟩))
  rw [hid, hnone] at hw
  cases hw

variable (d₀) in
theorem cart_of_owner {r : Request} (h : r.cartOwner = some u) : r.cart d₀ = cartOf d₀ u := by
  rw [Request.cart, h, Option.map_some, Option.getD_some]

variable (d₀) in
theorem cart_of_no_owner {r : Request} (h : r.cartOwner = none) : r.cart d₀ = [] := by
  rw [Request.cart, h, Option.map_none, Option.getD_none]

/-- The product of the next line is selected for update. -/
theorem At.selectProduct {now : Nat} {item : OrderLine} {v : Option CatalogProduct} {r : Request}
    (h : At d₀ c ⟨r, .choosing done (item :: rest)⟩ d) (hs : Stocks d₀ d)
    (hx : exec now c (.selectProductForUpdate item.productId) d = some (.ok v, d')) :
    At d₀ c ⟨r, if refuses item v then .refused else .taking done item rest⟩ d' := by
  by_cases hv : refuses item v = true
  · rw [if_pos hv]
    trivial
  rw [if_neg hv]
  obtain ⟨hh, hcart, hlines⟩ := h
  have hmiss : v ≠ none := by
    rintro rfl
    exact hv rfl
  simp only [exec] at hx
  split at hx
  · cases hx
    exact absurd rfl hmiss
  · rename_i row hview
    split at hx
    · cases hx
      exact absurd rfl hmiss
    · rename_i hdel
      split at hx
      · cases hx
        have hpass : row.isActive = true ∧ ¬ row.amount < item.quantity := by
          simpa [refuses, decide_eq_false_iff_not] using hv
        have hlock := hh.lock hs hview (by simpa using hdel) hpass.1
        obtain ⟨row₀, hown, -⟩ := hlock.held item.productId List.mem_cons_self
        refine ⟨hlock, ⟨row₀, _, hown, ?_⟩, hcart, hlines⟩
        have hsame := Table.view_of_own hown
        rw [Table.view_lock (Table.lt_of_view hview), hview, Option.some.injEq] at hsame
        rw [hsame] at hpass
        exact Int.not_lt.mp hpass.2
      · cases hx

/-- Each statement leaves its call with the locks of the phase that it leads to. -/
theorem At.step {m : Move} {q : Stmt} {r : Answer q} (h : At d₀ c x d) (hq : Quiet d₀) (hs : Stocks d₀ d)
    (hc : Carts d₀ d) (hm : x.phase.May x.req q) (ha : act m c q d = some (r, d')) :
    At d₀ c (x.after q r) d' := by
  cases r with
  | error e =>
    obtain rfl := act_error ha
    exact h
  | ok v =>
    cases m with
    | fail e => cases (act_fail ha).1
    | run now =>
      obtain ⟨req, p⟩ := x
      have hx : exec now c q d = some (.ok v, d') := ha
      cases hm with
      | rollback =>
        cases hx
        rw [Stage.after, next_rollback]
        exact ⟨holds_nothing fun _ => Table.own_rollback_self, held_nothing fun _ => Table.own_rollback_self⟩
      | commit | commitCart =>
        cases hx
        exact ⟨holds_nothing fun _ => Table.own_commit_self, held_nothing fun _ => Table.own_commit_self⟩
      | begin =>
        cases hx
        exact h
      | insertOrder hown =>
        cases hx
        have hcart := cart_of_no_owner d₀ hown
        cases req with
        | checkoutCart => cases hown
        | _ => exact ⟨h.1.of_own fun _ => rfl, hcart ▸ h.2, rfl⟩
      | snapshotCart hown =>
        cases hx
        have hcart := cart_of_owner d₀ hown
        have hnone : ∀ i, d.cart.own c i = none := fun i => by
          by_contra hne
          cases h.2.2 i hne
        rcases hc.snapshot (u := _) hq hnone with hall | ⟨hnil, hgone⟩
        · exact ⟨h.1, h.2, [], _, hcart.trans hall.symm, rfl, Or.inl rfl⟩
        · refine ⟨h.1, h.2, _, [], hcart.trans (List.append_nil _).symm, ?_, Or.inr ⟨rfl, hcart ▸ hgone⟩⟩
          rw [hnil]
          rfl
      | lockCartRow hown =>
        have hcart := cart_of_owner d₀ hown
        obtain ⟨hh, hheld, pre, rest, hpre, hids, hrows⟩ := h
        obtain ⟨r₀, rest, rfl, rfl, rfl⟩ := List.map_eq_cons_iff.mp hids.symm
        dsimp only at hpre hrows
        rw [hcart] at hpre hrows
        obtain ⟨hcat, hheld, hrows⟩ := hc.lockRow hq hpre hheld hrows hx
        refine ⟨hh.of_own hcat, hheld, pre ++ [r₀], rest, ?_, rfl, ?_⟩
        · exact hcart.trans (by rw [hpre, List.append_assoc, List.singleton_append])
        · exact hcart ▸ hrows
      | orderCart hne =>
        cases hx
        obtain ⟨hh, hheld, pre, rest, hpre, hids, hrows⟩ := h
        obtain rfl : rest = [] := List.map_eq_nil_iff.mp hids.symm
        obtain rfl := hrows.resolve_right fun hnil => hne hnil.1
        rw [List.append_nil] at hpre
        refine ⟨hh.of_own fun _ => rfl, hpre ▸ hheld, ?_⟩
        cases req with
        | checkoutCart => exact congrArg (List.map _) hpre
        | _ => exact absurd hpre.symm hne
      | selectProduct => exact At.selectProduct h hs hx
      | insertOrderItem =>
        simp only [exec] at hx
        split at hx
        · cases hx
        · rename_i hq
          split at hx
          · cases hx
          · cases hx
            exact ⟨Int.not_le.mp hq, h.1.of_own fun _ => rfl, h.2⟩
      | decrementAmount =>
        obtain ⟨hpos, hh, hcovers, hcart, hlines⟩ := h
        obtain ⟨row, hown, -⟩ := hh.held _ List.mem_cons_self
        have hview := Table.view_of_own hown
        have hpay := hh.pay hcovers hpos hview
        simp only [exec, hview] at hx
        split at hx
        · cases hx
        · split at hx
          · cases hx
          · cases hx
            exact ⟨hpay, hcart, hlines.trans (by rw [List.append_assoc, List.singleton_append])⟩
      | insertHistory | selectOrderItems | dateNow =>
        cases hx
        exact ⟨h.1.of_own fun _ => rfl, h.2⟩
      | snapshotDelete hown =>
        cases hx
        have hcart := cart_of_owner d₀ hown
        refine ⟨h.1, h.2.1.snapshotDelete fun r hr => ((mem_cartOf hq.cartId).mp (hcart ▸ hr)).2, fun i hi => ?_⟩
        obtain ⟨r, hr, rfl⟩ := List.mem_map.mp hi
        obtain ⟨hrow, hu⟩ := List.mem_filter.mp hr
        obtain ⟨i, hview⟩ := Table.mem_rows.mp hrow
        have hfound := hc.found hq (fun r hr => hcart ▸ hr) (fun r hr => ⟨_, h.2.1.1 r hr⟩) hview (by simpa using hu)
        obtain ⟨r', hr', rfl⟩ := List.mem_map.mp (h.2.1.2 i hfound)
        cases hview.symm.trans (Table.view_of_own (h.2.1.1 r' hr'))
        exact hfound
      | deleteCartRow hown =>
        have hcart := cart_of_owner d₀ hown
        have hfound : ∀ i r, d.cart.view c i = some r → r.userId = _ → d.cart.own c i ≠ none :=
          fun i r hv hu => hc.found hq (fun r hr => hcart ▸ hr) h.2.1.locked hv hu
        obtain ⟨t, rfl, ht⟩ := h.2.1.delete (fun r hr => ((mem_cartOf hq.cartId).mp (hcart ▸ hr)).2) (fun _ => hfound _) hx
        refine ⟨h.1.of_own fun _ => rfl, ht, fun j hj => ?_⟩
        exact (exec_change hx (by simp) (by simp)).own_cart (h.2.2 j (List.mem_cons_of_mem _ hj))

/-- Statements other than `COMMIT` publish nothing. -/
theorem May.committed {m : Move} {q : Stmt} {r : Answer q} (hm : x.phase.May x.req q) (hq : q ≠ .commit)
    (ha : act m c q d = some (r, d')) : (∀ i, d'.catalog.committed i = d.catalog.committed i) ∧
      (∀ i, d'.cart.committed i = d.cart.committed i) ∧ d'.cart.next = d.cart.next := by
  cases m with
  | fail e =>
    obtain ⟨-, rfl⟩ := act_fail ha
    exact ⟨fun _ => rfl, fun _ => rfl, rfl⟩
  | run now =>
    generalize hp : x.phase = p at hm
    cases hm with
    | commit | commitCart => exact absurd rfl hq
    | rollback =>
      cases ha
      exact ⟨fun _ => Table.committed_rollback, fun _ => Table.committed_rollback, rfl⟩
    | begin | insertOrder | snapshotCart | orderCart | insertHistory | selectOrderItems | dateNow | snapshotDelete =>
      cases ha
      exact ⟨fun _ => rfl, fun _ => rfl, rfl⟩
    | lockCartRow | selectProduct | insertOrderItem | decrementAmount | deleteCartRow =>
      simp only [act, exec] at ha
      repeat' split at ha
      all_goals cases ha
      all_goals exact ⟨fun _ => by simp, fun _ => by simp, rfl⟩

theorem Stocks.commit (h : Stocks d₀ d) (hh : Holds c ps done d) : Stocks d₀ (d.commit c) := by
  intro p row hp
  have hp : (d.catalog.commit c).committed p = some row := hp
  rw [Table.committed_commit] at hp
  by_cases hmem : p ∈ ps
  · obtain ⟨row', hown, -, -, hle⟩ := hh.held p hmem
    rw [hown] at hp
    cases hp
    obtain ⟨-, row₀, h₀, hdel, hact, hamount⟩ := h p row' (Table.own_committed hown)
    have hnonneg := lineQuantity_nonneg (p := p) hh.positive
    refine ⟨?_, row₀, h₀, hdel, hact, ?_⟩
    · change 0 ≤ row'.amount - lineQuantity p done
      omega
    · change row'.amount - lineQuantity p done ≤ row₀.amount
      omega
  · rw [hh.others p hmem] at hp
    exact h p row hp

/-- A commit publishes what it has deleted: nothing, or a whole cart. -/
theorem Carts.commit {rows : List CartItem} (h : Carts d₀ d) (hq : Quiet d₀)
    (hdel : Deleting True rows [] (d.cart.own c)) (hrows : rows = [] ∨ ∃ u, rows = cartOf d₀ u) :
    Carts d₀ (d.commit c) := by
  have hgone : ∀ i v w, d.cart.own c i = some (v, w) → w = none := by
    intro i v w hi
    rcases hdel.rest i v w hi with hw | ⟨hin, -⟩
    · exact hw
    · cases hin
  have hkept : ∀ i, d.cart.own c i = none → (d.cart.commit c).committed i = d.cart.committed i := by
    intro i hi
    rw [Table.committed_commit, hi]
    rfl
  refine ⟨h.next, fun i r hi => ?_, fun u => ?_⟩
  · have hi : (d.cart.commit c).committed i = some r := hi
    rcases ho : d.cart.own c i with _ | ⟨v, w⟩
    · exact h.rows i r ((hkept i ho).symm.trans hi)
    · obtain rfl := hgone i v w ho
      rw [Table.committed_commit, ho] at hi
      cases hi
  · by_cases hu : rows = cartOf d₀ u
    · refine Or.inr fun r hr => ?_
      obtain ⟨w, hw⟩ := hdel.locked r (hu ▸ hr)
      obtain rfl := hgone _ _ _ hw
      exact Table.dead_of_deleted hw
    · have hnone : ∀ r ∈ cartOf d₀ u, d.cart.own c r.id = none := by
        intro r hr
        by_contra hne
        obtain ⟨r', hr', hid⟩ := List.mem_map.mp (hdel.only trivial r.id hne)
        rcases hrows with rfl | ⟨u', rfl⟩
        · cases hr'
        · obtain ⟨h₀, hu'⟩ := (mem_cartOf hq.cartId).mp hr'
          obtain ⟨h₁, hu₁⟩ := (mem_cartOf hq.cartId).mp hr
          rw [hid, h₁] at h₀
          cases h₀
          exact hu (by rw [← hu', hu₁])
      rcases h.whole u with hwhole | hdead
      · exact Or.inl fun r hr => (hkept r.id (hnone r hr)).trans (hwhole r hr)
      · exact Or.inr fun r hr => (hdead r hr).commit

theorem Stocks.of_committed (h : Stocks d₀ d) (hc : ∀ i, d'.catalog.committed i = d.catalog.committed i) :
    Stocks d₀ d' :=
  fun p row hp => h p row ((hc p).symm.trans hp)

theorem Carts.of_committed (h : Carts d₀ d) (hc : ∀ i, d'.cart.committed i = d.cart.committed i)
    (hn : d'.cart.next = d.cart.next) (hd : ∀ i, d.cart.Dead i → d'.cart.Dead i) : Carts d₀ d' where
  next := hn.trans h.next
  rows i r hi := h.rows i r ((hc i).symm.trans hi)
  whole u := (h.whole u).imp (fun hw r hr => (hc r.id).trans (hw r hr)) fun hg r hr => hd r.id (hg r hr)

/-- What a call may commit. -/
theorem At.commit (h : At d₀ c x d) (hq : Quiet d₀) (hs : Stocks d₀ d) (hc : Carts d₀ d)
    (hm : x.phase.May x.req .commit) : Stocks d₀ (d.commit c) ∧ Carts d₀ (d.commit c) := by
  obtain ⟨r, p⟩ := x
  cases hm with
  | commit hown =>
    obtain ⟨hh, hheld, -⟩ := h
    have hnone : ∀ i, d.cart.own c i = none := fun i => by
      by_contra hne
      have hin := hheld.2 i hne
      rw [cart_of_no_owner _ hown] at hin
      cases hin
    have hdel : Deleting True [] [] (d.cart.own c) := by
      refine ⟨nofun, fun i v w hi => ?_, fun _ i hi => ?_⟩
      · rw [hnone] at hi
        cases hi
      · exact absurd (hnone i) hi
    exact ⟨hs.commit hh, hc.commit hq hdel (Or.inl rfl)⟩
  | commitCart hown =>
    obtain ⟨u, hu⟩ := Option.ne_none_iff_exists'.mp hown
    exact ⟨hs.commit h.1, hc.commit hq h.2.1 (Or.inr ⟨u, cart_of_owner _ hu⟩)⟩

/-- A step of a call keeps what holds of the locks. -/
theorem Locks.step {ph : Client → Stage} {e : Taken} (h : Locks req d₀ ph d) (hq : Quiet d₀)
    (hm : (ph e.client).phase.May (ph e.client).req e.stmt)
    (ha : act e.move e.client e.stmt d = some (e.reply, d')) : Locks req d₀ (noted Stage.after ph e) d' := by
  have hdead : ∀ i, d.cart.Dead i → d'.cart.Dead i := fun i => act_dead ha
  have htables : Stocks d₀ d' ∧ Carts d₀ d' := by
    by_cases hcommit : e.stmt = .commit
    · obtain ⟨c, m, q, r⟩ := e
      dsimp only at hcommit hm ha
      subst hcommit
      cases m with
      | fail err =>
        obtain ⟨-, rfl⟩ := act_fail ha
        exact ⟨h.stocks, h.carts⟩
      | run now =>
        cases ha
        exact (h.at_phase c).commit hq h.stocks h.carts hm
    · obtain ⟨hcat, hcart, hnext⟩ := May.committed hm hcommit ha
      exact ⟨h.stocks.of_committed hcat, h.carts.of_committed hcart hnext hdead⟩
  constructor
  · intro c
    rcases noted_or Stage.after ph e c with ⟨rfl, hn⟩ | ⟨-, hn⟩
    · rw [hn, ← h.stage]
      cases e.reply <;> rfl
    · rw [hn, h.stage]
  · exact htables.1
  · exact htables.2
  · intro c
    rcases noted_or Stage.after ph e c with ⟨rfl, hn⟩ | ⟨hne, hn⟩
    · rw [hn]
      exact (h.at_phase _).step hq h.stocks h.carts hm ha
    · rw [hn]
      exact (h.at_phase c).of_rely (act_rely ha hne) hdead

end Invariant

section Runs
variable {req : Client → Request} {d₀ : Db} {drv : Driver} {xs : List Taken} {s t : State} {ph : Client → Stage}

theorem Quiet.locks (hq : Quiet d₀) : Locks req d₀ (fun c => ⟨req c, .closed⟩) d₀ where
  stage _ := rfl
  stocks p row hp := ⟨hq.amount p row hp, row, hp, rfl, rfl, Int.le_refl _⟩
  carts := ⟨rfl, fun _ _ h => h, fun _ => Or.inl fun _ hr => ((mem_cartOf hq.cartId).mp hr).1⟩
  at_phase _ := ⟨holds_nothing (own_of_quiet hq.catalog), held_nothing (own_of_quiet hq.cart)⟩

/-- The calls keep to their phases, and to the locks that those have. -/
theorem locks_run (hq : Quiet d₀) (hreq : ∀ c, (req c).buyer.isSome)
    (hr : Trace.Run (Step act) (initial drv req d₀) xs s) :
    ∃ ph, InPhase placing (fun _ _ => True) ph s ∧ Locks req d₀ ph s.db := by
  have hstart : InPhase placing (fun _ _ => True) (fun c => ⟨req c, .closed⟩) (initial drv req d₀) ∧
      Locks req d₀ (fun c => ⟨req c, .closed⟩) (initial drv req d₀).db := ⟨initial_placing hreq, hq.locks⟩
  refine ⟨_, (kept_run Stage.after hr _).preserves
    (I := fun u => InPhase placing (fun _ _ => True) u.2 u.1 ∧ Locks req d₀ u.2 u.1.db) ?_ hstart⟩
  · rintro ⟨s, ph⟩ e ⟨t, ph'⟩ ⟨hs, rfl⟩ ⟨hp, hl⟩
    obtain ⟨hm, hp'⟩ := hp.noted hs
    exact ⟨hp', hl.step hq hm hs.acted⟩

theorem own_of_holder {V : Type} {t : Table Client V} {i : Nat} {b : Client}
    (h : (t.cell i).held.map Prod.fst = some b) : t.own b i ≠ none := by
  obtain ⟨⟨b', w⟩, hheld, rfl⟩ := Option.map_eq_some_iff.mp h
  simp [Table.own, Cell.own, hheld]

/-- A statement that has to wait finds its row locked by somebody else. -/
theorem blocked_row {c b : Client} {q : Stmt} {row : LockRow} {d : Db} (hx : exec 0 c q d = none)
    (hlocks : q.locks = some row) (hholder : row.holder d = some b) : b ≠ c := by
  rintro rfl
  cases q with
  | selectProductForUpdate p | decrementAmount n p | updateProduct p dto =>
    cases hlocks
    have hf : d.catalog.free b p = true := Table.free_of_own (own_of_holder hholder)
    simp only [exec, hf, if_true, not_true, if_false] at hx
    repeat' split at hx
    all_goals cases hx
  | lockCartRow i u | deleteCartRow i u =>
    cases hlocks
    have hf : d.cart.free b i = true := Table.free_of_own (own_of_holder hholder)
    simp only [exec, hf, not_true, if_false] at hx
    repeat' split at hx
    all_goals cases hx
  | _ => cases hlocks

/-- What a call that waits asks for, and that another one holds it. -/
theorem waits_cases {b c : Client} (hp : InPhase placing (fun _ _ => True) ph s) (hl : Locks req d₀ ph s.db)
    (hw : WaitsFor s c b) : b ≠ c ∧
      ((∃ done item rest, (ph c).phase = .choosing done (item :: rest) ∧ s.db.catalog.own b item.productId ≠ none) ∨
      ∃ rows i ids, (ph c).phase = .carting rows (i :: ids) ∧ s.db.cart.own b i ≠ none) := by
  obtain ⟨q, row, hnext, hx, hlocks, hholder⟩ := hw
  have hne := blocked_row (hx 0) hlocks hholder
  have hm := hp.permitted hnext (.error .connection)
  have hat := hl.at_phase c
  unfold At at hat
  refine ⟨hne, ?_⟩
  generalize (ph c).phase = p at hm hat
  cases hm with
  | selectProduct =>
    cases hlocks
    exact Or.inl ⟨_, _, _, rfl, own_of_holder hholder⟩
  | lockCartRow =>
    cases hlocks
    exact Or.inr ⟨_, _, _, rfl, own_of_holder hholder⟩
  | decrementAmount =>
    -- its product is locked already
    cases hlocks
    obtain ⟨r, hown, -⟩ := hat.2.1.held _ List.mem_cons_self
    exact absurd (Table.free_iff_of_own (by simp [hown]) (Table.free_of_own (own_of_holder hholder))) hne
  | deleteCartRow =>
    cases hlocks
    have hown := hat.2.2 _ List.mem_cons_self
    exact absurd (Table.free_iff_of_own hown (Table.free_of_own (own_of_holder hholder))) hne
  | _ => cases hlocks

/-- The phases in which a call waits. -/
def Phase.waits : Phase → Prop
  | .choosing _ (_ :: _) => True
  | .carting _ (_ :: _) => True
  | _ => False

/-- A call that waits and has locked a row of a cart has locked the first one, too. -/
theorem At.first_row {b : Client} {x : Stage} {d : Db} {i : Nat} (h : At d₀ b x d) (hw : x.phase.waits)
    (hi : d.cart.own b i ≠ none) : ∃ r₀ rest, x.req.cart d₀ = r₀ :: rest ∧ d.cart.own b r₀.id ≠ none ∧
      i ∈ (x.req.cart d₀).map (·.id) := by
  obtain ⟨pre, rest, hcart, hheld⟩ : ∃ pre rest, x.req.cart d₀ = pre ++ rest ∧ Held pre (d.cart.own b) := by
    obtain ⟨r, p⟩ := x
    cases p with
    | choosing done rest => exact ⟨_, [], (List.append_nil _).symm, h.2.1⟩
    | carting rows todo =>
      obtain ⟨-, hheld, pre, rest, hcart, -, rfl | ⟨rfl, -⟩⟩ := h
      · exact ⟨rows, rest, hcart, hheld⟩
      · exact ⟨[], _, rfl, hheld⟩
    | _ => cases hw
  have hmem := hheld.2 i hi
  rcases pre with _ | ⟨r₀, pre⟩
  · cases hmem
  · refine ⟨r₀, pre ++ rest, hcart, by simp [hheld.1 r₀ List.mem_cons_self], ?_⟩
    rw [hcart, List.map_append]
    exact List.mem_append_left _ hmem

/-- Calls that lock rows of one cart start with the same one. -/
theorem cart_eq_of_mem (hq : Quiet d₀) {r r' : Request} {i : Nat} (hi : i ∈ (r.cart d₀).map (·.id))
    (hi' : i ∈ (r'.cart d₀).map (·.id)) : r.cart d₀ = r'.cart d₀ := by
  have howner : ∀ {r : Request}, i ∈ (r.cart d₀).map (·.id) →
      ∃ u x, r.cart d₀ = cartOf d₀ u ∧ d₀.cart.committed i = some x ∧ x.userId = u := by
    intro r hi
    obtain ⟨x, hx, rfl⟩ := List.mem_map.mp hi
    rcases ho : r.cartOwner with _ | u
    · rw [cart_of_no_owner _ ho] at hx
      cases hx
    · rw [cart_of_owner _ ho] at hx ⊢
      exact ⟨u, x, rfl, (mem_cartOf hq.cartId).mp hx⟩
  obtain ⟨u, x, hr, hx, rfl⟩ := howner hi
  obtain ⟨u', x', hr', hx', rfl⟩ := howner hi'
  cases hx.symm.trans hx'
  rw [hr, hr']

/-- A call that others wait for, and that waits itself, waits for a product. -/
theorem waits_for_product (hq : Quiet d₀) {a b c : Client} (hp : InPhase placing (fun _ _ => True) ph s)
    (hl : Locks req d₀ ph s.db) (hab : WaitsFor s a b) (hbc : WaitsFor s b c) (hc : (ph c).phase.waits) :
    ∃ done item rest, (ph b).phase = .choosing done (item :: rest) := by
  obtain ⟨hne, ⟨done, item, rest, hb, -⟩ | ⟨rows, i, ids, hb, hown⟩⟩ := waits_cases hp hl hbc
  · exact ⟨done, item, rest, hb⟩
  · exfalso
    have hb_at := hl.at_phase b
    have hwaits : (ph b).phase.waits := by rw [hb]; trivial
    have hrows : Holds b [] [] s.db ∧ i ∈ ((ph b).req.cart d₀).map (·.id) := by
      unfold At at hb_at
      rw [hb] at hb_at
      obtain ⟨hh, -, pre, rest, hcart, hids, -⟩ := hb_at
      refine ⟨hh, ?_⟩
      rw [hcart, List.map_append, ← hids]
      exact List.mem_append_right _ List.mem_cons_self
    obtain ⟨-, ⟨_, item, _, _, howned⟩ | ⟨_, j, _, _, howned⟩⟩ := waits_cases hp hl hab
    · exact howned (hrows.1.others item.productId List.not_mem_nil)
    · obtain ⟨r₀, rest, hcart, hfirst, -⟩ := hb_at.first_row hwaits howned
      obtain ⟨r₁, rest', hcart', hfirst', hi'⟩ := (hl.at_phase c).first_row hc hown
      have heq := cart_eq_of_mem hq hrows.2 hi'
      rw [hcart, hcart'] at heq
      cases heq
      exact hne (Table.free_iff_of_own hfirst (Table.free_of_own hfirst'))

theorem waits_phase {b c : Client} (hp : InPhase placing (fun _ _ => True) ph s) (hl : Locks req d₀ ph s.db)
    (hw : WaitsFor s b c) : (ph b).phase.waits := by
  obtain ⟨-, ⟨done, item, rest, hb, -⟩ | ⟨rows, i, ids, hb, -⟩⟩ := waits_cases hp hl hw <;>
  · rw [hb]
    trivial

/-- The number of lines that a call has gone through. -/
def Phase.through : Phase → Nat
  | .choosing done _ => done.length
  | _ => 0

theorem Holds.fits {c : Client} {done : List OrderLine} {d : Db} (h : Holds c (products done) done d)
    (hs : Stocks d₀ d) : Fits d₀ done := by
  intro l hl
  obtain ⟨row, hown, hdel, hact, hle⟩ := h.held l.productId (List.mem_map_of_mem hl)
  obtain ⟨-, row₀, h₀, hdel', hact', hamount⟩ := hs _ row (Table.own_committed hown)
  exact ⟨row₀, h₀, hdel'.trans hdel, hact'.trans hact, by omega⟩

/-- A call between two rounds of its loop has gone through its lines so far, and holds their products. -/
theorem Locks.choosing {c : Client} (hl : Locks req d₀ ph s.db)
    (hc : ∃ done item rest, (ph c).phase = .choosing done (item :: rest)) :
    ∃ done item rest, (ph c).phase = .choosing done (item :: rest) ∧
      ((req c).lines d₀).take (ph c).phase.through = done ∧ ((req c).lines d₀)[(ph c).phase.through]? = some item ∧
      Holds c (products done) done s.db := by
  obtain ⟨done, item, rest, hphase⟩ := hc
  have hat := hl.at_phase c
  unfold At at hat
  rw [hphase] at hat
  obtain ⟨hh, -, hlines⟩ := hat
  rw [hl.stage] at hlines
  refine ⟨done, item, rest, hphase, ?_, ?_, hh⟩
  · simp [hlines, hphase, Phase.through]
  · simp [hlines, hphase, Phase.through]

theorem Holds.product {c : Client} {done : List OrderLine} {d : Db} {l : OrderLine}
    (h : Holds c (products done) done d) (hl : l ∈ done) : d.catalog.own c l.productId ≠ none := by
  obtain ⟨row, hown, -⟩ := h.held l.productId (List.mem_map_of_mem hl)
  simp [hown]

/-- Calls that wait for each other in a circle have lines that give a cycle. -/
theorem cycle_of_deadlock (hq : Quiet d₀) (hp : InPhase placing (fun _ _ => True) ph s)
    (hl : Locks req d₀ ph s.db) (hd : Deadlocked s) : ∃ S n, LockCycle d₀ req S n := by
  obtain ⟨c, hcycle⟩ := hd
  obtain ⟨S, hS⟩ := WaitFor.knot_of_cycle hcycle
  have hproduct : ∀ a ∈ S, ∀ b ∈ S, WaitsFor s a b → ∃ done item rest, (ph b).phase = .choosing done (item :: rest) := by
    intro a ha b hb hab
    obtain ⟨c, hc, hbc⟩ := hS.waits b hb
    obtain ⟨c', -, hcc'⟩ := hS.waits c hc
    exact waits_for_product hq hp hl hab hbc (waits_phase hp hl hcc')
  obtain ⟨K, hK, hphase⟩ := hS.restrict hproduct
  refine ⟨K, fun c => (ph c).phase.through, hK.nonempty, fun c hc => ?_, fun c hc => ?_, fun b hb c hc hne => ?_,
    fun c hc => ?_⟩
  · obtain ⟨done, item, rest, -, htake, -, hh⟩ := hl.choosing (hphase c hc)
    exact htake ▸ hh.positive
  · obtain ⟨done, item, rest, -, htake, -, hh⟩ := hl.choosing (hphase c hc)
    exact htake ▸ hh.fits hl.stocks
  · obtain ⟨done, item, rest, -, htake, -, hh⟩ := hl.choosing (hphase b hb)
    obtain ⟨done', item', rest', -, htake', -, hh'⟩ := hl.choosing (hphase c hc)
    intro l hl m hm heq
    have hown := hh.product (htake ▸ hl)
    have hown' := hh'.product (htake' ▸ hm)
    rw [heq] at hown
    exact hne (Table.free_iff_of_own hown' (Table.free_of_own hown))
  · obtain ⟨b, hb, hcb⟩ := hK.waits c hc
    obtain ⟨done, item, rest, hpc, -, hnext, -⟩ := hl.choosing (hphase c hc)
    obtain ⟨done', item', rest', -, htake', -, hh'⟩ := hl.choosing (hphase b hb)
    obtain ⟨hne, ⟨_, item₁, _, hpc', hown⟩ | ⟨_, _, _, hpc', -⟩⟩ := waits_cases hp hl hcb
    · cases hpc.symm.trans hpc'
      refine ⟨item, hnext, b, hb, hne, ?_⟩
      have hmem : item.productId ∈ products done' := by
        by_contra hn
        exact hown (hh'.others _ hn)
      obtain ⟨m, hm, he⟩ := List.mem_map.mp hmem
      exact ⟨m, htake' ▸ hm, he⟩
    · cases hpc.symm.trans hpc'

/-- Calls that place orders never wait for each other in a circle, in any run from a store in which
their lines give no cycle. -/
theorem orders_deadlock_free (hq : Quiet d₀) (hreq : ∀ c, (req c).buyer.isSome)
    (hno : ∀ S n, ¬ LockCycle d₀ req S n) (hr : Trace.Run (Step act) (initial drv req d₀) xs s) : ¬ Deadlocked s := by
  intro hd
  obtain ⟨ph, hp, hl⟩ := locks_run hq hreq hr
  obtain ⟨S, n, hcycle⟩ := cycle_of_deadlock hq hp hl hd
  exact hno S n hcycle

/-- Lines in the order of their products give no cycle. -/
theorem no_cycle_of_ascending {S : Finset Client} {n : Client → Nat}
    (h : ∀ c, ((req c).lines d₀).Pairwise fun l m => l.productId ≤ m.productId) : ¬ LockCycle d₀ req S n := by
  intro hc
  let wanted : Client → Nat := fun c => (((req c).lines d₀)[n c]?.map (·.productId)).getD 0
  obtain ⟨c, hcS, hmax⟩ := Finset.exists_max_image S wanted hc.nonempty
  obtain ⟨l, hl, b, hb, -, m, hm, hml⟩ := hc.next c hcS
  obtain ⟨k, hk, a, ha, hab, x, hx, hxk⟩ := hc.next b hb
  have hbefore : m.productId ≤ k.productId := by
    have hsorted := h b
    rw [← List.take_append_drop (n b) ((req b).lines d₀)] at hsorted
    refine (List.pairwise_append.mp hsorted).2.2 m hm k (List.mem_of_getElem? (i := 0) ?_)
    rw [List.getElem?_drop, Nat.add_zero, hk]
  have hlast : k.productId ≤ l.productId := by simpa [wanted, hl, hk] using hmax b hb
  exact hc.apart a ha b hb hab x hx m hm (by omega)

end Runs

section Swap

/-- A shade, a lamp and a bulb product, five of each. -/
def lights : Db := stocked
  [{ title := "Shade", description := "", amount := 5, price := "4.00" },
   { title := "Lamp", description := "", amount := 5, price := "10.00" },
   { title := "Bulb", description := "", amount := 5, price := "2.50" }]

theorem lights_quiet : Quiet lights := stocked_quiet (by decide)

/-- Two calls that buy a lamp and a bulb, each with its own order of the lines. -/
def buying (first second : List OrderLine) : Client → Request
  | 0 => .createOrder 1 "Giza" first
  | 1 => .createOrder 2 "Cairo" second
  | _ => .createOrder 3 "Luxor" []

/-- The next statement of `c` locks a product that `b` has locked. -/
def stuck (c b : Client) (s : State) : Bool :=
  match s.prog c with
  | .call (.selectProductForUpdate p) _ =>
    (s.db.catalog.view c p).any (fun row => !row.deleted) && !s.db.catalog.free c p &&
      (s.db.catalog.cell p).held.map Prod.fst = some b
  | _ => false

theorem waitsFor_of_stuck {c b : Client} {s : State} (h : stuck c b s = true) : WaitsFor s c b := by
  unfold stuck at h
  split at h
  · rename_i p k hp
    simp only [Bool.and_eq_true, decide_eq_true_eq, Bool.not_eq_true', Option.any_eq_true] at h
    obtain ⟨⟨⟨row, hview, hdel⟩, hfree⟩, hholder⟩ := h
    refine ⟨.selectProductForUpdate p, .product p, ⟨k, hp⟩, fun now => ?_, rfl, hholder⟩
    simp [exec, hview, hdel, hfree]
  · cases h

/-- One call buys a lamp and then a bulb, the other one a bulb and then a lamp: each comes to wait
for the product that the other one has locked. -/
theorem orders_deadlock : ∃ xs t,
    Trace.Run (Step act) (initial plainDriver (buying [⟨1, 1⟩, ⟨2, 1⟩] [⟨2, 1⟩, ⟨1, 1⟩]) lights) xs t ∧
      Deadlocked t := by
  have hplay : (playTurns (buying [⟨1, 1⟩, ⟨2, 1⟩] [⟨2, 1⟩, ⟨1, 1⟩]) lights [(0, 5), (1, 5)]).map
      (fun t => (stuck 0 1 t, stuck 1 0 t)) = some (true, true) := by decide +kernel
  obtain ⟨xs, t, hr, ho⟩ := playTurns_run hplay
  simp only [Prod.mk.injEq] at ho
  exact ⟨xs, t, hr, 0, .tail (.single (waitsFor_of_stuck ho.1)) (waitsFor_of_stuck ho.2)⟩

/-- Both buy the lamp first: the second call waits for the first one, and nothing more happens. -/
theorem orders_deadlock_free_sorted : ∃ xs t,
    Trace.Run (Step act) (initial plainDriver (buying [⟨1, 1⟩, ⟨2, 1⟩] [⟨1, 1⟩, ⟨2, 1⟩]) lights) xs t ∧
      WaitsFor t 1 0 ∧ ¬ Deadlocked t := by
  have hplay : (playTurns (buying [⟨1, 1⟩, ⟨2, 1⟩] [⟨1, 1⟩, ⟨2, 1⟩]) lights [(0, 5), (1, 2)]).map
      (stuck 1 0) = some true := by decide +kernel
  obtain ⟨xs, t, hr, ho⟩ := playTurns_run hplay
  have hbuyer : ∀ c, (buying [⟨1, 1⟩, ⟨2, 1⟩] [⟨1, 1⟩, ⟨2, 1⟩] c).buyer.isSome := by
    intro c
    rcases c with _ | _ | c <;> rfl
  have hsorted : ∀ c, ((buying [⟨1, 1⟩, ⟨2, 1⟩] [⟨1, 1⟩, ⟨2, 1⟩] c).lines lights).Pairwise
      fun l m => l.productId ≤ m.productId := by
    intro c
    rcases c with _ | _ | c
    · exact (by decide : [(⟨1, 1⟩ : OrderLine), ⟨2, 1⟩].Pairwise fun l m => l.productId ≤ m.productId)
    · exact (by decide : [(⟨1, 1⟩ : OrderLine), ⟨2, 1⟩].Pairwise fun l m => l.productId ≤ m.productId)
    · exact .nil
  exact ⟨xs, t, hr, waitsFor_of_stuck ho,
    orders_deadlock_free lights_quiet hbuyer (fun _ _ => no_cycle_of_ascending hsorted) hr⟩

end Swap
end Kayan.Shop
