import Kayan.Shop.Frame
import Mathlib.Algebra.Order.BigOperators.Group.List

/-!
# The shop's invariant

Every committed transaction is in the log. The invariant relates the committed tables to
the log: amounts to what was last set and sold since, order items and orders to what
transactions have published, and carts to what was added, ordered and deleted.
-/
namespace Kayan.Shop
open RowStore Interleave

section Ledger

/-- The amount of a product that committed transactions, newest first, have set last. -/
def lastSet (start : Option Int) (p : Nat) : List Commit → Option Int
  | [] => start
  | x :: older => (x.sets.lookup p).or (lastSet start p older)

/-- The quantity of a product in the order items committed since its amount was last set. -/
def soldSince (p : Nat) : List Commit → Int
  | [] => 0
  | x :: older => quantityOf p x.items + if (x.sets.lookup p).isSome then 0 else soldSince p older

/-- What a cart row counts for a user and a product. -/
def CartItem.units (u p : Nat) (r : CartItem) : Int :=
  if u = r.userId ∧ p = r.productId then r.quantity else 0

/-- The quantity of a product that a user has in a list of cart rows. -/
def cartQuantity (u p : Nat) (rows : List CartItem) : Int := (rows.map (CartItem.units u p)).sum

variable (req : Client → Request)

/-- What a committed transaction counts as checked out by a user. -/
def checkedOutBy (u p : Nat) (x : Commit) : Int :=
  match req x.client with
  | .checkoutCart userId _ => if userId = u then quantityOf p x.items else 0
  | _ => 0

/-- The quantity of a product in the orders that the checkouts of a user have committed. -/
def checkedOut (u p : Nat) (log : List Commit) : Int := (log.map (checkedOutBy req u p)).sum

/-- The user for whom a call creates an order. -/
def Request.buyer : Request → Option Nat
  | .createOrder userId _ _ => some userId
  | .checkoutCart userId _ => some userId
  | _ => none

/-- One order of the user, with items for the given lines. -/
def OneOrder (u : Nat) (lines : List OrderLine) (x : Commit) : Prop :=
  ∃ o, x.orders = [o] ∧ o.userId = u ∧ (∀ r ∈ x.items, r.orderId = o.id) ∧
    x.items.map OrderItem.line = lines

/-- What the transaction of each call publishes when it commits. A checkout orders cart
rows that it deletes; under `strict` it deletes no others. -/
def Published (strict : Prop) (x : Commit) : Prop :=
  match req x.client with
  | .createOrder userId _ items => x.sets = [] ∧ x.taken = [] ∧ OneOrder userId items x
  | .checkoutCart userId _ => x.sets = [] ∧ ∃ rows : List CartItem,
      OneOrder userId (rows.map CartItem.line) x ∧ (∀ r ∈ rows, r.userId = userId) ∧
      rows.Subperm x.taken ∧ (strict → rows.Perm x.taken)
  | .adminCreateProduct dto => x.orders = [] ∧ x.items = [] ∧ x.taken = [] ∧ ∃ p, x.sets = [(p, dto.amount)]
  | .adminUpdateProduct p dto => x.orders = [] ∧ x.items = [] ∧ x.taken = [] ∧
      x.sets = (dto.amount.map fun a => (p, a)).toList
  | _ => False

end Ledger

section Invariant
variable (req : Client → Request) (d₀ : Db) (strict : Prop)

/-- What holds of the committed tables in every run from `d₀`. -/
structure Inv (d : Db) : Prop where
  published : ∀ x ∈ d.log, Published req strict x
  stock : ∀ p row, d.catalog.committed p = some row → 0 ≤ row.amount ∧
    ∃ a, lastSet ((d₀.catalog.committed p).map (·.amount)) p d.log = some a ∧
      row.amount = a - soldSince p d.log
  items : d.items.committedRows.Perm (d.log.flatMap (·.items) ++ d₀.items.committedRows)
  orders : (d.orders.committedRows.map fun o => (o.id, o.userId)).Perm
    ((d.log.flatMap (·.orders) ++ d₀.orders.committedRows).map fun o => (o.id, o.userId))
  owner : ∀ x ∈ d.log, ∀ r ∈ x.items,
    ∃ o, d.orders.committed r.orderId = some o ∧ (req x.client).buyer = some o.userId
  kept : ∀ i o, d₀.orders.committed i = some o →
    ∃ o', d.orders.committed i = some o' ∧ o'.userId = o.userId
  cartRow : ∀ i r, d.cart.committed i = some r → r.id = i ∧ 0 < r.quantity
  cart : ∀ u p, cartQuantity u p d.cart.committedRows + checkedOut req u p d.log ≤
    cartQuantity u p d₀.cart.committedRows + d.added u p
  cartStrict : strict → ∀ u p, cartQuantity u p d.cart.committedRows + checkedOut req u p d.log =
    cartQuantity u p d₀.cart.committedRows + d.added u p
  takenOnce : ((d.log.flatMap (·.taken)).map (·.id)).Nodup
  gone : ∀ x ∈ d.log, ∀ r ∈ x.taken, d.cart.Dead r.id

/-- The amounts that the open transaction of `c` has written are what it has set or found,
less the items it has inserted; `off` of them are not decremented yet. -/
def Balanced (c : Client) (off : Nat → Int) (d : Db) : Prop :=
  ∀ p, match d.catalog.own c p with
    | none => (d.amountSet c).lookup p = none ∧ quantityOf p (d.items.pending c) = 0
    | some (v, w) => ∃ row a, w = some row ∧ 0 ≤ row.amount ∧
        ((d.amountSet c).lookup p).or (v.map (·.amount)) = some a ∧
        row.amount = a - quantityOf p (d.items.pending c) + off p

/-- What the open transaction of `c` has to satisfy when it commits. -/
structure Ready (c : Client) (d : Db) : Prop where
  published : Published req strict (d.record c)
  balanced : Balanced c (fun _ => 0) d
  orders : d.orders.Inserts c
  items : d.items.Inserts c
  owner : ∀ r ∈ d.items.pending c,
    ∃ o, d.orders.own c r.orderId = some (none, some o) ∧ (req c).buyer = some o.userId
  cart : ∀ i v w, d.cart.own c i = some (v, w) → w = none

end Invariant

section Sums
variable {req : Client → Request} {strict : Prop} {u p : Nat} {x : Commit} {rows : List CartItem}

theorem quantityOf_lines (items : List OrderItem) :
    quantityOf p items =
      ((items.map OrderItem.line).map fun l => if l.productId = p then l.quantity else 0).sum := by
  rw [quantityOf, List.map_map]
  rfl

theorem quantityOf_append (xs ys : List OrderItem) :
    quantityOf p (xs ++ ys) = quantityOf p xs + quantityOf p ys := by
  simp [quantityOf]

/-- Cart rows of one user count for that user what an order with their lines counts. -/
theorem cartQuantity_of_lines {items : List OrderItem}
    (hl : items.map OrderItem.line = rows.map CartItem.line) (hu : ∀ r ∈ rows, r.userId = u) :
    quantityOf p items = cartQuantity u p rows := by
  rw [quantityOf_lines, hl, List.map_map, cartQuantity]
  congr 1
  refine List.map_congr_left fun r hr => ?_
  by_cases hp : r.productId = p
  · simp [CartItem.units, CartItem.line, hu r hr, hp]
  · simp [CartItem.units, CartItem.line, hp, Ne.symm hp]

theorem cartQuantity_of_other {v : Nat} (hu : ∀ r ∈ rows, r.userId = v) (hv : v ≠ u) :
    cartQuantity u p rows = 0 := by
  refine List.sum_eq_zero fun n hn => ?_
  obtain ⟨r, hr, rfl⟩ := List.mem_map.mp hn
  have hne : u ≠ r.userId := by
    rw [hu r hr]
    exact Ne.symm hv
  simp [CartItem.units, hne]

theorem cartQuantity_perm {rows' : List CartItem} (h : rows.Perm rows') :
    cartQuantity u p rows = cartQuantity u p rows' :=
  (h.map _).sum_eq

theorem units_nonneg {r : CartItem} (h : 0 ≤ r.quantity) : 0 ≤ r.units u p := by
  unfold CartItem.units
  split
  · exact h
  · exact Int.le_refl 0

theorem cartQuantity_subperm {rows' : List CartItem} (h : rows.Subperm rows')
    (hpos : ∀ r ∈ rows', 0 ≤ r.quantity) : cartQuantity u p rows ≤ cartQuantity u p rows' := by
  obtain ⟨xs, hx, hs⟩ := h
  rw [← cartQuantity_perm hx]
  refine (hs.map _).sum_le_sum fun n hn => ?_
  obtain ⟨r, hr, rfl⟩ := List.mem_map.mp hn
  exact units_nonneg (hpos r hr)

/-- A transaction checks out at most what it takes from the carts. -/
theorem checkedOutBy_le (hx : Published req strict x) (hpos : ∀ r ∈ x.taken, 0 ≤ r.quantity) :
    checkedOutBy req u p x ≤ cartQuantity u p x.taken := by
  have hzero : 0 ≤ cartQuantity u p x.taken := cartQuantity_subperm (List.nil_subperm) hpos
  unfold checkedOutBy
  unfold Published at hx
  cases hr : req x.client with
  | checkoutCart v addr =>
    simp only [hr] at hx ⊢
    obtain ⟨-, rows, ⟨o, -, -, -, hl⟩, hu, hs, -⟩ := hx
    by_cases hv : v = u
    · subst hv
      rw [if_pos rfl, cartQuantity_of_lines hl hu]
      exact cartQuantity_subperm hs hpos
    · rw [if_neg hv]
      exact hzero
  | _ => exact hzero

/-- Under `strict` it checks out exactly what it takes. -/
theorem checkedOutBy_eq (hx : Published req strict x) (hs : strict) :
    checkedOutBy req u p x = cartQuantity u p x.taken := by
  unfold checkedOutBy
  unfold Published at hx
  cases hr : req x.client with
  | checkoutCart v addr =>
    simp only [hr] at hx ⊢
    obtain ⟨-, rows, ⟨o, -, -, -, hl⟩, hu, -, hp⟩ := hx
    rw [← cartQuantity_perm (hp hs)]
    by_cases hv : v = u
    · subst hv
      rw [if_pos rfl, cartQuantity_of_lines hl hu]
    · rw [if_neg hv, cartQuantity_of_other hu hv]
  | createOrder =>
    simp only [hr] at hx
    rw [hx.2.1]
    rfl
  | adminCreateProduct | adminUpdateProduct =>
    simp only [hr] at hx
    rw [hx.2.2.1]
    rfl
  | _ =>
    simp only [hr] at hx

end Sums

section Preservation
variable {req : Client → Request} {d₀ : Db} {strict : Prop} {c : Client} {d d' : Db}

theorem cartQuantity_committedRows (u p : Nat) (t : Table Client CartItem) :
    cartQuantity u p t.committedRows = t.total fun v => v.elim 0 (CartItem.units u p) :=
  Table.sum_committedRows _

theorem cartQuantity_append {u p : Nat} {r : CartItem} {t : Table Client CartItem} :
    cartQuantity u p (t.append r).committedRows = cartQuantity u p t.committedRows + r.units u p := by
  rw [cartQuantity_committedRows, cartQuantity_committedRows, Table.total_append]
  rfl

theorem cartQuantity_store {u p i : Nat} {r r' : CartItem} {t : Table Client CartItem}
    (hc : t.committed i = some r) :
    cartQuantity u p (t.store i (some r')).committedRows =
      cartQuantity u p t.committedRows - r.units u p + r'.units u p := by
  rw [cartQuantity_committedRows, cartQuantity_committedRows,
    Table.total_store (Table.lt_of_committed hc), hc]
  rfl

theorem cartQuantity_commit {u p : Nat} {t : Table Client CartItem}
    (h : ∀ i v w, t.own c i = some (v, w) → w = none) :
    cartQuantity u p (t.commit c).committedRows =
      cartQuantity u p t.committedRows - cartQuantity u p (t.deleted c) := by
  rw [cartQuantity_committedRows, cartQuantity_committedRows, Table.total_commit,
    Table.delta_of_deleted _ h]
  rfl

/-- The invariant speaks of nothing but committed rows. -/
theorem Inv.of_committed (h : Inv req d₀ strict d)
    (hcat : ∀ p, d'.catalog.committed p = d.catalog.committed p)
    (hord : ∀ i, d'.orders.committed i = d.orders.committed i)
    (hitem : ∀ i, d'.items.committed i = d.items.committed i)
    (hcart : ∀ i, d'.cart.committed i = d.cart.committed i)
    (hadd : d'.added = d.added) (hlog : d'.log = d.log)
    (hdead : ∀ i, d.cart.Dead i → d'.cart.Dead i) : Inv req d₀ strict d' where
  published := by simpa only [hlog] using h.published
  stock := by simpa only [hlog, hcat] using h.stock
  items := by simpa only [hlog, Table.committedRows_congr hitem] using h.items
  orders := by simpa only [hlog, Table.committedRows_congr hord] using h.orders
  owner := by simpa only [hlog, hord] using h.owner
  kept := by simpa only [hord] using h.kept
  cartRow := by simpa only [hcart] using h.cartRow
  cart := by simpa only [hlog, hadd, Table.committedRows_congr hcart] using h.cart
  cartStrict := by simpa only [hlog, hadd, Table.committedRows_congr hcart] using h.cartStrict
  takenOnce := by simpa only [hlog] using h.takenOnce
  gone := by
    rw [hlog]
    exact fun x hx r hr => hdead r.id (h.gone x hx r hr)

theorem Inv.updateOrder {i : Nat} {o o' : ProductOrder} (h : Inv req d₀ strict d)
    (hc : d.orders.committed i = some o) (hid : o'.id = o.id) (hu : o'.userId = o.userId) :
    Inv req d₀ strict { d with orders := d.orders.store i (some o') } := by
  have hrow : ∀ j x, d.orders.committed j = some x →
      ∃ y, (d.orders.store i (some o')).committed j = some y ∧ y.userId = x.userId := by
    intro j x hx
    rw [Table.committed_store (Table.lt_of_committed hc)]
    by_cases hj : j = i
    · subst hj
      rw [hc] at hx
      cases hx
      exact ⟨o', if_pos rfl, hu⟩
    · exact ⟨x, by rw [if_neg hj, hx], rfl⟩
  refine { h with orders := ?_, owner := ?_, kept := ?_ }
  · rw [Table.map_committedRows_store hc (by rw [hid, hu])]
    exact h.orders
  · intro x hx r hr
    obtain ⟨y, hy, hb⟩ := h.owner x hx r hr
    obtain ⟨z, hz, he⟩ := hrow r.orderId y hy
    exact ⟨z, hz, by rw [hb, he]⟩
  · intro j x hx
    obtain ⟨y, hy, hb⟩ := h.kept j x hx
    obtain ⟨z, hz, he⟩ := hrow j y hy
    exact ⟨z, hz, by rw [he, hb]⟩

theorem Inv.appendCart {r : CartItem} (h : Inv req d₀ strict d) (hid : r.id = d.cart.next)
    (hq : 0 < r.quantity) :
    Inv req d₀ strict
      { d with cart := d.cart.append r,
               added := fun u p => d.added u p + if u = r.userId ∧ p = r.productId then r.quantity else 0 } := by
  refine { h with cartRow := ?_, cart := ?_, cartStrict := ?_, gone := ?_ }
  · intro i x hx
    rw [Table.committed_append] at hx
    split at hx
    · cases hx
      exact ⟨by omega, hq⟩
    · exact h.cartRow i x hx
  · intro u p
    have hup := h.cart u p
    simp only [cartQuantity_append, CartItem.units]
    omega
  · intro hs u p
    have hup := h.cartStrict hs u p
    simp only [cartQuantity_append, CartItem.units]
    omega
  · exact fun x hx r hr => (h.gone x hx r hr).push

theorem Inv.raiseCart {i t : Nat} {r : CartItem} {q : Int} (h : Inv req d₀ strict d)
    (hc : d.cart.committed i = some r) (hq : 0 < r.quantity + q) :
    Inv req d₀ strict
      { d with cart := d.cart.store i (some { r with quantity := r.quantity + q, updatedAt := t }),
               added := fun u p => d.added u p + if u = r.userId ∧ p = r.productId then q else 0 } := by
  have hunits : ∀ u p, CartItem.units u p { r with quantity := r.quantity + q, updatedAt := t } =
      r.units u p + if u = r.userId ∧ p = r.productId then q else 0 := by
    intro u p
    simp only [CartItem.units]
    split_ifs <;> omega
  refine { h with cartRow := ?_, cart := ?_, cartStrict := ?_, gone := ?_ }
  · intro j x hx
    rw [Table.committed_store (Table.lt_of_committed hc)] at hx
    split at hx
    · rename_i hj
      cases hx
      exact ⟨by rw [hj]; exact (h.cartRow i r hc).1, hq⟩
    · exact h.cartRow j x hx
  · intro u p
    have hup := h.cart u p
    simp only [cartQuantity_store hc, hunits]
    omega
  · intro hs u p
    have hup := h.cartStrict hs u p
    simp only [cartQuantity_store hc, hunits]
    omega
  · exact fun x hx y hy => (h.gone x hx y hy).set (Table.cell_ne_of_committed hc)

theorem Inv.rollback (h : Inv req d₀ strict d) : Inv req d₀ strict (d.rollback c) :=
  h.of_committed (fun _ => Table.committed_rollback) (fun _ => Table.committed_rollback)
    (fun _ => Table.committed_rollback) (fun _ => Table.committed_rollback) rfl rfl
    fun _ hi => hi.rollback

/-- Statements within a transaction keep the invariant: they publish nothing but cart
upserts and order states. -/
theorem Inv.change (h : Inv req d₀ strict d) (hc : Change c d d') : Inv req d₀ strict d' := by
  have hdead : ∀ i, d.cart.Dead i → d'.cart.Dead i := fun _ => hc.dead
  cases hc with
  | same => exact h
  | updateOrder hc _ hid hu => exact h.updateOrder hc hid hu
  | appendCart hid hq => exact h.appendCart hid hq
  | raiseCart hc _ hq => exact h.raiseCart hc hq
  | writeProduct =>
    exact h.of_committed (fun _ => Table.committed_write) (fun _ => rfl) (fun _ => rfl)
      (fun _ => rfl) rfl rfl hdead
  | insertProduct =>
    exact h.of_committed (fun _ => Table.committed_insert) (fun _ => rfl) (fun _ => rfl)
      (fun _ => rfl) rfl rfl hdead
  | insertOrder =>
    exact h.of_committed (fun _ => rfl) (fun _ => Table.committed_insert) (fun _ => rfl)
      (fun _ => rfl) rfl rfl hdead
  | insertItem =>
    exact h.of_committed (fun _ => rfl) (fun _ => rfl) (fun _ => Table.committed_insert)
      (fun _ => rfl) rfl rfl hdead
  | insertHistory | appendHistory =>
    exact h.of_committed (fun _ => rfl) (fun _ => rfl) (fun _ => rfl) (fun _ => rfl) rfl rfl hdead
  | writeCart =>
    exact h.of_committed (fun _ => rfl) (fun _ => rfl) (fun _ => rfl)
      (fun _ => Table.committed_write) rfl rfl hdead

/-- The rows that `c` has deleted are committed rows, listed under their own keys. -/
theorem Inv.deleted_row (h : Inv req d₀ strict d) {r : CartItem} (hr : r ∈ d.cart.deleted c) :
    d.cart.own c r.id = some (some r, none) ∧ 0 < r.quantity := by
  obtain ⟨i, hi⟩ := Table.mem_deleted.mp hr
  obtain ⟨rfl, hq⟩ := h.cartRow i r (Table.own_committed hi)
  exact ⟨hi, hq⟩

theorem Inv.deleted_nodup (h : Inv req d₀ strict d) : ((d.cart.deleted c).map (·.id)).Nodup := by
  refine Table.nodup_of_keys (fun i r hi => ?_) d.cart.next
  unfold Table.deletedAt at hi
  split at hi
  · rename_i v ho
    subst hi
    exact (h.cartRow i r (Table.own_committed ho)).1
  · cases hi

theorem Inv.stock_commit (h : Inv req d₀ strict d) (hb : Balanced c (fun _ => 0) d) (p : Nat)
    (row : CatalogProduct) (hp : (d.commit c).catalog.committed p = some row) :
    0 ≤ row.amount ∧ ∃ a, lastSet ((d₀.catalog.committed p).map (·.amount)) p (d.commit c).log = some a ∧
      row.amount = a - soldSince p (d.commit c).log := by
  have hlog : (d.commit c).log = d.record c :: d.log := rfl
  have hrow : ((d.catalog.own c p).map Prod.snd).getD (d.catalog.committed p) = some row := by
    rw [← hp]
    exact Table.committed_commit.symm
  have hp' := hb p
  rw [hlog, lastSet, soldSince]
  rcases ho : d.catalog.own c p with _ | ⟨v, w⟩
  · -- not written: nothing was set or sold
    simp only [ho, Option.map_none, Option.getD_none] at hp' hrow
    have hset : (d.record c).sets.lookup p = none := hp'.1
    have hq : quantityOf p (d.record c).items = 0 := hp'.2
    obtain ⟨hpos, a, ha, he⟩ := h.stock p row hrow
    refine ⟨hpos, a, by simpa [hset] using ha, ?_⟩
    simpa [hset, hq] using he
  · simp only [ho, Option.map_some, Option.getD_some] at hp' hrow
    obtain ⟨row', a, rfl, hpos, ha, he⟩ := hp'
    cases hrow
    have ha : ((d.record c).sets.lookup p).or (v.map (·.amount)) = some a := ha
    have he : row.amount = a - quantityOf p (d.record c).items + 0 := he
    refine ⟨hpos, ?_⟩
    rcases hset : (d.record c).sets.lookup p with _ | s
    · -- sold, not set: the count goes on from the committed row
      rw [hset, Option.none_or, Option.map_eq_some_iff] at ha
      obtain ⟨old, rfl, rfl⟩ := ha
      obtain ⟨-, a, ha, he'⟩ := h.stock p old (Table.own_committed ho)
      refine ⟨a, by simpa using ha, ?_⟩
      simp only [Option.isSome_none, Bool.false_eq_true, if_false]
      omega
    · -- set: the count starts again
      rw [hset, Option.some_or, Option.some.injEq] at ha
      refine ⟨s, by simp, ?_⟩
      simp only [Option.isSome_some, if_true]
      omega

/-- A statement that does not commit keeps the invariant. -/
theorem Inv.act {m : Move} {q : Stmt} {r : Answer q} (h : Inv req d₀ strict d)
    (ha : act m c q d = some (r, d')) (hc : q ≠ .commit) : Inv req d₀ strict d' := by
  rcases act_change ha with hch | ⟨hcm, -⟩ | ⟨-, rfl⟩
  · exact h.change hch
  · exact absurd hcm hc
  · exact h.rollback

/-- The commit of a transaction that is ready keeps the invariant. -/
theorem Inv.commit (h : Inv req d₀ strict d) (hr : Ready req strict c d) :
    Inv req d₀ strict (d.commit c) := by
  have hlog : (d.commit c).log = d.record c :: d.log := rfl
  have htaken : ∀ r ∈ d.cart.deleted c, 0 ≤ r.quantity := fun r hd =>
    Int.le_of_lt (h.deleted_row hd).2
  constructor
  · rw [hlog]
    intro x hx
    rcases List.mem_cons.mp hx with rfl | hx
    · exact hr.published
    · exact h.published x hx
  · exact h.stock_commit hr.balanced
  · rw [hlog, List.flatMap_cons, List.append_assoc]
    exact (Table.committedRows_commit hr.items).trans (h.items.append_left _)
  · rw [hlog, List.flatMap_cons, List.append_assoc, List.map_append]
    refine ((Table.committedRows_commit hr.orders).map _).trans ?_
    rw [List.map_append]
    exact h.orders.append_left _
  · rw [hlog]
    intro x hx r hi
    rcases List.mem_cons.mp hx with rfl | hx
    · obtain ⟨o, ho, hb⟩ := hr.owner r hi
      refine ⟨o, ?_, hb⟩
      have hc : (d.orders.commit c).committed r.orderId =
          ((d.orders.own c r.orderId).map Prod.snd).getD (d.orders.committed r.orderId) :=
        Table.committed_commit
      rw [ho] at hc
      exact hc
    · obtain ⟨o, ho, hb⟩ := h.owner x hx r hi
      exact ⟨o, hr.orders.committed_commit ho, hb⟩
  · intro i o ho
    obtain ⟨o', ho', hu⟩ := h.kept i o ho
    exact ⟨o', hr.orders.committed_commit ho', hu⟩
  · intro i r hi
    have hc : (d.cart.commit c).committed i =
        ((d.cart.own c i).map Prod.snd).getD (d.cart.committed i) := Table.committed_commit
    rcases ho : d.cart.own c i with _ | ⟨v, w⟩
    · rw [ho] at hc
      exact h.cartRow i r (hc.symm.trans hi)
    · obtain rfl := hr.cart i v w ho
      rw [ho] at hc
      cases hc.symm.trans hi
  · intro u p
    have hup := h.cart u p
    have hle := checkedOutBy_le (u := u) (p := p) hr.published htaken
    have hc := cartQuantity_commit (u := u) (p := p) hr.cart
    simp only [Db.commit, checkedOut, List.map_cons, List.sum_cons, hc] at hup ⊢
    simp only [Db.record] at hle ⊢
    omega
  · intro hs u p
    have hup := h.cartStrict hs u p
    have heq := checkedOutBy_eq (u := u) (p := p) hr.published hs
    have hc := cartQuantity_commit (u := u) (p := p) hr.cart
    simp only [Db.commit, checkedOut, List.map_cons, List.sum_cons, hc] at hup ⊢
    simp only [Db.record] at heq ⊢
    omega
  · rw [hlog, List.flatMap_cons, List.map_append]
    refine List.nodup_append.mpr ⟨h.deleted_nodup, h.takenOnce, ?_⟩
    intro i hi j hj he
    obtain ⟨r, hd, rfl⟩ := List.mem_map.mp hi
    obtain ⟨r', hx, rfl⟩ := List.mem_map.mp hj
    obtain ⟨x, hx, hr'⟩ := List.mem_flatMap.mp hx
    have hdead := (h.gone x hx r' hr').own (c := c)
    rw [← he, (h.deleted_row hd).1] at hdead
    cases hdead
  · rw [hlog]
    intro x hx r hi
    rcases List.mem_cons.mp hx with rfl | hx
    · exact Table.dead_of_deleted (h.deleted_row hi).1
    · exact (h.gone x hx r hi).commit

end Preservation
end Kayan.Shop
