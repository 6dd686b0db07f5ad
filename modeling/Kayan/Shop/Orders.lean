import Kayan.Shop.Alone
import Kayan.Shop.Stock

/-!
# Placing an order

`createOrder` run alone. The loop checks each line against an amount that the lines before it
have lowered, so the order goes through exactly when for every product all its lines
together fit.
-/
namespace Kayan.Shop
open RowStore Interleave

section Lines

/-- The quantity of a product in a list of lines. -/
def lineQuantity (p : Nat) (lines : List OrderLine) : Int :=
  (lines.map fun l => if l.productId = p then l.quantity else 0).sum

/-- A product row after the given lines have been sold. -/
def sold (lines : List OrderLine) (p : Nat) (row : CatalogProduct) : CatalogProduct :=
  { row with amount := row.amount - lineQuantity p lines }

/-- Every product of the lines is on sale, and its amount covers all of its lines. -/
def Fits (d : Db) (lines : List OrderLine) : Prop :=
  ∀ l ∈ lines, ∃ row, d.catalog.committed l.productId = some row ∧ row.deleted = false ∧
    row.isActive = true ∧ lineQuantity l.productId lines ≤ row.amount

/-- The price of a product. -/
def currentPrice (d : Db) (p : Nat) : String := ((d.catalog.committed p).map (·.price)).getD ""

/-- The rows that order items for the lines have, with the ids that come next. -/
def itemsFor (d : Db) (orderId : Nat) (lines : List OrderLine) : List OrderItem :=
  lines.mapIdx fun k l => ⟨d.items.next + k, orderId, l.productId, l.quantity, currentPrice d l.productId⟩

variable {p : Nat} {xs ys : List OrderLine} {item : OrderLine} {d d' : Db}

@[simp] theorem lineQuantity_append : lineQuantity p (xs ++ ys) = lineQuantity p xs + lineQuantity p ys := by
  simp [lineQuantity]

@[simp] theorem lineQuantity_singleton :
    lineQuantity p [item] = if item.productId = p then item.quantity else 0 := by
  simp [lineQuantity]

theorem lineQuantity_nonneg (h : ∀ l ∈ xs, 0 < l.quantity) : 0 ≤ lineQuantity p xs := by
  refine List.sum_nonneg fun n hn => ?_
  obtain ⟨l, hl, rfl⟩ := List.mem_map.mp hn
  have hpos := h l hl
  split <;> omega

theorem lineQuantity_eq_zero (h : ∀ l ∈ xs, l.productId ≠ p) : lineQuantity p xs = 0 := by
  refine List.sum_eq_zero fun n hn => ?_
  obtain ⟨l, hl, rfl⟩ := List.mem_map.mp hn
  exact if_neg (h l hl)

theorem Fits.nil : Fits d [] := fun _ hl => absurd hl List.not_mem_nil

/-- Fewer lines fit as well. -/
theorem Fits.of_append (h : Fits d (xs ++ ys)) (hpos : ∀ l ∈ ys, 0 < l.quantity) : Fits d xs := by
  intro l hl
  obtain ⟨row, hrow, hdel, hact, hle⟩ := h l (List.mem_append_left ys hl)
  have hrest := lineQuantity_nonneg (p := l.productId) hpos
  rw [lineQuantity_append] at hle
  exact ⟨row, hrow, hdel, hact, by omega⟩

/-- One more line fits when its product is on sale and enough of it is left. -/
theorem Fits.snoc {row : CatalogProduct} (h : Fits d xs)
    (hrow : d.catalog.committed item.productId = some row) (hdel : row.deleted = false)
    (hact : row.isActive = true) (hle : item.quantity ≤ row.amount - lineQuantity item.productId xs) :
    Fits d (xs ++ [item]) := by
  intro l hl
  by_cases hp : l.productId = item.productId
  · rw [hp]
    refine ⟨row, hrow, hdel, hact, ?_⟩
    rw [lineQuantity_append, lineQuantity_singleton, if_pos rfl]
    omega
  · have hmem : l ∈ xs := by
      rcases List.mem_append.mp hl with hl | hl
      · exact hl
      · rw [List.mem_singleton.mp hl] at hp
        exact absurd rfl hp
    obtain ⟨row', hrow', hdel', hact', hle'⟩ := h l hmem
    refine ⟨row', hrow', hdel', hact', ?_⟩
    rw [lineQuantity_append, lineQuantity_singleton, if_neg (Ne.symm hp)]
    omega

/-- A line that fits after others has its product on sale, with enough of it left. -/
theorem Fits.last {row : CatalogProduct} (h : Fits d (xs ++ [item]))
    (hrow : d.catalog.committed item.productId = some row) :
    row.deleted = false ∧ row.isActive = true ∧ item.quantity ≤ row.amount - lineQuantity item.productId xs := by
  obtain ⟨row', hrow', hdel, hact, hle⟩ := h item (by simp)
  cases hrow.symm.trans hrow'
  rw [lineQuantity_append, lineQuantity_singleton, if_pos rfl] at hle
  exact ⟨hdel, hact, by omega⟩

theorem itemsFor_snoc {orderId : Nat} :
    itemsFor d orderId (xs ++ [item]) = itemsFor d orderId xs ++
      [⟨d.items.next + xs.length, orderId, item.productId, item.quantity, currentPrice d item.productId⟩] := by
  simp [itemsFor, List.mapIdx_append]

end Lines

section Drafts

/-- The transaction of `c` has been opened on `d₀`, and nothing has been written. -/
structure Opened (c : Client) (d₀ d : Db) : Prop where
  sole : Sole c d
  same : Same d₀ d
  catalog : ∀ p, d.catalog.view c p = d₀.catalog.committed p
  orders : d.orders.rows c = d₀.orders.committedRows
  orderRow : ∀ i, d.orders.view c i = d₀.orders.committed i
  items : d.items.rows c = d₀.items.committedRows
  itemsNext : d.items.next = d₀.items.next
  history : d.history.rows c = d₀.history.committedRows
  cart : ∀ i, d.cart.view c i = d₀.cart.committed i

/-- The transaction of `c` on `d₀` has inserted the order `o` with the given history, and has
sold it the lines. -/
structure Drafted (c : Client) (d₀ : Db) (o : ProductOrder) (lines : List OrderLine)
    (notes : List StatusChange) (d : Db) : Prop where
  sole : Sole c d
  same : Same d₀ d
  fresh : d₀.orders.committed o.id = none
  catalog : ∀ p, d.catalog.view c p = (d₀.catalog.committed p).map (sold lines p)
  orders : d.orders.rows c = d₀.orders.committedRows ++ [o]
  orderRow : ∀ i, d.orders.view c i = if i = o.id then some o else d₀.orders.committed i
  items : d.items.rows c = d₀.items.committedRows ++ itemsFor d₀ o.id lines
  itemsNext : d.items.next = d₀.items.next + lines.length
  history : d.history.rows c = d₀.history.committedRows ++ notes
  cart : ∀ i, d.cart.view c i = d₀.cart.committed i

variable {c : Client} {d₀ d d' : Db} {o : ProductOrder} {lines : List OrderLine} {item : OrderLine}
  {row : CatalogProduct} {notes : List StatusChange}

theorem Unlocked.opened (h : Unlocked d) : Opened c d d where
  sole := h.sole
  same := Same.refl
  catalog _ := h.catalog.view
  orders := h.orders.rows
  orderRow _ := h.orders.view
  items := h.items.rows
  itemsNext := rfl
  history := h.history.rows
  cart _ := h.cart.view

theorem Opened.insertOrder (h : Opened c d₀ d) (ho : o.id = d.orders.next) :
    Drafted c d₀ o [] [] { d with orders := d.orders.insert c o } where
  sole := { h.sole with orders := h.sole.orders.insert }
  same := { h.same with orders := fun i => Table.committed_insert.trans (h.same.orders i) }
  fresh := by
    rw [ho, ← h.same.orders, Table.committed_fresh (Nat.le_refl _)]
  catalog p := by
    rw [h.catalog p]
    cases d₀.catalog.committed p with
    | none => rfl
    | some row => simp [sold, lineQuantity]
  orders := by rw [Table.rows_insert, h.orders]
  orderRow i := by rw [Table.view_insert, h.orderRow, ho]
  items := by rw [h.items, itemsFor, List.mapIdx_nil, List.append_nil]
  itemsNext := h.itemsNext
  history := h.history.trans (List.append_nil _).symm
  cart := h.cart

theorem Drafted.lock {p : Nat} (h : Drafted c d₀ o lines notes d) (hp : p < d.catalog.next) :
    Drafted c d₀ o lines notes { d with catalog := d.catalog.lock c p } :=
  { h with
    sole := { h.sole with catalog := h.sole.catalog.lock }
    same := { h.same with catalog := fun i => Table.committed_lock.trans (h.same.catalog i) }
    catalog := fun i => (Table.view_lock hp).trans (h.catalog i) }

/-- An item is inserted and its quantity is taken off the amount. -/
theorem Drafted.take (h : Drafted c d₀ o lines notes d) (hrow : d₀.catalog.committed item.productId = some row) :
    Drafted c d₀ o (lines ++ [item]) notes
      { d with
        items := d.items.insert c ⟨d.items.next, o.id, item.productId, item.quantity, row.price⟩
        catalog := d.catalog.write c item.productId
          (some { row with amount := row.amount - lineQuantity item.productId lines - item.quantity }) } := by
  have hview : d.catalog.view c item.productId = some (sold lines item.productId row) := by
    rw [h.catalog, hrow, Option.map_some]
  have hprice : currentPrice d₀ item.productId = row.price := by
    rw [currentPrice, hrow, Option.map_some, Option.getD_some]
  refine { h with
    sole := { h.sole with items := h.sole.items.insert, catalog := h.sole.catalog.write }
    same := { h.same with
      items := fun i => Table.committed_insert.trans (h.same.items i)
      catalog := fun i => Table.committed_write.trans (h.same.catalog i) }
    catalog := fun p => ?_
    items := ?_
    itemsNext := ?_ }
  · rw [Table.view_write (Table.lt_of_view hview)]
    by_cases hp : p = item.productId
    · subst hp
      rw [if_pos rfl, hrow, Option.map_some, sold, lineQuantity_append, lineQuantity_singleton, if_pos rfl,
        Int.sub_sub]
    · rw [if_neg hp, h.catalog]
      refine congrArg (Option.map · _) (funext fun w => ?_)
      rw [sold, sold, lineQuantity_append, lineQuantity_singleton, if_neg (Ne.symm hp), Int.add_zero]
  · rw [Table.rows_insert, h.items, itemsFor_snoc, h.itemsNext, hprice, List.append_assoc]
  · change d.items.next + 1 = _
    rw [h.itemsNext, List.length_append, List.length_singleton, Nat.add_assoc]

end Drafts

section Placing
variable {c : Client} {d₀ d d' : Db} {o : ProductOrder} {lines rest : List OrderLine} {item : OrderLine}
  {notes : List StatusChange} {clock : Clock}

/-- The code throws, and its transaction has published nothing. -/
def Aborts {α : Type} (clock : Clock) (c : Client) (d₀ : Db) (code : Code α) (d : Db) : Prop :=
  ∃ e d', alone clock c code d = some (.error e, d') ∧ Sole c d' ∧ Same d₀ d'

/-- What the loop makes of the product that it has selected for a line. -/
def refuses (item : OrderLine) : Option CatalogProduct → Bool
  | none => true
  | some row => !row.isActive || row.amount < item.quantity

variable (rest) in
theorem orderLines_refused {orderId : Nat} {v : Option CatalogProduct}
    (hsel : exec (clock (.selectProductForUpdate item.productId) d) c
      (.selectProductForUpdate item.productId) d = some (.ok v, d'))
    (hv : refuses item v = true) :
    ∃ e, alone clock c (orderLines orderId (item :: rest)) d = some (.error e, d') := by
  cases v with
  | none => exact ⟨_, query_alone hsel⟩
  | some row =>
    by_cases hact : row.isActive = true
    · have hless : row.amount < item.quantity := by simpa [refuses, hact] using hv
      exact ⟨_, (query_alone hsel).trans (by simp only [hact, hless, if_true, Bool.not_true]; rfl)⟩
    · exact ⟨_, (query_alone hsel).trans (by simp only [hact, Bool.not_false, if_true]; rfl)⟩

theorem Drafted.view (h : Drafted c d₀ o lines notes d) {row : CatalogProduct}
    (hrow : d₀.catalog.committed item.productId = some row) :
    d.catalog.view c item.productId = some (sold lines item.productId row) := by
  rw [h.catalog, hrow, Option.map_some]

/-- Selecting the product of a line for update: what is left of it, unless it is deleted. -/
theorem Drafted.selects (h : Drafted c d₀ o lines notes d) {row : CatalogProduct} (now : Nat)
    (hrow : d₀.catalog.committed item.productId = some row) :
    exec now c (.selectProductForUpdate item.productId) d =
      if row.deleted then some (.ok none, d)
      else some (.ok (some (sold lines item.productId row)),
        { d with catalog := d.catalog.lock c item.productId }) := by
  have hdel : (sold lines item.productId row).deleted = row.deleted := rfl
  simp only [exec, h.view hrow, hdel, h.sole.catalog item.productId, if_true]

theorem Fits.of_not_refused {row : CatalogProduct} (h : Fits d₀ lines)
    (hrow : d₀.catalog.committed item.productId = some row) (hdel : row.deleted = false)
    (hv : refuses item (some (sold lines item.productId row)) = false) : Fits d₀ (lines ++ [item]) := by
  rw [refuses, Bool.or_eq_false_iff, Bool.not_eq_false', decide_eq_false_iff_not] at hv
  exact h.snoc hrow hdel hv.1 (Int.not_lt.mp hv.2)

/-- A line that does not fit stops the loop. -/
theorem orderLines_stops (h : Drafted c d₀ o lines notes d) (hf : Fits d₀ lines)
    (hno : ¬ Fits d₀ (lines ++ [item])) : Aborts clock c d₀ (orderLines o.id (item :: rest)) d := by
  rcases hrow : d₀.catalog.committed item.productId with _ | row
  · have hview : d.catalog.view c item.productId = none := by
      rw [h.catalog, hrow, Option.map_none]
    have hsel : exec (clock (.selectProductForUpdate item.productId) d) c
        (.selectProductForUpdate item.productId) d = some (.ok none, d) := by
      simp only [exec, hview]
    obtain ⟨e, he⟩ := orderLines_refused rest hsel rfl
    exact ⟨e, d, he, h.sole, h.same⟩
  · have hsel := h.selects (clock (.selectProductForUpdate item.productId) d) hrow
    by_cases hdel : row.deleted = true
    · rw [if_pos hdel] at hsel
      obtain ⟨e, he⟩ := orderLines_refused rest hsel rfl
      exact ⟨e, d, he, h.sole, h.same⟩
    · rw [if_neg hdel] at hsel
      have hlock := h.lock (Table.lt_of_view (h.view hrow))
      have hv : refuses item (some (sold lines item.productId row)) = true := by
        by_contra hv
        exact hno (hf.of_not_refused hrow (by simpa using hdel) (by simpa using hv))
      obtain ⟨e, he⟩ := orderLines_refused rest hsel hv
      exact ⟨e, _, he, hlock.sole, hlock.same⟩

theorem exec_insertOrderItem {now orderId p : Nat} {q : Int} {price : String} (hq : 0 < q) (hr : int4 q = true) :
    exec now c (.insertOrderItem orderId p q price) d =
      some (.ok (), { d with items := d.items.insert c ⟨d.items.next, orderId, p, q, price⟩ }) := by
  simp only [exec, if_neg (Int.not_le.mpr hq), hr, not_true, if_false]

theorem exec_decrementAmount {now p : Nat} {q : Int} {row : CatalogProduct}
    (hv : d.catalog.view c p = some row) (hf : d.catalog.free c p = true) (hq : q ≤ row.amount) :
    exec now c (.decrementAmount q p) d = some (.ok (),
      { d with catalog := d.catalog.write c p (some { row with amount := row.amount - q }) }) := by
  have hle : ¬ row.amount - q < 0 := by omega
  simp only [exec, hv, hf, not_true, if_false, if_neg hle]

/-- A round of the loop whose line passes the checks. -/
theorem orderLines_passed {orderId : Nat} {row : CatalogProduct}
    (hsel : exec (clock (.selectProductForUpdate item.productId) d) c
      (.selectProductForUpdate item.productId) d = some (.ok (some row), d'))
    (hv : refuses item (some row) = false) (hq : 0 < item.quantity) (hr : int4 item.quantity = true)
    (hview : d'.catalog.view c item.productId = some row) (hfree : d'.catalog.free c item.productId = true) :
    alone clock c (orderLines orderId (item :: rest)) d = alone clock c (orderLines orderId rest)
      { d' with
        items := d'.items.insert c ⟨d'.items.next, orderId, item.productId, item.quantity, row.price⟩
        catalog := d'.catalog.write c item.productId (some { row with amount := row.amount - item.quantity }) } := by
  have hpass : row.isActive = true ∧ ¬ row.amount < item.quantity := by
    simpa [refuses, decide_eq_false_iff_not] using hv
  refine (query_alone hsel).trans ?_
  conv_lhs => simp only [hpass.1, hpass.2, Bool.not_true, if_false]
  refine (query_alone (exec_insertOrderItem hq hr)).trans ?_
  apply query_alone
  apply exec_decrementAmount
  · exact hview
  · exact hfree
  · exact Int.not_lt.mp hpass.2

variable (rest clock) in
/-- A line that fits is taken. -/
theorem orderLines_takes (h₀ : Still d₀) (h : Drafted c d₀ o lines notes d) (hpos : ∀ l ∈ lines, 0 < l.quantity)
    (hq : 0 < item.quantity) (hf : Fits d₀ (lines ++ [item])) :
    ∃ d', alone clock c (orderLines o.id (item :: rest)) d = alone clock c (orderLines o.id rest) d' ∧
      Drafted c d₀ o (lines ++ [item]) notes d' := by
  obtain ⟨row, hrow, -⟩ := hf item (by simp)
  obtain ⟨hdel, hact, hle⟩ := hf.last hrow
  have hsel := h.selects (clock (.selectProductForUpdate item.productId) d) hrow
  rw [hdel, if_neg Bool.false_ne_true] at hsel
  have hlock := h.lock (Table.lt_of_view (h.view hrow))
  have hpass : refuses item (some (sold lines item.productId row)) = false := by
    simpa [refuses, sold, hact] using hle
  have hrange : int4 item.quantity = true := by
    have hmax := (h₀.amount item.productId row hrow).2
    have hsum := lineQuantity_nonneg (p := item.productId) hpos
    simp only [int4, decide_eq_true_eq] at hmax ⊢
    omega
  exact ⟨_, orderLines_passed hsel hpass hq hrange (hlock.view hrow) (hlock.sole.catalog item.productId),
    hlock.take hrow⟩

variable (clock) in
/-- The loop run alone: it ends with everything sold when all lines fit, and stops otherwise. -/
theorem orderLines_alone (h₀ : Still d₀) (h : Drafted c d₀ o lines notes d) (hf : Fits d₀ lines)
    (hpos : ∀ l ∈ lines ++ rest, 0 < l.quantity) :
    (Fits d₀ (lines ++ rest) ∧ ∃ d', alone clock c (orderLines o.id rest) d = some (.ok (), d') ∧
      Drafted c d₀ o (lines ++ rest) notes d') ∨
    ¬ Fits d₀ (lines ++ rest) ∧ Aborts clock c d₀ (orderLines o.id rest) d := by
  induction rest generalizing lines d with
  | nil =>
    rw [List.append_nil]
    exact Or.inl ⟨hf, d, rfl, h⟩
  | cons item rest ih =>
    have hsplit : lines ++ item :: rest = (lines ++ [item]) ++ rest := by simp
    rw [hsplit] at hpos ⊢
    by_cases hfit : Fits d₀ (lines ++ [item])
    · obtain ⟨d', hd', hdraft⟩ := orderLines_takes rest clock h₀ h
        (fun l hl => hpos l (by simp [hl])) (hpos item (by simp)) hfit
      rcases ih hdraft hfit hpos with ⟨hall, e, he, hdone⟩ | ⟨hno, e, d'', he, hs⟩
      · exact Or.inl ⟨hall, e, hd'.trans he, hdone⟩
      · exact Or.inr ⟨hno, e, d'', hd'.trans he, hs⟩
    · refine Or.inr ⟨fun hall => hfit (hall.of_append fun l hl => ?_), orderLines_stops h hf hfit⟩
      exact hpos l (List.mem_append_right _ hl)

end Placing

section Records
variable {c : Client} {d₀ d d' : Db} {o : ProductOrder} {lines items : List OrderLine} {userId : Nat}
  {deliveryAddress : String} {clock : Clock} {drv : Driver}

/-- The `item_count` of the order in a response. -/
def itemCount (a : Payload) : Option Payload := (a.field "order").bind fun order => order.field "item_count"

/-- The order as `createOrderRecord` hands it to `attachOrderItems`. -/
def newOrder (drv : Driver) (orderId userId : Nat) (deliveryAddress : String) (createdAt updatedAt : Nat) : OrderRecord where
  id := orderId
  userId := userId
  fields :=
    [("id", .num orderId), ("user_id", .num userId), ("delivery_address", .str deliveryAddress),
     ("status", .str OrderStatus.received.text), ("created_at", .str (drv.iso createdAt)),
     ("updated_at", .str (drv.iso updatedAt))]

/-- The items of the order in a response. -/
def orderItems (a : Payload) : List Payload := ((a.field "order").map Payload.rows).getD []

/-- The product and the quantity of an item in a response. -/
def itemPair (x : Payload) : Option Payload × Option Payload := (x.field "product_id", x.field "quantity")

/-- A line as the items of an order show it. -/
def OrderLine.ordered (l : OrderLine) : Option Payload × Option Payload :=
  (some (.num l.productId), some (.num l.quantity))

theorem itemsByOrderId_pairs (view : Nat → Option CatalogProduct) (rows : List OrderItem) (orderId : Nat) :
    ((itemsByOrderId (orderItemRows view rows [orderId]) orderId).map itemPair).Perm
      ((rows.filter fun r => r.orderId = orderId).map fun r => r.line.ordered) := by
  have hall : ∀ row ∈ orderItemRows view rows [orderId], row.item.orderId = orderId := by
    intro row hrow
    obtain ⟨r, hr, rfl⟩ := List.mem_map.mp hrow
    rw [List.mem_insertionSort] at hr
    simpa using (List.mem_filter.mp hr).2
  rw [itemsByOrderId_eq, List.filter_eq_self.mpr fun row hrow => by simpa using hall row hrow]
  rw [List.map_map, orderItemRows, List.map_map]
  refine ((List.perm_insertionSort _ _).map _).trans ?_
  simp only [List.mem_singleton]
  exact .refl _

theorem length_itemsByOrderId {view : Nat → Option CatalogProduct} {rows : List OrderItem} {orderId : Nat} :
    (itemsByOrderId (orderItemRows view rows [orderId]) orderId).length =
      (rows.filter fun r => r.orderId = orderId).length := by
  simpa using (itemsByOrderId_pairs view rows orderId).length_eq

/-- No order item refers to an order that does not exist. -/
theorem Still.no_items (h : Still d) {orderId : Nat} (ho : d.orders.committed orderId = none) :
    d.items.committedRows.filter (fun r => r.orderId = orderId) = [] := by
  refine List.filter_eq_nil_iff.mpr fun r hr he => ?_
  obtain ⟨o, horder⟩ := h.orderRef r hr
  rw [show r.orderId = orderId by simpa using he, ho] at horder
  cases horder

theorem filter_itemsFor {orderId : Nat} :
    (itemsFor d orderId lines).filter (fun r => r.orderId = orderId) = itemsFor d orderId lines := by
  refine List.filter_eq_self.mpr fun r hr => ?_
  obtain ⟨k, hk, rfl⟩ := List.mem_mapIdx.mp hr
  simp

variable (d lines) in
theorem itemsFor_lines (orderId : Nat) : (itemsFor d orderId lines).map OrderItem.line = lines := by
  refine List.ext_getElem (by simp [itemsFor]) fun i hi hi' => ?_
  simp [itemsFor, OrderItem.line]

theorem Drafted.insertHistory {r : StatusChange} (h : Drafted c d₀ o lines [] d) :
    Drafted c d₀ o lines [r] { d with history := d.history.insert c r } :=
  { h with
    sole := { h.sole with history := h.sole.history.insert }
    same := { h.same with history := fun i => Table.committed_insert.trans (h.same.history i) }
    history := by rw [Table.rows_insert, h.history, List.append_nil] }

variable (drv) in
/-- `createOrderRecord` once its loop has ended. -/
theorem createOrderRecord_returns {d₁ d₂ : Db}
    (hi : exec (clock (.insertOrder userId deliveryAddress) d) c (.insertOrder userId deliveryAddress) d =
      some (.ok o.id, d₁))
    (hl : alone clock c (orderLines o.id items) d₁ = some (.ok (), d₂)) :
    ∃ t, alone clock c (createOrderRecord drv userId deliveryAddress items) d =
      some (.ok (.obj [("order", orderPayload (orderItemRows (d₂.catalog.view c) (d₂.items.rows c) [o.id]) false
          (newOrder drv o.id userId deliveryAddress t t))]),
        { d₂ with history := d₂.history.insert c ⟨o.id, .received, userId⟩ }) := by
  refine ⟨clock .dateNow { d₂ with history := d₂.history.insert c ⟨o.id, .received, userId⟩ }, ?_⟩
  refine (query_alone hi).trans ?_
  refine (bind_alone hl).trans ?_
  refine (query_alone (q := .insertOrderHistory .client o.id .received userId) rfl).trans ?_
  refine (query_alone (q := .selectOrderItems .client [o.id]) rfl).trans ?_
  refine (query_alone (q := .dateNow) rfl).trans ?_
  exact (query_alone (q := .dateNow) rfl).trans rfl

variable (userId deliveryAddress clock drv) in
/-- `createOrderRecord` run alone. -/
theorem createOrderRecord_alone (h₀ : Still d₀) (h : Opened c d₀ d) (hpos : ∀ l ∈ items, 0 < l.quantity) :
    (Fits d₀ items ∧ ∃ a o d', alone clock c (createOrderRecord drv userId deliveryAddress items) d = some (.ok a, d') ∧
      (o.userId = userId ∧ o.deliveryAddress = deliveryAddress ∧ o.status = .received) ∧
      Drafted c d₀ o items [⟨o.id, .received, userId⟩] d' ∧ itemCount a = some (.num items.length) ∧
      ((orderItems a).map itemPair).Perm (items.map OrderLine.ordered)) ∨
    ¬ Fits d₀ items ∧ Aborts clock c d₀ (createOrderRecord drv userId deliveryAddress items) d := by
  have hins : exec (clock (.insertOrder userId deliveryAddress) d) c (.insertOrder userId deliveryAddress) d =
    some (.ok d.orders.next,
      { d with orders := d.orders.insert c
                { id := d.orders.next, userId, deliveryAddress,
                  createdAt := clock (.insertOrder userId deliveryAddress) d,
                  updatedAt := clock (.insertOrder userId deliveryAddress) d } }) := rfl
  have hdraft := h.insertOrder (o := { id := d.orders.next, userId, deliveryAddress,
                                       createdAt := clock (.insertOrder userId deliveryAddress) d,
                                       updatedAt := clock (.insertOrder userId deliveryAddress) d }) rfl
  rcases orderLines_alone clock h₀ hdraft Fits.nil hpos with ⟨hfit, d₁, hd₁, hsold⟩ | ⟨hno, e, d₁, he, hs⟩
  · have hdone := hsold.insertHistory (r := ⟨d.orders.next, .received, userId⟩)
    obtain ⟨t, hrun⟩ := createOrderRecord_returns drv hins hd₁
    have hitems : (d₁.items.rows c).filter (fun r => r.orderId = d.orders.next) =
        itemsFor d₀ d.orders.next items := by
      rw [hsold.items, List.filter_append, h₀.no_items hsold.fresh, filter_itemsFor]
      rfl
    refine Or.inl ⟨hfit, _, _, _, hrun, ⟨rfl, rfl, rfl⟩, hdone, ?_, ?_⟩
    · have hcount : (itemsByOrderId (orderItemRows (d₁.catalog.view c) (d₁.items.rows c) [d.orders.next])
          d.orders.next).length = items.length := by
        rw [length_itemsByOrderId, hitems]
        simp [itemsFor]
      rw [← hcount]
      rfl
    · have hpairs := itemsByOrderId_pairs (d₁.catalog.view c) (d₁.items.rows c) d.orders.next
      rw [hitems] at hpairs
      refine hpairs.trans (.of_eq ?_)
      conv_rhs => rw [← itemsFor_lines d₀ items d.orders.next, List.map_map]
      rfl
  · refine Or.inr ⟨hno, e, d₁, ?_, hs⟩
    exact (query_alone hins).trans (bind_alone_error he)

/-- `d'` is `d` with the order `o` of the given lines: their quantities are off the amounts, and the
tables have the order, its items and its first status. -/
structure Ordered (d : Db) (o : ProductOrder) (lines : List OrderLine) (d' : Db) : Prop where
  catalog : ∀ p, d'.catalog.committed p = (d.catalog.committed p).map (sold lines p)
  others : ∀ p, (∀ l ∈ lines, l.productId ≠ p) → d'.catalog.committed p = d.catalog.committed p
  fresh : d.orders.committed o.id = none
  orders : d'.orders.committedRows = d.orders.committedRows ++ [o]
  items : d'.items.committedRows = d.items.committedRows ++ itemsFor d o.id lines
  history : d'.history.committedRows = d.history.committedRows ++ [⟨o.id, .received, o.userId⟩]

theorem sold_of_not_mem {p : Nat} (h : ∀ l ∈ lines, l.productId ≠ p) : sold lines p = id := by
  funext row
  rw [sold, lineQuantity_eq_zero h, Int.sub_zero]
  rfl

/-- Committing a drafted order. -/
theorem Drafted.ordered (h : Drafted c d₀ o lines [⟨o.id, .received, o.userId⟩] d) :
    Ordered d₀ o lines (d.commit c) := by
  have hcatalog : ∀ p, (d.commit c).catalog.committed p = (d₀.catalog.committed p).map (sold lines p) :=
    fun p => Table.committed_commit_eq_view.trans (h.catalog p)
  constructor
  · exact hcatalog
  · intro p hp
    rw [hcatalog, sold_of_not_mem hp, Option.map_id]
    rfl
  · exact h.fresh
  · exact Table.committedRows_commit_eq_rows.trans h.orders
  · exact Table.committedRows_commit_eq_rows.trans h.items
  · exact Table.committedRows_commit_eq_rows.trans h.history

/-- What a drafted order commits is a store between calls, also when rows of the cart go with it. -/
theorem Drafted.still {t : Table Client CartItem} (h : Drafted c d₀ o lines notes d) (h₀ : Still d₀) (hf : Fits d₀ lines)
    (hpos : ∀ l ∈ lines, 0 < l.quantity) (ht : t.Sole c)
    (hcart : ∀ i r, t.view c i = some r → d₀.cart.committed i = some r) : Still (({ d with cart := t } : Db).commit c) := by
  have hrow : ∀ i r, (t.commit c).committed i = some r → d₀.cart.committed i = some r :=
    fun i r hi => hcart i r (Table.committed_commit_eq_view.symm.trans hi)
  constructor
  · exact Sole.commit { h.sole with cart := ht }
  · intro p row hp
    have hp : (d₀.catalog.committed p).map (sold lines p) = some row :=
      (h.catalog p).symm.trans (Table.committed_commit_eq_view.symm.trans hp)
    obtain ⟨row₀, hrow₀, rfl⟩ := Option.map_eq_some_iff.mp hp
    obtain ⟨hamount, hmax⟩ := h₀.amount p row₀ hrow₀
    have hsum := lineQuantity_nonneg (p := p) hpos
    have hle : lineQuantity p lines ≤ row₀.amount := by
      by_cases hmem : ∃ l ∈ lines, l.productId = p
      · obtain ⟨l, hl, rfl⟩ := hmem
        obtain ⟨row₁, hrow₁, -, -, hle⟩ := hf l hl
        cases hrow₀.symm.trans hrow₁
        exact hle
      · have hzero := lineQuantity_eq_zero (p := p) fun l hl he => hmem ⟨l, hl, he⟩
        omega
    have hsold : (sold lines p row₀).amount = row₀.amount - lineQuantity p lines := rfl
    rw [hsold]
    simp only [int4, decide_eq_true_eq] at hmax ⊢
    omega
  · intro r hr
    have hr : r ∈ d₀.items.committedRows ++ itemsFor d₀ o.id lines := by
      rw [← h.items, ← Table.committedRows_commit_eq_rows]
      exact hr
    have horder : ∀ i, (d.orders.commit c).committed i = if i = o.id then some o else d₀.orders.committed i :=
      fun i => Table.committed_commit_eq_view.trans (h.orderRow i)
    rcases List.mem_append.mp hr with hr | hr
    · obtain ⟨o', ho'⟩ := h₀.orderRef r hr
      by_cases he : r.orderId = o.id
      · exact ⟨o, (horder _).trans (if_pos he)⟩
      · exact ⟨o', (horder _).trans ((if_neg he).trans ho')⟩
    · obtain ⟨k, hk, rfl⟩ := List.mem_mapIdx.mp hr
      exact ⟨o, (horder _).trans (if_pos rfl)⟩
  · exact fun i r hi => h₀.cartRow i r (hrow i r hi)
  · exact fun i j r r' hi hj => h₀.cartOnce i j r r' (hrow i r hi) (hrow j r' hj)

/-- An order of the user with the given address, not yet processed. -/
def ProductOrder.placedBy (userId : Nat) (deliveryAddress : String) (o : ProductOrder) : Prop :=
  o.userId = userId ∧ o.deliveryAddress = deliveryAddress ∧ o.status = .received

variable (c userId deliveryAddress clock drv) in
/-- `createOrder` run alone: all lines are ordered when they fit, and nothing is changed otherwise. -/
theorem createOrder_alone (hd : Still d) (hpos : ∀ l ∈ items, 0 < l.quantity) :
    ((items ≠ [] ∧ Fits d items) ∧ ∃ a o d', alone clock c (createOrder drv userId deliveryAddress items) d =
      some (.ok a, d') ∧ o.placedBy userId deliveryAddress ∧ Ordered d o items d' ∧
      (∀ i, d'.cart.committed i = d.cart.committed i) ∧ itemCount a = some (.num items.length)) ∨
    ¬ (items ≠ [] ∧ Fits d items) ∧ ∃ e d', alone clock c (createOrder drv userId deliveryAddress items) d =
      some (.error e, d') ∧ Same d d' := by
  by_cases hnil : items = []
  · subst hnil
    exact Or.inr ⟨fun h => h.1 rfl, _, d, rfl, Same.refl⟩
  · have hcode : createOrder drv userId deliveryAddress items =
        withTransaction (createOrderRecord drv userId deliveryAddress items) := if_neg (by simpa using hnil)
    rw [hcode]
    rcases createOrderRecord_alone userId deliveryAddress clock drv hd (hd.unlocked.opened (c := c)) hpos with
      ⟨hfit, a, o, d', hrun, ⟨rfl, rfl, hst⟩, hdone, hcount, -⟩ | ⟨hno, e, d', he, hs, hsame⟩
    · refine Or.inl ⟨⟨hnil, hfit⟩, a, o, _, withTransaction_alone hrun, ⟨rfl, rfl, hst⟩, hdone.ordered, ?_, hcount⟩
      exact fun i => Table.committed_commit_eq_view.trans (hdone.cart i)
    · exact Or.inr ⟨fun h => hno h.2, e, _, withTransaction_alone_error he, hsame.trans same_rollback⟩

end Records

theorem ofRows_unlocked {V : Type} (rows : List V) : (Table.ofRows rows : Table Client V).Unlocked := fun _ => rfl

/-- A shop that has just been stocked. -/
theorem stocked_still {products : List CatalogProduct}
    (h : ∀ row ∈ products, 0 ≤ row.amount ∧ int4 row.amount) : Still (stocked products) where
  unlocked := ⟨ofRows_unlocked _, ofRows_unlocked _, ofRows_unlocked _, ofRows_unlocked _, ofRows_unlocked _⟩
  amount p row hp := h row (List.mem_of_getElem? hp)
  orderRef r hr := absurd hr List.not_mem_nil
  cartRow i r hi := by cases hi
  cartOnce i j r r' hi := by cases hi

end Kayan.Shop
