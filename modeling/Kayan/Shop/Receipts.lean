import Kayan.Lib.Confined
import Kayan.Shop.Stock

/-!
# Receipts

An order item is written under the price that the locked product row shows, and the lock is kept
until the order commits. So whatever is interleaved, a new item carries the price that its product
had when the order was committed, and it never changes again.
-/
namespace Kayan.Shop.Receipts
open RowStore Interleave

section Notes

/-- What the transaction of a call has come to: the products that it has locked with their
prices, and how many items it has written. -/
inductive Phase where
  | idle
  | editing
  | ordering (orderId : Nat) (offers : List (Nat × String)) (lines : Nat)

/-- The notes of a call: for whom it orders and where the order goes, and its phase. -/
structure Slip where
  asked : Option (Nat × String)
  phase : Phase := .idle

/-- A product that a call has locked, with its price. -/
def offered : (q : Stmt) → Answer q → Option (Nat × String)
  | .selectProductForUpdate p, .ok row =>
    ((row : Option CatalogProduct).filter (·.isActive)).map fun row => (p, row.price)
  | _, _ => none

theorem offered_row {p : Nat} {row : CatalogProduct} : offered (.selectProductForUpdate p) (.ok (some row)) =
    if row.isActive = true then some (p, row.price) else none := by
  by_cases h : row.isActive = true <;> simp [offered, Option.filter_some, h]

def Phase.after (x : Phase) (q : Stmt) (r : Answer q) : Phase :=
  match x, q, r with
  | _, .commit, .ok _ => .idle
  | _, .rollback, _ => .idle
  | _, .insertOrder _ _, .ok orderId => .ordering orderId [] 0
  | _, .insertProduct _, .ok _ => .editing
  | _, .updateProduct _ _, .ok _ => .editing
  | .ordering orderId offers lines, .insertOrderItem _ _ _ _, .ok _ => .ordering orderId offers (lines + 1)
  | .ordering orderId offers lines, q, r => .ordering orderId ((offered q r).toList ++ offers) lines
  | x, _, _ => x

/-- Which statements a call may issue: an item is written for the call's own order under the price
of a locked product, no order is committed without items, and no product is edited meanwhile. -/
def Slip.may (x : Slip) : Stmt → Prop
  | .commit => ∀ orderId offers lines, x.phase = .ordering orderId offers lines → 0 < lines
  | .insertOrder userId deliveryAddress => x.asked = some (userId, deliveryAddress) ∧ x.phase = .idle
  | .insertProduct _ | .updateProduct _ _ => x.phase = .idle
  | .selectProductForUpdate _ => ∃ orderId offers lines, x.phase = .ordering orderId offers lines
  | .insertOrderItem orderId p _ unitPrice => ∃ offers lines,
      x.phase = .ordering orderId offers lines ∧ (p, unitPrice) ∈ offers
  | .decrementAmount _ p => ∃ orderId offers lines, x.phase = .ordering orderId offers lines ∧ ∃ price, (p, price) ∈ offers
  | _ => True

/-- The notes in another phase. -/
def Slip.at (x : Slip) (phase : Phase) : Slip := { x with phase }

def Slip.after (x : Slip) (q : Stmt) (r : Answer q) : Slip := x.at (x.phase.after q r)

/-- The protocol of the calls. -/
abbrev protocol : Protocol Stmt Answer Slip := monitored Slip.may Slip.after

/-- For whom a call orders, and where the order goes. -/
def asked : Request → Option (Nat × String)
  | .createOrder userId deliveryAddress _ => some (userId, deliveryAddress)
  | .checkoutCart userId deliveryAddress => some (userId, deliveryAddress)
  | _ => none

/-- The statements that neither order nor edit a product, and end no transaction. -/
def Plain : Stmt → Prop
  | .commit | .rollback | .insertOrder _ _ | .insertProduct _ | .updateProduct _ _ | .selectProductForUpdate _
  | .insertOrderItem _ _ _ _ | .decrementAmount _ _ => False
  | _ => True

end Notes

section Protocol
variable {drv : Driver} {x : Slip} {α : Type} {E : Slip → Prop} {userId orderId lines : Nat} {deliveryAddress : String}
  {items : List OrderLine} {offers : List (Nat × String)} {code : Code α}

theorem keeps_query {q : Stmt} {Q : Reply q → Slip → Prop} (hm : x.may q) (h : ∀ r, outcome Q E r (x.after q r)) :
    Keeps protocol x (query q) Q E :=
  Keeps.await fun r => ⟨x.after q r, ⟨hm, rfl⟩, h r⟩

theorem plain_step {q : Stmt} (h : Plain q) (r : Answer q) : protocol x q r x := by
  obtain ⟨asked, phase⟩ := x
  cases q with
  | commit | rollback | insertOrder | insertProduct | updateProduct | selectProductForUpdate | insertOrderItem
  | decrementAmount => exact h.elim
  | _ => exact ⟨trivial, by cases phase <;> rfl⟩

/-- Code of plain statements leaves the notes alone. -/
theorem plain_still (h : Confined Plain code) : Interleave.Still protocol x code :=
  Confined.still h fun _ r hq => plain_step hq r

/-- A transaction ends at rest, where its code leaves no empty order. -/
theorem withTransaction_keeps {Q : α → Slip → Prop}
    (h : Keeps protocol x code Q fun _ => True) (hm : ∀ a y, Q a y → y.may .commit) :
    Keeps protocol x (withTransaction code) (fun _ y => y.phase = .idle) fun y => y.phase = .idle := by
  refine Keeps.transaction (R := fun _ y => y.phase = .idle) (E := fun _ => True) (Q := Q) (fun r => ?_) h
    (fun a y hy r => ?_) fun y _ r => ?_
  · refine ⟨x, plain_step (q := .begin) trivial r, ?_⟩
    cases r with
    | ok v => rfl
    | error e => trivial
  · refine ⟨y.after .commit r, ⟨hm a y hy, rfl⟩, ?_⟩
    cases r with
    | ok v => rfl
    | error e => trivial
  · exact ⟨y.after .rollback r, ⟨trivial, rfl⟩, by cases r <;> rfl⟩

/-- What the loop over the lines has come to. -/
def Filled (orderId : Nat) (n : Nat) (x y : Slip) : Prop :=
  ∃ offers lines, y = x.at (.ordering orderId offers lines) ∧ (0 < n → 0 < lines)

theorem orderLines_keeps :
    Keeps protocol (x.at (.ordering orderId offers lines)) (orderLines orderId items)
      (fun _ => Filled orderId (lines + items.length) x) fun _ => True := by
  induction items generalizing offers lines with
  | nil => exact Keeps.pure ⟨offers, lines, rfl, id⟩
  | cons item rest ih =>
    refine Keeps.bind (Q := fun (row : Option CatalogProduct) y => y = x.at (.ordering orderId
      ((offered (.selectProductForUpdate item.productId) (.ok row)).toList ++ offers) lines))
      (keeps_query ⟨orderId, offers, lines, rfl⟩ fun r => ?_) fun row y hy => ?_
    · cases r with
      | ok row => rfl
      | error e => trivial
    subst hy
    rcases row with - | row
    · exact Keeps.throw trivial
    dsimp only
    split
    · exact Keeps.throw trivial
    rename_i hactive
    rw [offered_row, if_pos (by simpa using hactive)]
    split
    · exact Keeps.throw trivial
    -- the item carries the price of the row that has just been locked
    have hmem : (item.productId, row.price) ∈ (item.productId, row.price) :: offers := List.mem_cons_self
    refine Keeps.bind (Q := fun _ y => y = x.at (.ordering orderId
      ((item.productId, row.price) :: offers) (lines + 1))) (keeps_query ⟨_, _, rfl, hmem⟩ fun r => ?_) fun _ y hy => ?_
    · cases r with
      | ok v => rfl
      | error e => trivial
    subst hy
    refine Keeps.bind (Q := fun _ y => y = x.at (.ordering orderId
      ((item.productId, row.price) :: offers) (lines + 1)))
      (keeps_query ⟨_, _, _, rfl, row.price, hmem⟩ fun r => ?_) fun _ y hy => ?_
    · cases r with
      | ok v => rfl
      | error e => trivial
    subst hy
    refine Keeps.mono ih (fun _ y hy => ?_) fun _ => id
    obtain ⟨offers', lines', hy, hn⟩ := hy
    exact ⟨offers', lines', hy, fun _ => hn (by omega)⟩

theorem createOrderRecord_keeps (hx : x.phase = .idle) (ha : x.asked = some (userId, deliveryAddress))
    (hi : items ≠ []) :
    Keeps protocol x (createOrderRecord drv userId deliveryAddress items) (fun _ y => y.may .commit) fun _ => True := by
  refine Keeps.bind (Q := fun (orderId : Nat) y => y = x.at (.ordering orderId [] 0))
    (keeps_query ⟨ha, hx⟩ fun r => ?_) fun orderId y hy => ?_
  · cases r with
    | ok v => rfl
    | error e => trivial
  subst hy
  refine Keeps.bind orderLines_keeps fun _ y hy => ?_
  obtain ⟨offers, lines, rfl, hn⟩ := hy
  have hlines : 0 < lines := hn (by have := List.length_pos_of_ne_nil hi; omega)
  refine (plain_still ?_).keeps (fun _ => ?_) trivial
  · exact Confined.bind (Confined.await trivial) fun _ => Confined.bind (Confined.await trivial) fun _ =>
      Confined.bind (Confined.await trivial) fun _ => Confined.bind (Confined.await trivial) fun _ => Confined.pure
  · intro orderId' offers' lines' he
    cases he
    exact hlines

theorem lockCartRows_plain {ids : List Nat} : Confined Plain (lockCartRows userId ids) := by
  induction ids with
  | nil => exact Confined.pure
  | cons i ids ih => exact Confined.bind (Confined.await trivial) fun _ => Confined.bind ih fun _ => Confined.pure

theorem deleteCartRows_plain {ids : List Nat} : Confined Plain (deleteCartRows userId ids) := by
  induction ids with
  | nil => exact Confined.pure
  | cons i ids ih => exact Confined.bind (Confined.await trivial) fun _ => ih

theorem checkoutCart_keeps (hx : x.phase = .idle) (ha : x.asked = some (userId, deliveryAddress)) :
    Keeps protocol x (checkoutCart drv userId deliveryAddress) (fun _ y => y.phase = .idle) fun y => y.phase = .idle := by
  have hcart : Confined Plain (selectCartForUpdate userId) :=
    Confined.bind (Confined.await trivial) fun _ => lockCartRows_plain
  have hdelete : Confined Plain (deleteCart userId) :=
    Confined.bind (Confined.await trivial) fun _ => deleteCartRows_plain
  refine withTransaction_keeps (Keeps.after (plain_still hcart) (fun cart => ?_) trivial) fun _ _ => id
  unfold checkoutRows
  split
  · exact Keeps.throw trivial
  rename_i hempty
  have hlines : cart.map CartItem.line ≠ [] := by
    intro h
    rw [List.map_eq_nil_iff.mp h] at hempty
    exact hempty rfl
  refine Keeps.bind (createOrderRecord_keeps hx ha hlines) fun _ y hy => ?_
  exact Keeps.after (plain_still hdelete) (fun _ => Keeps.pure hy) trivial

/-- A statement that edits a product leaves no order open. -/
theorem edits_keeps {q : Stmt} (hm : x.may q) (hq : ∀ v, x.after q (.ok v) = x.at .editing) :
    Keeps protocol x (query q) (fun _ y => y.may .commit) fun _ => True := by
  refine keeps_query hm fun r => ?_
  cases r with
  | ok v =>
    rw [hq]
    intro orderId offers lines he
    cases he
  | error e => trivial

theorem listCart_plain : Confined Plain (listCart drv userId) := by
  refine Confined.bind (Confined.await trivial) fun rows => ?_
  split
  · exact Confined.pure
  · exact Confined.bind (Confined.await trivial) fun _ => Confined.pure

theorem addCartItem_plain {productId : Nat} {quantity : Int} : Confined Plain (addCartItem drv userId productId quantity) := by
  refine Confined.bind (Confined.bind (Confined.await trivial) fun product => ?_) fun _ =>
    Confined.bind (Confined.await trivial) fun _ => listCart_plain
  rcases product with - | row
  · exact Confined.throw
  · dsimp only
    split
    · exact Confined.throw
    · split
      · exact Confined.throw
      · exact Confined.pure

theorem getOrderForUser_plain {allowAdmin : Bool} : Confined Plain (getOrderForUser drv userId orderId allowAdmin) := by
  refine Confined.bind (Confined.await trivial) fun row => ?_
  rcases row with - | row
  · exact Confined.throw
  · dsimp only
    split
    · exact Confined.throw
    · exact Confined.bind (Confined.await trivial) fun _ => Confined.pure

theorem cancelOrder_plain : Confined Plain (cancelOrder drv userId orderId) := by
  refine Confined.bind (Confined.await trivial) fun status => ?_
  rcases status with - | status
  · exact Confined.throw
  · dsimp only
    split
    · exact Confined.throw
    · exact Confined.bind (Confined.await trivial) fun _ => Confined.bind (Confined.await trivial) fun _ =>
        getOrderForUser_plain

theorem adminUpdateOrderStatus_plain {status : OrderStatus} :
    Confined Plain (adminUpdateOrderStatus drv userId orderId status) := by
  refine Confined.bind (Confined.await trivial) fun updated => ?_
  split
  · exact Confined.throw
  · exact Confined.bind (Confined.await trivial) fun _ => getOrderForUser_plain

/-- Every call keeps to the protocol and leaves no transaction open. -/
theorem code_keeps (r : Request) :
    Keeps protocol { asked := asked r } (r.code drv) (fun _ y => y.phase = .idle) fun y => y.phase = .idle := by
  have hplain : ∀ {code : Code Payload} {a : Option (Nat × String)}, Confined Plain code →
      Keeps protocol { asked := a } code (fun _ y => y.phase = .idle) fun y => y.phase = .idle := by
    intro code a h
    exact (plain_still h).keeps (fun _ => rfl) rfl
  cases r with
  | createOrder userId deliveryAddress items =>
    change Keeps _ _ (if _ then _ else _) _ _
    split
    · exact Keeps.throw rfl
    · rename_i hempty
      refine withTransaction_keeps (createOrderRecord_keeps rfl rfl ?_) fun _ _ => id
      rintro rfl
      exact hempty rfl
  | checkoutCart userId deliveryAddress => exact checkoutCart_keeps rfl rfl
  | addCartItem userId productId quantity => exact hplain addCartItem_plain
  | adminCreateProduct dto =>
    have hinsert : Keeps protocol { asked := none } (query (.insertProduct dto)) (fun _ y => y.may .commit) fun _ => True :=
      edits_keeps rfl fun _ => rfl
    exact Keeps.bind (withTransaction_keeps hinsert fun _ _ => id) fun _ y hy => Keeps.pure hy
  | adminUpdateProduct productId dto =>
    have hupdate : Keeps protocol { asked := none } (query (.updateProduct productId dto)) (fun _ y => y.may .commit)
        fun _ => True := edits_keeps rfl fun _ => rfl
    refine Keeps.bind (withTransaction_keeps (Q := fun _ y => y.may .commit)
      (Keeps.bind hupdate fun updated y hy => ?_) fun _ _ => id) fun _ y hy => Keeps.pure hy
    split
    · exact Keeps.throw trivial
    · exact Keeps.pure hy
  | cancelOrder userId orderId => exact hplain cancelOrder_plain
  | adminUpdateOrderStatus adminId orderId status => exact hplain adminUpdateOrderStatus_plain

end Protocol

section Effects
variable {m : Move} {b c : Client} {d d' : Db} {q : Stmt} {r : Answer q} {x : Slip} {phase : Phase}
  {buyer : Option (Nat × String)} {orderId lines p : Nat} {offers : List (Nat × String)}

/-- Of a product only the amount is another. -/
def SameOffer (row row' : CatalogProduct) : Prop := row' = { row with amount := row'.amount }

theorem SameOffer.trans {row₁ row₂ row₃ : CatalogProduct} (h : SameOffer row₁ row₂) (h' : SameOffer row₂ row₃) :
    SameOffer row₁ row₃ := by
  rw [SameOffer, h', h]

/-- What `c` has written of products, orders and items stays as it is. -/
structure Untouched (c : Client) (d d' : Db) : Prop where
  catalog : ∀ i, d'.catalog.own c i = d.catalog.own c i
  orders : ∀ i, d'.orders.own c i = d.orders.own c i
  items : ∀ i, d'.items.own c i = d.items.own c i

theorem Untouched.refl : Untouched c d d := ⟨fun _ => rfl, fun _ => rfl, fun _ => rfl⟩

theorem untouched_of_rely (h : Rely c d d') : Untouched c d d' := ⟨h.catalog, h.orders, h.items⟩

theorem plain_untouched (hq : Plain q) (h : act m c q d = some (r, d')) : Untouched c d d' := by
  cases m with
  | fail e =>
    obtain ⟨-, rfl⟩ := act_fail h
    exact Untouched.refl
  | run now =>
    cases q with
    | commit | rollback | insertOrder | insertProduct | updateProduct | selectProductForUpdate | insertOrderItem
    | decrementAmount => exact hq.elim
    | upsertCartItem => exact untouched_of_rely (Change.rely_of_pool fun b => upsertCartItem_change h)
    | cancelOrderRow | updateOrderStatus =>
      obtain ⟨⟨y, e⟩, hx, he⟩ := Option.map_eq_some_iff.mp h
      cases he
      exact untouched_of_rely (Change.rely_of_pool fun b =>
        updateOrderRow_change (fun _ => by rfl) (fun _ => by rfl) hx)
    | lockCartRow | deleteCartRow =>
      simp only [act, exec] at h
      repeat' split at h
      all_goals cases h
      all_goals exact ⟨fun _ => rfl, fun _ => rfl, fun _ => rfl⟩
    | insertOrderHistory ex | selectOrderItems ex =>
      cases ex <;> cases h <;> exact ⟨fun _ => rfl, fun _ => rfl, fun _ => rfl⟩
    | _ =>
      cases h
      exact Untouched.refl

/-- What a call that places an order has written: the order, the products that it has locked and
sold from, and items under their prices. -/
structure Ordering (buyer : Option (Nat × String)) (c : Client) (orderId : Nat) (offers : List (Nat × String))
    (lines : Nat) (d : Db) : Prop where
  order : ∃ o, d.orders.own c orderId = some (none, some o) ∧ buyer = some (o.userId, o.deliveryAddress)
  only : ∀ i v, d.orders.own c i = some v → i = orderId
  products : ∀ p v, d.catalog.own c p = some v → ∃ row row', v = (some row, some row') ∧ SameOffer row row' ∧
    row.deleted = false
  priced : ∀ p price, (p, price) ∈ offers → ∃ row w, d.catalog.own c p = some (some row, w) ∧ row.price = price ∧
    row.isActive = true
  items : ∀ i v, d.items.own c i = some v → ∃ r, v = (none, some r) ∧ r.orderId = orderId ∧ 0 < r.quantity ∧
    (r.productId, r.unitPrice) ∈ offers
  filled : 0 < lines → ∃ i v, d.items.own c i = some v

/-- What the open transaction of `c` has written, by its phase. -/
def Written (buyer : Option (Nat × String)) (c : Client) : Phase → Db → Prop
  | .idle, d => (∀ i, d.catalog.own c i = none) ∧ (∀ i, d.orders.own c i = none) ∧ ∀ i, d.items.own c i = none
  | .editing, d => (∀ i, d.orders.own c i = none) ∧ ∀ i, d.items.own c i = none
  | .ordering orderId offers lines, d => Ordering buyer c orderId offers lines d

theorem Written.untouched (h : Written buyer c phase d) (hu : Untouched c d d') : Written buyer c phase d' := by
  cases phase with
  | idle => simpa only [Written, hu.catalog, hu.orders, hu.items] using h
  | editing => simpa only [Written, hu.orders, hu.items] using h
  | ordering orderId offers lines =>
    constructor
    · simpa only [hu.orders] using h.order
    · simpa only [hu.orders] using h.only
    · simpa only [hu.catalog] using h.products
    · simpa only [hu.catalog] using h.priced
    · simpa only [hu.items] using h.items
    · simpa only [hu.items] using h.filled

theorem after_error {e : PgError} (hq : q ≠ .rollback) : x.phase.after q (.error e) = x.phase := by
  obtain ⟨asked, phase⟩ := x
  cases q with
  | rollback => exact absurd rfl hq
  | _ => cases phase <;> rfl

theorem Ordering.begin {o : ProductOrder} (h : Written buyer c .idle d) (hb : buyer = some (o.userId, o.deliveryAddress)) :
    Ordering buyer c d.orders.next [] 0 { d with orders := d.orders.insert c o } := by
  obtain ⟨hcatalog, horders, hitems⟩ := h
  constructor
  · exact ⟨o, by rw [Table.own_insert, if_pos rfl], hb⟩
  · intro i v hi
    rw [Table.own_insert] at hi
    split at hi
    · assumption
    · rw [horders] at hi
      cases hi
  · intro p v hp
    rw [hcatalog] at hp
    cases hp
  · intro p price hp
    cases hp
  · intro i v hi
    rw [hitems] at hi
    cases hi
  · intro hn
    cases hn

/-- The version that a call sees of a product that is not deleted: the committed one or its own. -/
theorem Ordering.seen {row : CatalogProduct} (h : Ordering buyer c orderId offers lines d)
    (hv : d.catalog.view c p = some row) (hdel : row.deleted = false) :
    ∃ row₀, d.catalog.committed p = some row₀ ∧ SameOffer row₀ row ∧ row₀.deleted = false := by
  rcases ho : d.catalog.own c p with - | v
  · rw [Table.view_of_not_own ho] at hv
    exact ⟨row, hv, rfl, hdel⟩
  · obtain ⟨row₀, row', rfl, hsame, hdel₀⟩ := h.products p v ho
    rw [Table.view_of_own ho] at hv
    cases hv
    exact ⟨row₀, Table.own_committed ho, hsame, hdel₀⟩

/-- Writing an amount to a product that the call sees. -/
theorem Ordering.write {row row' : CatalogProduct} {a : Client → List (Nat × Int)}
    (h : Ordering buyer c orderId offers lines d) (hv : d.catalog.view c p = some row) (hdel : row.deleted = false)
    (hs : SameOffer row row') :
    Ordering buyer c orderId offers lines { d with catalog := d.catalog.write c p (some row'), amountSet := a } := by
  obtain ⟨row₀, hrow₀, hsame, hdel₀⟩ := h.seen hv hdel
  refine { h with products := fun j v hj => ?_, priced := fun j price hj => ?_ }
  · rw [Table.own_write (Table.lt_of_view hv)] at hj
    split at hj
    · cases hj
      exact ⟨row₀, row', by rw [hrow₀], hsame.trans hs, hdel₀⟩
    · exact h.products j v hj
  · obtain ⟨row₁, w, ho, hprice, hactive⟩ := h.priced j price hj
    rw [Table.own_write (Table.lt_of_view hv)]
    split
    · rename_i heq
      subst heq
      exact ⟨row₁, some row', by rw [Table.own_committed ho], hprice, hactive⟩
    · exact ⟨row₁, w, ho, hprice, hactive⟩

theorem Ordering.offer {row row₀ : CatalogProduct} {w : Option CatalogProduct}
    (h : Ordering buyer c orderId offers lines d) (ho : d.catalog.own c p = some (some row₀, w))
    (hs : SameOffer row₀ row) (ha : row.isActive = true) :
    Ordering buyer c orderId ((p, row.price) :: offers) lines d := by
  refine { h with priced := fun j price hj => ?_, items := fun i v hi => ?_ }
  · rcases List.mem_cons.mp hj with heq | hj
    · cases heq
      rw [hs] at ha ⊢
      exact ⟨row₀, w, ho, rfl, ha⟩
    · exact h.priced j price hj
  · obtain ⟨r, hr, hid, hq, hmem⟩ := h.items i v hi
    exact ⟨r, hr, hid, hq, List.mem_cons_of_mem _ hmem⟩

theorem Ordering.item {r : OrderItem} (h : Ordering buyer c orderId offers lines d) (hid : r.orderId = orderId)
    (hq : 0 < r.quantity) (hr : (r.productId, r.unitPrice) ∈ offers) :
    Ordering buyer c orderId offers (lines + 1) { d with items := d.items.insert c r } := by
  refine { h with items := fun i v hi => ?_, filled := fun _ => ?_ }
  · rw [Table.own_insert] at hi
    split at hi
    · cases hi
      exact ⟨r, rfl, hid, hq, hr⟩
    · exact h.items i v hi
  · exact ⟨d.items.next, (none, some r), by rw [Table.own_insert, if_pos rfl]⟩

/-- One statement of the call, and what it has written then. -/
theorem Written.own (h : Written x.asked c x.phase d) (hm : x.may q) (ha : act m c q d = some (r, d')) :
    Written x.asked c (x.phase.after q r) d' := by
  by_cases hp : Plain q
  · have hkeep := (plain_step (x := x) hp r).2
    have hphase : x.phase.after q r = x.phase := (congrArg Slip.phase hkeep).symm
    rw [hphase]
    exact h.untouched (plain_untouched hp ha)
  cases m with
  | fail e =>
    obtain ⟨rfl, rfl⟩ := act_fail ha
    rw [after_error ?_]
    · exact h
    · rintro rfl
      cases ha
  | run now =>
    obtain ⟨asked, phase⟩ := x
    cases q with
    | commit =>
      cases ha
      exact ⟨fun _ => Table.own_commit_self, fun _ => Table.own_commit_self, fun _ => Table.own_commit_self⟩
    | rollback =>
      cases ha
      exact ⟨fun _ => Table.own_rollback_self, fun _ => Table.own_rollback_self, fun _ => Table.own_rollback_self⟩
    | insertOrder userId deliveryAddress =>
      obtain ⟨hasked, hphase⟩ := hm
      dsimp only at hasked hphase h ⊢
      subst hphase
      cases ha
      exact Ordering.begin h hasked
    | insertProduct dto =>
      obtain rfl : phase = .idle := hm
      simp only [act, exec] at ha
      split at ha
      · cases ha
        exact h
      · split at ha <;> cases ha
        · exact h
        · exact ⟨h.2.1, h.2.2⟩
    | updateProduct p dto =>
      obtain rfl : phase = .idle := hm
      simp only [act, exec] at ha
      repeat' split at ha
      all_goals cases ha
      all_goals first | exact h | exact ⟨h.2.1, h.2.2⟩
    | selectProductForUpdate p =>
      obtain ⟨orderId, offers, lines, hphase⟩ := hm
      dsimp only at hphase h ⊢
      subst hphase
      simp only [act, exec] at ha
      split at ha
      · cases ha
        exact h
      · rename_i row hv
        split at ha
        · cases ha
          exact h
        · rename_i hdel
          have hdel' : row.deleted = false := by simpa using hdel
          split at ha <;> cases ha
          have hw := Ordering.write (a := d.amountSet) h hv hdel' (show SameOffer row row from rfl)
          rw [Table.lock, hv]
          change Ordering asked c orderId ((offered (.selectProductForUpdate p) (.ok (some row))).toList ++ offers) lines _
          rw [offered_row]
          by_cases hactive : row.isActive = true
          · obtain ⟨row₀, hrow₀, hsame, -⟩ := h.seen hv hdel'
            have ho : (d.catalog.write c p (some row)).own c p = some (some row₀, some row) := by
              rw [Table.own_write (Table.lt_of_view hv), if_pos rfl, hrow₀]
            rw [if_pos hactive]
            exact hw.offer ho hsame hactive
          · rw [if_neg hactive]
            exact hw
    | insertOrderItem orderId p quantity unitPrice =>
      obtain ⟨offers, lines, hphase, hmem⟩ := hm
      dsimp only at hphase h ⊢
      subst hphase
      simp only [act, exec] at ha
      split at ha
      · cases ha
        exact h
      · rename_i hq
        split at ha <;> cases ha
        · exact h
        · exact Ordering.item h rfl (Int.not_le.mp hq) hmem
    | decrementAmount quantity p =>
      obtain ⟨orderId, offers, lines, hphase, price, hmem⟩ := hm
      dsimp only at hphase h ⊢
      subst hphase
      simp only [act, exec] at ha
      split at ha
      · cases ha
        exact h
      · rename_i row hv
        split at ha
        · cases ha
        · split at ha <;> cases ha
          · exact h
          · obtain ⟨row₀, w, ho, -⟩ := h.priced p price hmem
            obtain ⟨row₁, row', hv', hsame, hdel⟩ := h.products p _ ho
            have hrow : row' = row := by
              rw [Table.view_of_own ho] at hv
              cases hv'
              exact Option.some.inj hv
            have hdel' : row.deleted = false := by
              rw [← hrow, hsame]
              exact hdel
            exact Ordering.write (a := d.amountSet) h hv hdel' rfl
    | _ => exact absurd trivial hp

end Effects

section Runs
variable {drv : Driver} {req : Client → Request} {d d' d₀ : Db} {s t u : State} {e : Taken} {xs : List Taken}
  {slips : Client → Slip} {b c : Client} {i : Nat}

/-- The calls' transactions have written what their notes say. -/
def Noted (req : Client → Request) (slips : Client → Slip) (d : Db) : Prop :=
  ∀ c, (slips c).asked = asked (req c) ∧ Written (slips c).asked c (slips c).phase d

/-- Each call keeps to the protocol from notes that are true. -/
def Sound (req : Client → Request) (s : State) : Prop :=
  ∃ slips, Noted req slips s.db ∧ InPhase protocol (outcome (fun _ y => y.phase = .idle) fun y => y.phase = .idle) slips s

theorem Noted.step (h : Noted req slips s.db) (hm : (slips e.client).may e.stmt) (hs : Step act s e t) :
    Noted req (noted Slip.after slips e) t.db := by
  intro c
  rcases noted_or Slip.after slips e c with ⟨rfl, hn⟩ | ⟨hne, hn⟩
  · rw [hn]
    exact ⟨(h e.client).1, (h e.client).2.own hm hs.acted⟩
  · rw [hn]
    exact ⟨(h c).1, (h c).2.untouched (untouched_of_rely (act_rely hs.acted hne))⟩

theorem initial_sound (hq : Quiet d₀) : Sound req (initial drv req d₀) :=
  ⟨fun c => { asked := asked (req c) },
    fun _ => ⟨rfl, own_of_quiet hq.catalog, own_of_quiet hq.orders, own_of_quiet hq.items⟩, fun c => code_keeps (req c)⟩

theorem sound_step : Trace.Preserved (Step act) (Sound req) := by
  rintro s e t hs ⟨slips, hn, hp⟩
  obtain ⟨hm, hp'⟩ := hp.noted hs
  exact ⟨_, hn.step hm hs, hp'⟩

/-- The item was committed by this step, with the order that was asked for, and its product was then on
sale at its price. -/
structure Receipt (req : Client → Request) (d : Db) (e : Taken) (d' : Db) (i : Nat) (r : OrderItem) : Prop where
  commit : e.stmt = .commit
  fresh : d.items.committed i = none
  written : d'.items.committed i = some r
  quantity : 0 < r.quantity
  product : ∃ row row', d.catalog.committed r.productId = some row ∧ d'.catalog.committed r.productId = some row' ∧
    SameOffer row row' ∧ row.price = r.unitPrice ∧ row.isActive = true ∧ row.deleted = false
  order : ∃ o, d.orders.committed r.orderId = none ∧ d'.orders.committed r.orderId = some o ∧
    asked (req e.client) = some (o.userId, o.deliveryAddress)

/-- What a step makes of the committed items and orders. -/
structure Filed (req : Client → Request) (d : Db) (e : Taken) (d' : Db) : Prop where
  kept : ∀ i r, d.items.committed i = some r → d'.items.committed i = some r
  receipt : ∀ i r, d'.items.committed i = some r → d.items.committed i = some r ∨ Receipt req d e d' i r
  filled : ∀ i o, d'.orders.committed i = some o → (∃ o, d.orders.committed i = some o) ∨
    ∃ j r, Receipt req d e d' j r ∧ r.orderId = i

theorem Change.committed_items (h : Change c d d') : d'.items.committed i = d.items.committed i := by
  cases h with
  | insertItem => exact Table.committed_insert
  | _ => rfl

theorem Change.committed_orders {o : ProductOrder} (h : Change c d d') (ho : d'.orders.committed i = some o) :
    ∃ o, d.orders.committed i = some o := by
  cases h with
  | insertOrder =>
    rw [Table.committed_insert] at ho
    exact ⟨o, ho⟩
  | updateOrder hc =>
    rw [Table.committed_store (Table.lt_of_committed hc)] at ho
    split at ho
    · rename_i heq
      exact ⟨_, heq ▸ hc⟩
    · exact ⟨o, ho⟩
  | _ => exact ⟨o, ho⟩

/-- The items and orders that were committed are those after the step. -/
theorem filed_of_same (hi : ∀ i, d'.items.committed i = d.items.committed i)
    (ho : ∀ i o, d'.orders.committed i = some o → ∃ o, d.orders.committed i = some o) : Filed req d e d' where
  kept i _ h := (hi i).trans h
  receipt i _ h := Or.inl ((hi i).symm.trans h)
  filled i o h := Or.inl (ho i o h)

theorem committed_of_not_own {V : Type} {t : Table Client V} (h : t.own c i = none) :
    (t.commit c).committed i = t.committed i := by
  rw [Table.committed_commit, h]
  rfl

theorem committed_of_own {V : Type} {t : Table Client V} {v w : Option V} (h : t.own c i = some (v, w)) :
    (t.commit c).committed i = w := by
  rw [Table.committed_commit, h]
  rfl

/-- The commit of an order publishes its items, under the prices of the products that it has locked. -/
theorem Ordering.receipt {orderId lines : Nat} {offers : List (Nat × String)} {r : OrderItem} {m : Move} {v : Answer .commit}
    (h : Ordering (asked (req c)) c orderId offers lines d) (hi : d.items.own c i = some (none, some r))
    (hr : r.orderId = orderId ∧ 0 < r.quantity ∧ (r.productId, r.unitPrice) ∈ offers) :
    Receipt req d ⟨c, m, .commit, v⟩ (d.commit c) i r := by
  obtain ⟨rfl, hq, hmem⟩ := hr
  obtain ⟨row, w, hown, hprice, hactive⟩ := h.priced _ _ hmem
  obtain ⟨row₀, row', he, hsame, hdel⟩ := h.products _ _ hown
  cases he
  obtain ⟨o, ho, hb⟩ := h.order
  constructor
  · rfl
  · exact Table.own_committed hi
  · exact committed_of_own hi
  · exact hq
  · exact ⟨row, row', Table.own_committed hown, committed_of_own hown, hsame, hprice, hactive, hdel⟩
  · exact ⟨o, Table.own_committed ho, committed_of_own ho, hb⟩

theorem commit_filed {m : Move} {v : Answer .commit} (h : Noted req slips d) (hm : (slips c).may .commit) :
    Filed req d ⟨c, m, .commit, v⟩ (d.commit c) := by
  obtain ⟨hasked, hw⟩ := h c
  rw [hasked] at hw
  cases hphase : (slips c).phase with
  | idle =>
    rw [hphase] at hw
    exact filed_of_same (fun i => committed_of_not_own (hw.2.2 i)) fun i o ho =>
      ⟨o, (committed_of_not_own (hw.2.1 i)).symm.trans ho⟩
  | editing =>
    rw [hphase] at hw
    exact filed_of_same (fun i => committed_of_not_own (hw.2 i)) fun i o ho =>
      ⟨o, (committed_of_not_own (hw.1 i)).symm.trans ho⟩
  | ordering orderId offers lines =>
    rw [hphase] at hw
    refine ⟨fun i r hi => ?_, fun i r hi => ?_, fun i o ho => ?_⟩
    · rcases hown : d.items.own c i with - | w
      · exact (committed_of_not_own hown).trans hi
      · obtain ⟨r', rfl, -⟩ := hw.items i w hown
        rw [Table.own_committed hown] at hi
        cases hi
    · rcases hown : d.items.own c i with - | w
      · exact Or.inl ((committed_of_not_own hown).symm.trans hi)
      · obtain ⟨r', rfl, hr⟩ := hw.items i w hown
        have he : some r' = some r := (committed_of_own hown).symm.trans hi
        cases he
        exact Or.inr (hw.receipt hown hr)
    · rcases hown : d.orders.own c i with - | w
      · exact Or.inl ⟨o, (committed_of_not_own hown).symm.trans ho⟩
      · obtain ⟨j, w', hj⟩ := hw.filled (hm orderId offers lines hphase)
        obtain ⟨r, rfl, hr⟩ := hw.items j w' hj
        exact Or.inr ⟨j, r, hw.receipt hj hr, hr.1.trans (hw.only i w hown).symm⟩

theorem step_filed (h : Sound req s) (hs : Step act s e t) : Filed req s.db e t.db := by
  obtain ⟨slips, hn, hp⟩ := h
  obtain ⟨hm, -⟩ := hp.noted hs
  obtain ⟨c, m, q, r⟩ := e
  rcases act_change hs.acted with hc | ⟨rfl, he⟩ | ⟨-, he⟩
  · exact filed_of_same (fun i => Change.committed_items hc) fun i o => Change.committed_orders hc
  · rw [he]
    exact commit_filed hn hm
  · rw [he]
    exact filed_of_same (fun i => Table.committed_rollback) fun i o ho => ⟨o, Table.committed_rollback.symm.trans ho⟩

/-- A step of the run has committed the item. -/
def Receipted (req : Client → Request) (s : State) (xs : List Taken) (t : State) (i : Nat) (r : OrderItem) : Prop :=
  ∃ ys e zs u v, xs = ys ++ e :: zs ∧ Trace.Run (Step act) s ys u ∧ Step act u e v ∧ Trace.Run (Step act) v zs t ∧
    Receipt req u.db e v.db i r

/-- What a run makes of the committed items and orders. -/
structure Archived (req : Client → Request) (s : State) (xs : List Taken) (t : State) : Prop where
  /-- An item that is committed at some time stays as it is. -/
  kept : ∀ ys zs u, xs = ys ++ zs → Trace.Run (Step act) s ys u → Trace.Run (Step act) u zs t →
    ∀ i r, u.db.items.committed i = some r → t.db.items.committed i = some r
  receipt : ∀ i r, t.db.items.committed i = some r → s.db.items.committed i = some r ∨ Receipted req s xs t i r
  /-- No new order is empty. -/
  filled : ∀ i o, t.db.orders.committed i = some o → (∃ o, s.db.orders.committed i = some o) ∨
    ∃ j r, t.db.items.committed j = some r ∧ s.db.items.committed j ≠ some r ∧ r.orderId = i

theorem run_kept (h : Sound req s) (hr : Trace.Run (Step act) s xs t) {r : OrderItem} (hi : s.db.items.committed i = some r) :
    t.db.items.committed i = some r := by
  have hkeep : Trace.Preserved (Step act) fun s => Sound req s ∧ s.db.items.committed i = some r := by
    intro s e t hs hi
    exact ⟨sound_step s e t hs hi.1, (step_filed hi.1 hs).kept i r hi.2⟩
  exact (hr.preserves hkeep ⟨h, hi⟩).2

/-- Receipts are true and final: whatever orders, checkouts, cart additions and product edits are
interleaved and whichever statements fail, an order item that is committed never changes or vanishes,
each new one was committed with its order, for the user and to the address that the call asked for, while
its product was on sale at exactly its unit price, and no order is committed without items. -/
theorem receipts_true (hq : Quiet d₀) (hr : Trace.Run (Step act) (initial drv req d₀) xs t) :
    Archived req (initial drv req d₀) xs t := by
  have hsound : ∀ {ys u}, Trace.Run (Step act) (initial drv req d₀) ys u → Sound req u := by
    intro ys u hy
    exact hy.preserves sound_step (initial_sound hq)
  refine ⟨fun ys zs u _ hy hz i r hi => run_kept (hsound hy) hz hi, ?_, ?_⟩
  · refine hr.history (I := fun ys u => ∀ i r, u.db.items.committed i = some r →
      (initial drv req d₀).db.items.committed i = some r ∨ Receipted req (initial drv req d₀) ys u i r)
      (fun i r hi => Or.inl hi) ?_
    intro ys u e v hy ih hs i r hi
    rcases (step_filed (hsound hy) hs).receipt i r hi with hold | hnew
    · refine (ih i r hold).imp_right ?_
      rintro ⟨ys', e', zs, v', w, rfl, hy', hs', hz, hreceipt⟩
      exact ⟨ys', e', zs ++ [e], v', w, by simp, hy', hs', hz.append (.step hs .refl), hreceipt⟩
    · exact Or.inr ⟨ys, e, [], u, v, rfl, hy, hs, .refl, hnew⟩
  · refine hr.history (I := fun _ u => ∀ i o, u.db.orders.committed i = some o →
      (∃ o, (initial drv req d₀).db.orders.committed i = some o) ∨ ∃ j r, u.db.items.committed j = some r ∧
        (initial drv req d₀).db.items.committed j ≠ some r ∧ r.orderId = i) (fun i o ho => Or.inl ⟨o, ho⟩) ?_
    intro ys u e v hy ih hs i o ho
    have hfiled := step_filed (hsound hy) hs
    rcases hfiled.filled i o ho with ⟨o', ho'⟩ | ⟨j, r, hreceipt, hr'⟩
    · refine (ih i o' ho').imp_right ?_
      rintro ⟨j, r, hj, hne, hr'⟩
      exact ⟨j, r, hfiled.kept j r hj, hne, hr'⟩
    · refine Or.inr ⟨j, r, hreceipt.written, fun hold => ?_, hr'⟩
      have hstays := run_kept (initial_sound hq) hy hold
      rw [hreceipt.fresh] at hstays
      cases hstays

/-- An order of two lamps, while their price is raised. -/
def raised : Client → Request
  | 0 => .createOrder 1 "Giza" [⟨0, 2⟩]
  | _ => .adminUpdateProduct 0 { price := some "12.00" }

/-- The price of the lamps, and the items that are committed. -/
def bill (t : State) : Option String × List (Int × String) :=
  ((t.db.catalog.committed 0).map (·.price), t.db.items.committedRows.map fun r => (r.quantity, r.unitPrice))

/-- The order locks the lamps and the price is raised after it commits. -/
theorem receipts_true_raised : ∃ xs t,
    Trace.Run (Step act) (initial plainDriver raised lamps) xs t ∧ bill t = (some "12.00", [(2, "10.00")]) ∧
      Archived raised (initial plainDriver raised lamps) xs t := by
  have hplay : ((playTurns raised lamps [(1, 1), (0, 10), (1, 2)]).map bill) = some (some "12.00", [(2, "10.00")]) := by
    decide +kernel
  obtain ⟨xs, t, hr, ho⟩ := playTurns_run hplay
  exact ⟨xs, t, hr, ho, receipts_true lamps_quiet hr⟩

end Runs

end Kayan.Shop.Receipts
