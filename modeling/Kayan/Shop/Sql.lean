import Kayan.Database
import Kayan.Shop.Schema

/-!
# The shop's statements

What Postgres does for each statement at READ COMMITTED. A statement that finds a row
locked by another client waits: it is not enabled. A scan that locks or deletes several
rows is a snapshot followed by one statement for each row, since other clients may run
while it waits for a row. `Executor.pool` marks a statement outside any transaction.
-/
namespace Kayan.Shop
open RowStore

/-- Where a statement runs: in the client's open transaction or on its own. -/
inductive Executor where
  | client
  | pool

structure OrderLine where
  productId : Nat
  quantity : Int
  deriving DecidableEq

def OrderItem.line (r : OrderItem) : OrderLine := ⟨r.productId, r.quantity⟩

def CartItem.line (r : CartItem) : OrderLine := ⟨r.productId, r.quantity⟩

/-- The body of `POST /admin/products`, less its files. -/
structure AdminCreateProductDto where
  title : String
  description : String
  amount : Int
  price : String

/-- The body of `PATCH /admin/products/:id`, less its files. -/
structure AdminUpdateProductDto where
  title : Option String := none
  description : Option String := none
  amount : Option Int := none
  price : Option String := none
  isActive : Option Bool := none

/-- A row of the query of `attachOrderItems`. -/
structure OrderItemRow where
  item : OrderItem
  title : Option String
  isActive : Option Bool

/-- An order joined with its user. -/
structure OrderRow where
  order : ProductOrder
  user : Option Account

/-- A row of the query of `listCart`. -/
structure CartRow where
  item : CartItem
  product : CatalogProduct

inductive Stmt where
  | begin
  | commit
  | rollback
  | insertOrder (userId : Nat) (deliveryAddress : String)
  | selectProductForUpdate (productId : Nat)
  | insertOrderItem (orderId productId : Nat) (quantity : Int) (unitPrice : String)
  | decrementAmount (quantity : Int) (productId : Nat)
  | insertOrderHistory (ex : Executor) (orderId : Nat) (status : OrderStatus) (changedBy : Nat)
  | selectOrderItems (ex : Executor) (orderIds : List Nat)
  | insertProduct (dto : AdminCreateProductDto)
  | updateProduct (productId : Nat) (dto : AdminUpdateProductDto)
  | selectProduct (productId : Nat)
  | upsertCartItem (userId productId : Nat) (quantity : Int)
  | selectCart (userId : Nat)
  | selectProductAssets (productIds : List Nat)
  | snapshotCart (userId : Nat)
  | lockCartRow (id userId : Nat)
  | snapshotDelete (userId : Nat)
  | deleteCartRow (id userId : Nat)
  | selectOrderStatus (orderId userId : Nat)
  | cancelOrderRow (orderId : Nat)
  | updateOrderStatus (status : OrderStatus) (orderId : Nat)
  | selectOrder (orderId : Nat)
  | dateNow

/-- The rows that a statement returns, or its row count as far as it is read. -/
def Reply : Stmt → Type
  | .insertOrder _ _ => Nat
  | .selectProductForUpdate _ => Option CatalogProduct
  | .selectOrderItems _ _ => List OrderItemRow
  | .insertProduct _ => Nat
  | .updateProduct _ _ => Bool
  | .selectProduct _ => Option CatalogProduct
  | .selectCart _ => List CartRow
  | .selectProductAssets _ => List ProductAssetRow
  | .snapshotCart _ => List Nat
  | .lockCartRow _ _ => Option CartItem
  | .snapshotDelete _ => List Nat
  | .selectOrderStatus _ _ => Option OrderStatus
  | .updateOrderStatus _ _ => Bool
  | .selectOrder _ => Option OrderRow
  | .dateNow => Nat
  | _ => Unit

/-- Values of an `INTEGER` column. -/
def int4 (n : Int) : Bool := -2147483648 ≤ n ∧ n ≤ 2147483647

/-- `ORDER BY created_at ASC, id ASC`. -/
def CartItem.before (a b : CartItem) : Bool :=
  a.createdAt < b.createdAt ∨ (a.createdAt = b.createdAt ∧ a.id ≤ b.id)

/-- The cart rows of a user that `c` sees. -/
def cartRows (c : Client) (userId : Nat) (d : Db) : List CartItem :=
  (d.cart.rows c).filter fun r => r.userId = userId

/-- The key of the user's row for a product, if one is committed. -/
def cartKey (userId productId : Nat) (t : Table Client CartItem) : Option Nat :=
  (List.range t.next).find? fun i =>
    match t.committed i with
    | some r => r.userId = userId ∧ r.productId = productId
    | none => false

/-- `INSERT ... ON CONFLICT (user_id, product_id) DO UPDATE SET quantity = quantity + EXCLUDED.quantity`,
on its own. It waits while a transaction holds the row of the pair. -/
def upsertCartItem (now userId productId : Nat) (quantity : Int) (d : Db) :
    Option (Except PgError Unit × Db) :=
  let added := fun u p => d.added u p + if u = userId ∧ p = productId then quantity else 0
  match cartKey userId productId d.cart with
  | some i =>
    match d.cart.committed i, (d.cart.cell i).held with
    | some r, none =>
      if r.quantity + quantity ≤ 0 then some (.error .checkViolation, d)
      else if ¬ int4 (r.quantity + quantity) then some (.error .outOfRange, d)
      else some (.ok (),
        { d with cart := d.cart.store i (some { r with quantity := r.quantity + quantity, updatedAt := now }),
                 added := added })
    | _, _ => none
  | none =>
    if quantity ≤ 0 then some (.error .checkViolation, d)
    else if ¬ int4 quantity then some (.error .outOfRange, d)
    else some (.ok (),
      { d with cart := d.cart.append ⟨d.cart.next, userId, productId, quantity, now, now⟩, added := added })

/-- `UPDATE product_orders ... WHERE id = $1` on its own. -/
def updateOrderRow (orderId : Nat) (f : ProductOrder → ProductOrder) (d : Db) : Option (Bool × Db) :=
  match d.orders.committed orderId with
  | none => some (false, d)
  | some row =>
    match (d.orders.cell orderId).held with
    | none => some (true, { d with orders := d.orders.store orderId (some (f row)) })
    | some _ => none

/-- The query of `attachOrderItems`: items of the orders with their products, by order and id. -/
def orderItemRows (view : Nat → Option CatalogProduct) (items : List OrderItem) (orderIds : List Nat) :
    List OrderItemRow :=
  ((items.filter fun r => r.orderId ∈ orderIds).insertionSort
    (fun a b => a.orderId < b.orderId ∨ (a.orderId = b.orderId ∧ a.id ≤ b.id))).map fun r =>
      ⟨r, (view r.productId).map (·.title), (view r.productId).map (·.isActive)⟩

/-- What the store does for a statement of client `c` at time `now`: the reply and the
store after it, or `none` while the statement waits for a lock. -/
def exec (now : Nat) (c : Client) : (q : Stmt) → Db → Option (Except PgError (Reply q) × Db)
  | .begin, d => some (.ok (), d)
  | .commit, d => some (.ok (), d.commit c)
  | .rollback, d => some (.ok (), d.rollback c)
  | .insertOrder userId deliveryAddress, d =>
    some (.ok d.orders.next,
      { d with orders := d.orders.insert c
                { id := d.orders.next, userId, deliveryAddress, createdAt := now, updatedAt := now } })
  | .selectProductForUpdate p, d =>
    match d.catalog.view c p with
    | none => some (.ok none, d)
    | some row =>
      if row.deleted then some (.ok none, d)
      else if d.catalog.free c p then some (.ok (some row), { d with catalog := d.catalog.lock c p })
      else none
  | .insertOrderItem orderId productId quantity unitPrice, d =>
    if quantity ≤ 0 then some (.error .checkViolation, d)
    else if ¬ int4 quantity then some (.error .outOfRange, d)
    else some (.ok (),
      { d with items := d.items.insert c ⟨d.items.next, orderId, productId, quantity, unitPrice⟩ })
  | .decrementAmount quantity p, d =>
    match d.catalog.view c p with
    | none => some (.ok (), d)
    | some row =>
      if ¬ d.catalog.free c p then none
      else if row.amount - quantity < 0 then some (.error .checkViolation, d)
      else some (.ok (),
        { d with catalog := d.catalog.write c p (some { row with amount := row.amount - quantity }) })
  | .insertOrderHistory .client orderId status changedBy, d =>
    some (.ok (), { d with history := d.history.insert c ⟨orderId, status, changedBy⟩ })
  | .insertOrderHistory .pool orderId status changedBy, d =>
    some (.ok (), { d with history := d.history.append ⟨orderId, status, changedBy⟩ })
  | .selectOrderItems .client ids, d =>
    some (.ok (orderItemRows (d.catalog.view c) (d.items.rows c) ids), d)
  | .selectOrderItems .pool ids, d =>
    some (.ok (orderItemRows d.catalog.committed d.items.committedRows ids), d)
  | .insertProduct dto, d =>
    if dto.amount < 0 then some (.error .checkViolation, d)
    else if ¬ int4 dto.amount then some (.error .outOfRange, d)
    else some (.ok d.catalog.next,
      { d with catalog := d.catalog.insert c
                { title := dto.title, description := dto.description, amount := dto.amount, price := dto.price },
               amountSet := Function.update d.amountSet c ((d.catalog.next, dto.amount) :: d.amountSet c) })
  | .updateProduct p dto, d =>
    match d.catalog.view c p with
    | none => some (.ok false, d)
    | some row =>
      let amount := dto.amount.getD row.amount
      if row.deleted then some (.ok false, d)
      else if ¬ d.catalog.free c p then none
      else if amount < 0 then some (.error .checkViolation, d)
      else if ¬ int4 amount then some (.error .outOfRange, d)
      else some (.ok true,
        { d with
          catalog := d.catalog.write c p (some
            { row with title := dto.title.getD row.title, description := dto.description.getD row.description,
                       amount, price := dto.price.getD row.price, isActive := dto.isActive.getD row.isActive })
          amountSet := match dto.amount with
            | some a => Function.update d.amountSet c ((p, a) :: d.amountSet c)
            | none => d.amountSet })
  | .selectProduct p, d =>
    some (.ok ((d.catalog.committed p).filter fun row => !row.deleted), d)
  | .upsertCartItem userId productId quantity, d => upsertCartItem now userId productId quantity d
  | .selectCart userId, d =>
    some (.ok (((d.cart.committedRows.filter fun r => r.userId = userId).insertionSort fun a b =>
        b.before a).filterMap fun r =>
      match d.catalog.committed r.productId with
      | some row => if row.deleted then none else some ⟨r, row⟩
      | none => none), d)
  | .selectProductAssets ids, d => some (.ok (d.assets.filter fun a => a.productId ∈ ids), d)
  | .snapshotCart userId, d =>
    some (.ok (((cartRows c userId d).insertionSort fun a b => a.before b).map (·.id)), d)
  | .lockCartRow i userId, d =>
    if ¬ d.cart.free c i then none
    else
      match d.cart.view c i with
      | some r =>
        if r.userId = userId then some (.ok (some r), { d with cart := d.cart.lock c i })
        else some (.ok none, d)
      | none => some (.ok none, d)
  | .snapshotDelete userId, d => some (.ok ((cartRows c userId d).map (·.id)), d)
  | .deleteCartRow i userId, d =>
    if ¬ d.cart.free c i then none
    else
      match d.cart.view c i with
      | some r =>
        if r.userId = userId then some (.ok (), { d with cart := d.cart.write c i none })
        else some (.ok (), d)
      | none => some (.ok (), d)
  | .selectOrderStatus orderId userId, d =>
    some (.ok (((d.orders.committed orderId).filter fun o => o.userId = userId).map (·.status)), d)
  | .cancelOrderRow orderId, d =>
    (updateOrderRow orderId (fun o =>
      { o with status := .cancelled, cancelledAt := some now, updatedAt := now }) d).map fun x => (.ok (), x.2)
  | .updateOrderStatus status orderId, d =>
    (updateOrderRow orderId (fun o => { o with status, updatedAt := now }) d).map fun x => (.ok x.1, x.2)
  | .selectOrder orderId, d =>
    some (.ok ((d.orders.committed orderId).map fun o => ⟨o, d.users o.userId⟩), d)
  | .dateNow, d => some (.ok now, d)

/-- How a statement is resolved: it runs at some time, or it raises an error. -/
inductive Move where
  | run (now : Nat)
  | fail (e : PgError)

/-- A failed statement changes nothing. `ROLLBACK` cannot fail: a lost connection rolls
the transaction back as well. -/
def act (m : Move) (c : Client) (q : Stmt) (d : Db) : Option (Except PgError (Reply q) × Db) :=
  match m with
  | .run now => exec now c q d
  | .fail e =>
    match q with
    | .rollback => none
    | _ => some (.error e, d)

end Kayan.Shop
