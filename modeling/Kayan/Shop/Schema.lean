import Kayan.Lib.RowTable
import Kayan.Payload

/-!
# The shop's tables

`catalog_products`, `product_orders`, `order_items`, `order_status_history` and
`cart_items`, with the columns that the order, cart and stock operations read or write.
-/
namespace Kayan.Shop
open RowStore

/-- One call of a service method. A call opens at most one transaction. -/
abbrev Client := Nat

inductive OrderStatus where
  | received
  | readyToShip
  | onTheWay
  | cancelled
  | delivered
  deriving DecidableEq

/-- The column text of a status. -/
def OrderStatus.text : OrderStatus → String
  | received => "received"
  | readyToShip => "ready_to_ship"
  | onTheWay => "on_the_way"
  | cancelled => "cancelled"
  | delivered => "delivered"

/-- A `catalog_products` row. `price` is the `NUMERIC` column in its text form. -/
structure CatalogProduct where
  title : String
  description : String
  amount : Int
  price : String
  isActive : Bool := true
  deleted : Bool := false
  deriving DecidableEq

structure ProductOrder where
  id : Nat
  userId : Nat
  deliveryAddress : String
  status : OrderStatus := .received
  cancelledAt : Option Nat := none
  createdAt : Nat
  updatedAt : Nat
  deriving DecidableEq

structure OrderItem where
  id : Nat
  orderId : Nat
  productId : Nat
  quantity : Int
  unitPrice : String
  deriving DecidableEq

/-- An `order_status_history` row. -/
structure StatusChange where
  orderId : Nat
  status : OrderStatus
  changedBy : Nat
  deriving DecidableEq

structure CartItem where
  id : Nat
  userId : Nat
  productId : Nat
  quantity : Int
  createdAt : Nat
  updatedAt : Nat
  deriving DecidableEq

/-- The columns of `users` that order reads join. -/
structure Account where
  name : String
  email : String
  phone : Option String

/-- A row of `product_assets` joined with its file, as the asset query returns it. -/
structure ProductAssetRow where
  productId : Nat
  fileId : Nat
  isImage : Bool
  sortOrder : Nat
  objectKey : Option String
  originalFilename : Option String
  mimeType : Option String
  status : Option String

/-- A committed transaction: the client, the amounts that its admin statements have set
(latest first), and the orders, order items and cart deletions that it published. -/
structure Commit where
  client : Client
  sets : List (Nat × Int)
  orders : List ProductOrder
  items : List OrderItem
  taken : List CartItem

/-- The store. `users` and `assets` are only read here. The last three fields are history variables:
`amountSet` holds what the open transaction of a client has set so far, `log` the
committed transactions, newest first, and `added` what committed cart upserts added. -/
structure Db where
  catalog : Table Client CatalogProduct
  orders : Table Client ProductOrder
  items : Table Client OrderItem
  history : Table Client StatusChange
  cart : Table Client CartItem
  users : Nat → Option Account
  assets : List ProductAssetRow
  amountSet : Client → List (Nat × Int)
  log : List Commit
  added : Nat → Nat → Int

/-- The quantity of a product in a list of order items. -/
def quantityOf (p : Nat) (items : List OrderItem) : Int :=
  (items.map fun r => if r.productId = p then r.quantity else 0).sum

namespace Db

/-- What the open transaction of `c` is about to publish. -/
def record (c : Client) (d : Db) : Commit :=
  ⟨c, d.amountSet c, d.orders.pending c, d.items.pending c, d.cart.deleted c⟩

/-- `COMMIT` of client `c`. -/
def commit (c : Client) (d : Db) : Db where
  catalog := d.catalog.commit c
  orders := d.orders.commit c
  items := d.items.commit c
  history := d.history.commit c
  cart := d.cart.commit c
  users := d.users
  assets := d.assets
  amountSet := Function.update d.amountSet c []
  log := d.record c :: d.log
  added := d.added

/-- `ROLLBACK` of client `c`. -/
def rollback (c : Client) (d : Db) : Db where
  catalog := d.catalog.rollback c
  orders := d.orders.rollback c
  items := d.items.rollback c
  history := d.history.rollback c
  cart := d.cart.rollback c
  users := d.users
  assets := d.assets
  amountSet := Function.update d.amountSet c []
  log := d.log
  added := d.added

end Db
end Kayan.Shop
