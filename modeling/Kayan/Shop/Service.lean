import Kayan.Shop.Sql

/-!
# The shop's service methods

The order, cart and stock methods of `KayanService`, statement by statement, and
`DatabaseService.withTransaction`.
-/
namespace Kayan.Shop
open Interleave

/-- The reply of a statement: its rows, or the error it raised. -/
abbrev Answer (q : Stmt) : Type := Except PgError (Reply q)

/-- Code of the service: statements, a result or an exception. -/
abbrev Code (α : Type) := Interleave.Code Stmt Reply PgError Failure α

/-- Awaits one statement; its error is thrown. -/
def query (q : Stmt) : Code (Reply q) := await Failure.database q

def badRequest {α : Type} (message : String) : Code α := throw (.badRequest message)

def notFound {α : Type} (message : String) : Code α := throw (.notFound message)

/-- `try { BEGIN; callback; COMMIT } catch { ROLLBACK; throw }`. -/
def withTransaction {α : Type} (callback : Code α) : Code α :=
  transaction Failure.database .begin .commit .rollback callback

section Responses

/-- An order as `attachOrderItems` receives it: its fields, with the ids it reads off them. -/
structure OrderRecord where
  id : Nat
  userId : Nat
  fields : Fields

def orderItemPayload (row : OrderItemRow) : Payload :=
  .obj
    [("id", .num row.item.id), ("product_id", .num row.item.productId),
     ("quantity", .num row.item.quantity), ("unit_price", .str row.item.unitPrice),
     ("product", .obj
       [("id", .num row.item.productId), ("title", .ofText row.title),
        ("is_active", row.isActive.elim .null .bool)])]

/-- The map from order ids to buckets of items that `attachOrderItems` fills row by row. -/
def itemsByOrderId (rows : List OrderItemRow) : Nat → List Payload :=
  rows.foldl (fun buckets row =>
    Function.update buckets row.item.orderId (buckets row.item.orderId ++ [orderItemPayload row]))
    fun _ => []

/-- The rows of a bucket, in their order. -/
theorem itemsByOrderId_eq (rows : List OrderItemRow) (orderId : Nat) :
    itemsByOrderId rows orderId = (rows.filter fun row => row.item.orderId = orderId).map orderItemPayload := by
  suffices h : ∀ buckets : Nat → List Payload,
      (rows.foldl (fun buckets row =>
        Function.update buckets row.item.orderId (buckets row.item.orderId ++ [orderItemPayload row])) buckets) orderId =
      buckets orderId ++ (rows.filter fun row => row.item.orderId = orderId).map orderItemPayload by
    exact (h fun _ => []).trans (List.nil_append _)
  induction rows with
  | nil => intro buckets; simp
  | cons row rest ih =>
    intro buckets
    rw [List.foldl_cons, ih]
    by_cases heq : row.item.orderId = orderId
    · subst heq
      simp
    · simp [heq, Function.update_of_ne (Ne.symm heq)]

/-- One order as `attachOrderItems` returns it. -/
def orderPayload (rows : List OrderItemRow) (includeUser : Bool) (order : OrderRecord) : Payload :=
  let orderItems := itemsByOrderId rows order.id
  let enriched := Fields.put "items" (.arr orderItems)
    (Fields.put "item_count" (.num orderItems.length) order.fields)
  let enriched := if includeUser then
      Fields.put "user" (.obj
        [("id", .num order.userId), ("name", (order.fields.get "user_name").getD .null),
         ("email", (order.fields.get "user_email").getD .null),
         ("phone", (order.fields.get "user_phone").getD .null)]) enriched
    else enriched
  .obj (((enriched.drop "user_name").drop "user_email").drop "user_phone")

/-- `attachOrderItems` after its query. -/
def attachOrderItems (rows : List OrderItemRow) (includeUser : Bool) (orders : List OrderRecord) :
    List Payload :=
  orders.map (orderPayload rows includeUser)

/-- The order columns that the read methods select, with the joined user. -/
def orderRowRecord (drv : Driver) (row : OrderRow) : OrderRecord where
  id := row.order.id
  userId := row.order.userId
  fields :=
    [("id", drv.bigint row.order.id), ("user_id", drv.bigint row.order.userId),
     ("delivery_address", .str row.order.deliveryAddress), ("status", .str row.order.status.text),
     ("created_at", .str (drv.timestampText row.order.createdAt)),
     ("updated_at", .str (drv.timestampText row.order.updatedAt)),
     ("user_name", .ofText (row.user.map (·.name))), ("user_email", .ofText (row.user.map (·.email))),
     ("user_phone", .ofText (row.user.bind (·.phone)))]

def assetPayload (asset : ProductAssetRow) : Payload :=
  .obj
    [("file_id", .num asset.fileId), ("sort_order", .num asset.sortOrder),
     ("object_key", .ofText asset.objectKey), ("original_filename", .ofText asset.originalFilename),
     ("mime_type", .ofText asset.mimeType), ("status", .ofText asset.status)]

/-- The assets of one product, as `attachProductAssets` adds them to its fields. -/
def attachProductAssets (assets : List ProductAssetRow) (productId : Nat) (fields : Fields) : Fields :=
  let related := assets.filter fun a => a.productId = productId
  Fields.put "files" (.arr ((related.filter fun a => !a.isImage).map assetPayload))
    (Fields.put "images" (.arr ((related.filter fun a => a.isImage).map assetPayload)) fields)

/-- One item of the response of `listCart`. -/
def cartItemPayload (drv : Driver) (assets : List ProductAssetRow) (row : CartRow) : Payload :=
  .obj
    [("id", drv.bigint row.item.id), ("product_id", drv.bigint row.item.productId),
     ("quantity", .num row.item.quantity), ("created_at", .str (drv.timestampText row.item.createdAt)),
     ("updated_at", .str (drv.timestampText row.item.updatedAt)),
     ("product", .obj (attachProductAssets assets row.item.productId
       [("id", drv.bigint row.item.productId), ("title", .str row.product.title),
        ("description", .str row.product.description), ("amount", .num row.product.amount),
        ("price", .str row.product.price), ("is_active", .bool row.product.isActive)]))]

end Responses

section Methods
variable (drv : Driver)

/-- The loop of `createOrderRecord`. -/
def orderLines (orderId : Nat) : List OrderLine → Code Unit
  | [] => pure ()
  | item :: rest => do
    let product : Option CatalogProduct ← query (.selectProductForUpdate item.productId)
    match product with
    | none => badRequest s!"Invalid product {item.productId}"
    | some row =>
      if !row.isActive then badRequest s!"Invalid product {item.productId}"
      else if row.amount < item.quantity then
        badRequest s!"Insufficient product amount for {item.productId}"
      else
        query (.insertOrderItem orderId item.productId item.quantity row.price)
        query (.decrementAmount item.quantity item.productId)
        orderLines orderId rest

def createOrderRecord (userId : Nat) (deliveryAddress : String) (items : List OrderLine) :
    Code Payload := do
  let orderId : Nat ← query (.insertOrder userId deliveryAddress)
  orderLines orderId items
  query (.insertOrderHistory .client orderId .received userId)
  let rows : List OrderItemRow ← query (.selectOrderItems .client [orderId])
  let createdAt : Nat ← query .dateNow
  let updatedAt : Nat ← query .dateNow
  let orders := attachOrderItems rows false
    [{ id := orderId, userId
       fields :=
        [("id", .num orderId), ("user_id", .num userId), ("delivery_address", .str deliveryAddress),
         ("status", .str OrderStatus.received.text), ("created_at", .str (drv.iso createdAt)),
         ("updated_at", .str (drv.iso updatedAt))] }]
  pure (.obj [("order", orders.headD .null)])

def createOrder (userId : Nat) (deliveryAddress : String) (items : List OrderLine) : Code Payload :=
  if items.isEmpty then badRequest "Order items are required"
  else withTransaction (createOrderRecord drv userId deliveryAddress items)

/-- Takes the locks of a `SELECT ... FOR UPDATE` over cart rows, in the order of its
snapshot. A row that is gone when its lock is granted is left out. -/
def lockCartRows (userId : Nat) : List Nat → Code (List CartItem)
  | [] => pure []
  | i :: ids => do
    let row : Option CartItem ← query (.lockCartRow i userId)
    let rows ← lockCartRows userId ids
    pure (row.toList ++ rows)

/-- `SELECT id, product_id, quantity FROM cart_items ... FOR UPDATE`. -/
def selectCartForUpdate (userId : Nat) : Code (List CartItem) := do
  let ids : List Nat ← query (.snapshotCart userId)
  lockCartRows userId ids

def deleteCartRows (userId : Nat) : List Nat → Code Unit
  | [] => pure ()
  | i :: ids => do
    query (.deleteCartRow i userId)
    deleteCartRows userId ids

/-- `DELETE FROM cart_items WHERE user_id = $1`. -/
def deleteCart (userId : Nat) : Code Unit := do
  let ids : List Nat ← query (.snapshotDelete userId)
  deleteCartRows userId ids

/-- `checkoutCart` once it has its cart rows. -/
def checkoutRows (userId : Nat) (deliveryAddress : String) (cart : List CartItem) : Code Payload :=
  if cart.isEmpty then badRequest "Cart is empty"
  else do
    let order ← createOrderRecord drv userId deliveryAddress (cart.map CartItem.line)
    deleteCart userId
    pure order

def checkoutCart (userId : Nat) (deliveryAddress : String) : Code Payload :=
  withTransaction do
    let cart ← selectCartForUpdate userId
    checkoutRows drv userId deliveryAddress cart

def assertCartProductState (productId : Nat) (quantity : Int) : Code Unit := do
  let product : Option CatalogProduct ← query (.selectProduct productId)
  match product with
  | none => badRequest s!"Invalid product {productId}"
  | some row =>
    if !row.isActive then badRequest s!"Invalid product {productId}"
    else if row.amount < quantity then badRequest s!"Insufficient product amount for {productId}"
    else pure ()

def listCart (userId : Nat) : Code Payload := do
  let rows : List CartRow ← query (.selectCart userId)
  if rows.isEmpty then pure (.obj [("items", .arr [])])
  else
    let assets ← query (.selectProductAssets (rows.map fun row => row.item.productId))
    pure (.obj [("items", .arr (rows.map (cartItemPayload drv assets)))])

def addCartItem (userId productId : Nat) (quantity : Int) : Code Payload := do
  assertCartProductState productId quantity
  query (.upsertCartItem userId productId quantity)
  listCart drv userId

def adminCreateProduct (dto : AdminCreateProductDto) : Code Nat :=
  withTransaction do
    let productId : Nat ← query (.insertProduct dto)
    pure productId

def adminUpdateProduct (productId : Nat) (dto : AdminUpdateProductDto) : Code Unit :=
  withTransaction do
    let updated : Bool ← query (.updateProduct productId dto)
    if !updated then notFound "Product not found" else pure ()

def getOrderForUser (userId orderId : Nat) (allowAdmin : Bool) : Code Payload := do
  let row : Option OrderRow ← query (.selectOrder orderId)
  match row with
  | none => notFound "Order not found"
  | some row =>
    if !allowAdmin && row.order.userId ≠ userId then throw (.forbidden "Not allowed")
    else
      let rows : List OrderItemRow ← query (.selectOrderItems .pool [row.order.id])
      pure (.obj [("order", (attachOrderItems rows true [orderRowRecord drv row]).headD .null)])

def cancelOrder (userId orderId : Nat) : Code Payload := do
  let status : Option OrderStatus ← query (.selectOrderStatus orderId userId)
  match status with
  | none => notFound "Order not found"
  | some status =>
    if status ≠ .received then
      badRequest "Order cancellation allowed only before processing starts"
    else
      query (.cancelOrderRow orderId)
      query (.insertOrderHistory .pool orderId .cancelled userId)
      getOrderForUser drv userId orderId true

def adminUpdateOrderStatus (adminId orderId : Nat) (status : OrderStatus) : Code Payload := do
  let updated : Bool ← query (.updateOrderStatus status orderId)
  if !updated then notFound "Order not found"
  else
    query (.insertOrderHistory .pool orderId status adminId)
    getOrderForUser drv 0 orderId true

end Methods

/-- The calls that clients make. -/
inductive Request where
  | createOrder (userId : Nat) (deliveryAddress : String) (items : List OrderLine)
  | checkoutCart (userId : Nat) (deliveryAddress : String)
  | addCartItem (userId productId : Nat) (quantity : Int)
  | adminCreateProduct (dto : AdminCreateProductDto)
  | adminUpdateProduct (productId : Nat) (dto : AdminUpdateProductDto)
  | cancelOrder (userId orderId : Nat)
  | adminUpdateOrderStatus (adminId orderId : Nat) (status : OrderStatus)

/-- The program of a call. -/
def Request.code (drv : Driver) : Request → Code Payload
  | .createOrder userId deliveryAddress items => Shop.createOrder drv userId deliveryAddress items
  | .checkoutCart userId deliveryAddress => Shop.checkoutCart drv userId deliveryAddress
  | .addCartItem userId productId quantity => Shop.addCartItem drv userId productId quantity
  | .adminCreateProduct dto => do
    let productId ← Shop.adminCreateProduct dto
    pure (.num productId)
  | .adminUpdateProduct productId dto => do
    Shop.adminUpdateProduct productId dto
    pure .null
  | .cancelOrder userId orderId => Shop.cancelOrder drv userId orderId
  | .adminUpdateOrderStatus adminId orderId status =>
    Shop.adminUpdateOrderStatus drv adminId orderId status

/-- The shop while calls run: the store, and what is left of each client's call. -/
abbrev State := Config Client Stmt Answer (Except Failure Payload) Db

/-- Every client has its request still to run. -/
def initial (drv : Driver) (req : Client → Request) (d : Db) : State :=
  ⟨d, fun c => ((req c).code drv).run⟩

/-- One statement of one client, taken with its move and its reply. -/
abbrev Taken := Event Client Move Stmt Answer

end Kayan.Shop
