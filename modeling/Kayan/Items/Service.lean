import Kayan.Items.Sql
import Kayan.Lib.Protocol

/-!
# The order, fault and service methods

The methods of `KayanService` that create, change and cancel items, statement by statement,
beside the shop's methods.
-/
namespace Kayan.Items
open Interleave RowStore Shop Reads

/-- Code of the service: statements, a result or an exception. -/
abbrev Code (α : Type) := Interleave.Code Stmt Reply PgError Failure α

/-- Awaits one statement; its error is thrown. -/
def query (q : Stmt) : Code (Reply q) := await Failure.database q

def badRequest {α : Type} (message : String) : Code α := throw (.badRequest message)

def notFound {α : Type} (message : String) : Code α := throw (.notFound message)

def forbidden {α : Type} (message : String) : Code α := throw (.forbidden message)

/-- The shop's code as code of the service. -/
def ofShop {α : Type} (code : Shop.Code α) : Code α := ExceptT.mk (code.run.embed Stmt.shop)

/-- `try { BEGIN; callback; COMMIT } catch { ROLLBACK; throw }`. -/
def withTransaction {α : Type} (callback : Code α) : Code α :=
  transaction Failure.database (.shop .begin) (.shop .commit) (.shop .rollback) callback

section Responses

/-- The fault columns of `getFaultForUserWithExecutor`, with `has_rated`. -/
def faultRowFields (drv : Driver) (row : FaultRow) : Fields :=
  [("id", drv.bigint row.fault.id), ("user_id", drv.bigint row.fault.userId),
   ("title", .str row.fault.title), ("description", .str row.fault.description),
   ("severity", .str row.fault.severity.text), ("address", .str row.fault.address),
   ("status", .str row.fault.status.text),
   ("cancelled_at", .ofText (row.fault.cancelledAt.map drv.timestampText)),
   ("created_at", .str (drv.timestampText row.fault.createdAt)),
   ("updated_at", .str (drv.timestampText row.fault.updatedAt)), ("has_rated", .bool row.hasRated)]

/-- One fault as `attachFaultAssets` returns it. -/
def faultPayload (drv : Driver) (assets : List FaultAssetRow) (row : FaultRow) : Payload :=
  .obj (Fields.put "images"
    (.arr ((assets.filter fun fa => fa.faultId = row.fault.id).map faultAssetPayload))
    (faultRowFields drv row))

end Responses

section Methods
variable (drv : Driver)

def updateOrderAddress (userId orderId : Nat) (deliveryAddress : String) : Code Payload := do
  let status : Option OrderStatus ← query (.shop (.selectOrderStatus orderId userId))
  match status with
  | none => notFound "Order not found"
  | some status =>
    if status ≠ .received then badRequest "Address can only be updated before processing starts"
    else
      query (.updateDeliveryAddress deliveryAddress orderId)
      ofShop (getOrderForUser drv userId orderId true)

def getFaultForUserWithExecutor (ex : Executor) (userId faultId : Nat) (allowAdmin : Bool) : Code Payload := do
  let row : Option FaultRow ← query (.selectFault ex faultId userId)
  match row with
  | none => notFound "Fault not found"
  | some row =>
    if !allowAdmin && row.fault.userId ≠ userId then forbidden "Not allowed"
    else
      let assets : List FaultAssetRow ← query (.selectFaultAssets ex [row.fault.id])
      pure (.obj [("fault", faultPayload drv assets row)])

def getFaultForUser (userId faultId : Nat) (allowAdmin : Bool) : Code Payload :=
  getFaultForUserWithExecutor drv .pool userId faultId allowAdmin

/-- What `assertValidFaultImageFiles` throws for a file, if anything. -/
def imageFileFault (rows : List (Nat × StoredFile)) (fileId : Int) : Option String :=
  match (rows.find? fun row => row.1 = fileId).map Prod.snd with
  | none => some s!"File {fileId} not found"
  | some file =>
    if file.status ≠ .uploaded then some s!"File {fileId} must be uploaded before fault association"
    else if file.purpose ≠ .productImage then some s!"File {fileId} must have purpose product_image"
    else if file.mimeType.any fun m => "image/".toList.isPrefixOf m.toList then none
    else some s!"File {fileId} must be an image"

def assertValidFaultImageFiles (fileIds : List Int) : Code Unit :=
  if fileIds.isEmpty then pure ()
  else do
    let uniqueIds := fileIds.eraseDups
    let rows : List (Nat × StoredFile) ← query (.selectFiles uniqueIds)
    match uniqueIds.findSome? (imageFileFault rows) with
    | some message => badRequest message
    | none => pure ()

/-- The loop of `syncFaultAssets`, from index `i`. -/
def insertFaultAssets (faultId : Nat) : Nat → List Int → Code Unit
  | _, [] => pure ()
  | i, fileId :: rest => do
    query (.insertFaultAsset faultId fileId i)
    insertFaultAssets faultId (i + 1) rest

def syncFaultAssets (faultId : Nat) (fileIds : List Int) : Code Unit := do
  assertValidFaultImageFiles fileIds
  query (.deleteFaultAssets faultId)
  insertFaultAssets faultId 0 fileIds

def createFault (userId : Nat) (dto : CreateFaultDto) : Code Payload :=
  withTransaction do
    let faultId : Nat ← query (.insertFault userId dto)
    syncFaultAssets faultId (dto.imageFileIds.getD [])
    query (.insertFaultHistory .client faultId .received userId)
    getFaultForUserWithExecutor drv .client userId faultId true

def updateFault (userId faultId : Nat) (dto : UpdateFaultDto) : Code Payload :=
  withTransaction do
    let status : Option FaultStatus ← query (.selectOwnFaultStatus .client faultId userId)
    match status with
    | none => notFound "Fault not found"
    | some status =>
      if status ≠ .received then badRequest "Fault can only be updated before processing starts"
      else
        query (.updateFault dto faultId)
        match dto.imageFileIds with
        | some fileIds => syncFaultAssets faultId fileIds
        | none => pure ()
        getFaultForUserWithExecutor drv .client userId faultId true

def cancelFault (userId faultId : Nat) : Code Payload := do
  let status : Option FaultStatus ← query (.selectOwnFaultStatus .pool faultId userId)
  match status with
  | none => notFound "Fault not found"
  | some status =>
    if status ≠ .received then badRequest "Fault cancellation allowed only before processing starts"
    else
      query (.cancelFaultRow faultId)
      query (.insertFaultHistory .pool faultId .cancelled userId)
      getFaultForUser drv userId faultId true

/-- The transition table of `assertValidFaultTransition`. -/
def transitions : FaultStatus → List FaultStatus
  | .received => [.assigned, .cancelled]
  | .assigned => [.onTheWay, .cancelled]
  | .onTheWay => [.inProgress, .cancelled]
  | .inProgress => [.finished, .cancelled]
  | .finished => []
  | .cancelled => []

def assertValidFaultTransition (current next : FaultStatus) : Code Unit :=
  if current = next then pure ()
  else if next ∉ transitions current then
    badRequest s!"Invalid fault status transition from {current.text} to {next.text}"
  else pure ()

def adminUpdateFaultStatus (adminId faultId : Nat) (status : FaultStatus) : Code Payload := do
  let current : Option FaultStatus ← query (.selectFaultStatus faultId)
  match current with
  | none => notFound "Fault not found"
  | some current =>
    assertValidFaultTransition current status
    query (.updateFaultStatus status faultId)
    query (.insertFaultHistory .pool faultId status adminId)
    getFaultForUser drv 0 faultId true

def createService (userId : Nat) (dto : CreateServiceOrderDto) : Code Payload := do
  let service : ServiceOrder ← query (.insertService userId dto)
  query (.insertServiceHistory service.id .notStarted userId)
  pure (.obj [("service", .obj (serviceFields drv service))])

def getServiceForUser (userId serviceId : Nat) (allowAdmin : Bool) : Code Payload := do
  let row : Option ServiceOrder ← query (.selectService serviceId)
  match row with
  | none => notFound "Service order not found"
  | some row =>
    if !allowAdmin && row.userId ≠ userId then forbidden "Not allowed"
    else pure (.obj [("service", .obj (serviceFields drv row))])

def updateService (userId serviceId : Nat) (dto : UpdateServiceOrderDto) : Code Payload := do
  let status : Option ServiceStatus ← query (.selectServiceStatus serviceId userId)
  match status with
  | none => notFound "Service order not found"
  | some status =>
    if status ≠ .notStarted then badRequest "Service order can only be updated before processing starts"
    else
      query (.updateService dto serviceId)
      getServiceForUser drv userId serviceId true

def cancelService (userId serviceId : Nat) : Code Payload := do
  let status : Option ServiceStatus ← query (.selectServiceStatus serviceId userId)
  match status with
  | none => notFound "Service order not found"
  | some status =>
    if status ≠ .notStarted then badRequest "Service cancellation allowed only before processing starts"
    else
      query (.cancelServiceRow serviceId)
      query (.insertServiceHistory serviceId .cancelled userId)
      getServiceForUser drv userId serviceId true

def adminUpdateServiceStatus (adminId serviceId : Nat) (status : ServiceStatus) : Code Payload := do
  let updated : Bool ← query (.updateServiceStatus status serviceId)
  if !updated then notFound "Service order not found"
  else
    query (.insertServiceHistory serviceId status adminId)
    getServiceForUser drv 0 serviceId true

end Methods

/-- The calls that clients make. -/
inductive Request where
  | shop (req : Shop.Request)
  | updateOrderAddress (userId orderId : Nat) (deliveryAddress : String)
  | createFault (userId : Nat) (dto : CreateFaultDto)
  | updateFault (userId faultId : Nat) (dto : UpdateFaultDto)
  | cancelFault (userId faultId : Nat)
  | adminUpdateFaultStatus (adminId faultId : Nat) (status : FaultStatus)
  | createService (userId : Nat) (dto : CreateServiceOrderDto)
  | updateService (userId serviceId : Nat) (dto : UpdateServiceOrderDto)
  | cancelService (userId serviceId : Nat)
  | adminUpdateServiceStatus (adminId serviceId : Nat) (status : ServiceStatus)

/-- The program of a call. -/
def Request.code (drv : Driver) : Request → Code Payload
  | .shop req => ofShop (req.code drv)
  | .updateOrderAddress userId orderId deliveryAddress =>
    Items.updateOrderAddress drv userId orderId deliveryAddress
  | .createFault userId dto => Items.createFault drv userId dto
  | .updateFault userId faultId dto => Items.updateFault drv userId faultId dto
  | .cancelFault userId faultId => Items.cancelFault drv userId faultId
  | .adminUpdateFaultStatus adminId faultId status => Items.adminUpdateFaultStatus drv adminId faultId status
  | .createService userId dto => Items.createService drv userId dto
  | .updateService userId serviceId dto => Items.updateService drv userId serviceId dto
  | .cancelService userId serviceId => Items.cancelService drv userId serviceId
  | .adminUpdateServiceStatus adminId serviceId status =>
    Items.adminUpdateServiceStatus drv adminId serviceId status

/-- The calls while they run: the store, and what is left of each client's call. -/
abbrev State := Config Client Stmt Answer (Except Failure Payload) Db

/-- Every client has its request still to run. -/
def initial (drv : Driver) (req : Client → Request) (d : Db) : State :=
  ⟨d, fun c => ((req c).code drv).run⟩

/-- One statement of one client, taken with its move and its reply. -/
abbrev Taken := Event Client Move Stmt Answer

/-- No transaction is open on the items and their histories. -/
structure Quiet (d : Db) : Prop where
  orders : ∀ c i, d.shop.orders.own c i = none
  orderHistory : ∀ c i, d.shop.history.own c i = none
  faults : ∀ c i, d.faults.own c i = none
  faultHistory : ∀ c i, d.faultHistory.own c i = none
  services : ∀ c i, d.services.own c i = none
  serviceHistory : ∀ c i, d.serviceHistory.own c i = none

end Kayan.Items
