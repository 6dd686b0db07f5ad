import Kayan.Database
import Kayan.Items.Schema
import Kayan.Reads.Service

/-!
# The statements on orders, faults and services

The shop's statements and those of the fault and service methods, at READ COMMITTED. The
methods of orders and services write on their own; faults are also written in transactions.
-/
namespace Kayan.Items
open RowStore Shop Reads

/-- The body of `POST /faults`. -/
structure CreateFaultDto where
  title : String
  description : String
  severity : FaultSeverity
  address : String
  imageFileIds : Option (List Int) := none

/-- The body of `PATCH /faults/:id`. -/
structure UpdateFaultDto where
  title : Option String := none
  description : Option String := none
  severity : Option FaultSeverity := none
  address : Option String := none
  imageFileIds : Option (List Int) := none

/-- The body of `PATCH /services/:id`. -/
structure UpdateServiceOrderDto where
  description : Option String := none
  address : Option String := none

/-- A row of the query of `getFaultForUserWithExecutor`. -/
structure FaultRow where
  fault : FaultReport
  hasRated : Bool

inductive Stmt where
  | shop (q : Shop.Stmt)
  | updateDeliveryAddress (deliveryAddress : String) (orderId : Nat)
  | insertFault (userId : Nat) (dto : CreateFaultDto)
  | selectOwnFaultStatus (ex : Executor) (faultId userId : Nat)
  | selectFaultStatus (faultId : Nat)
  | updateFault (dto : UpdateFaultDto) (faultId : Nat)
  | cancelFaultRow (faultId : Nat)
  | updateFaultStatus (status : FaultStatus) (faultId : Nat)
  | insertFaultHistory (ex : Executor) (faultId : Nat) (status : FaultStatus) (changedBy : Nat)
  | selectFiles (fileIds : List Int)
  | deleteFaultAssets (faultId : Nat)
  | insertFaultAsset (faultId : Nat) (fileId : Int) (sortOrder : Nat)
  | selectFault (ex : Executor) (faultId userId : Nat)
  | selectFaultAssets (ex : Executor) (faultIds : List Nat)
  | insertService (userId : Nat) (dto : CreateServiceOrderDto)
  | selectServiceStatus (serviceId userId : Nat)
  | updateService (dto : UpdateServiceOrderDto) (serviceId : Nat)
  | cancelServiceRow (serviceId : Nat)
  | updateServiceStatus (status : ServiceStatus) (serviceId : Nat)
  | insertServiceHistory (serviceId : Nat) (status : ServiceStatus) (changedBy : Nat)
  | selectService (serviceId : Nat)

/-- The rows that a statement returns, or its row count as far as it is read. -/
def Reply : Stmt → Type
  | .shop q => Shop.Reply q
  | .insertFault _ _ => Nat
  | .selectOwnFaultStatus _ _ _ => Option FaultStatus
  | .selectFaultStatus _ => Option FaultStatus
  | .selectFiles _ => List (Nat × StoredFile)
  | .selectFault _ _ _ => Option FaultRow
  | .selectFaultAssets _ _ => List FaultAssetRow
  | .insertService _ _ => ServiceOrder
  | .selectServiceStatus _ _ => Option ServiceStatus
  | .updateServiceStatus _ _ => Bool
  | .selectService _ => Option ServiceOrder
  | _ => Unit

/-- The reply of a statement: its rows, or the error it raised. -/
abbrev Answer (q : Stmt) : Type := Except PgError (Reply q)

/-- A statement of the shop; the end of its transaction is the end of all of it. -/
def afterShop (c : Client) (shop : Shop.Db) (d : Db) : Shop.Stmt → Db
  | .commit => d.commit c
  | .rollback => d.rollback c
  | _ => { d with shop }

/-- `UPDATE ... WHERE id = $1` on its own. It waits while a transaction holds the row. -/
def updateRow {V : Type} (i : Nat) (f : V → V) (t : Table Client V) : Option (Bool × Table Client V) :=
  match t.committed i with
  | none => some (false, t)
  | some row =>
    match (t.cell i).held with
    | none => some (true, t.store i (some (f row)))
    | some _ => none

/-- The rows of a table that a statement reads. -/
def rowsFor {V : Type} (c : Client) (t : Table Client V) : Executor → List V
  | .client => t.rows c
  | .pool => t.committedRows

/-- The row of a key that a statement reads. -/
def rowFor {V : Type} (c : Client) (t : Table Client V) (i : Nat) : Executor → Option V
  | .client => t.view c i
  | .pool => t.committed i

/-- The assets of faults, joined with their files, by fault, sort order and id. -/
def faultAssetRows (files : Nat → Option StoredFile) (assets : List FaultAsset) (faultIds : List Nat) :
    List FaultAssetRow :=
  ((assets.filter fun r => r.faultId ∈ faultIds).insertionSort
    (orderedBy (·.faultId) .asc (orderedBy (·.sortOrder) .asc fun a b => a.id ≤ b.id))).map fun r =>
      { faultId := r.faultId, fileId := r.fileId, sortOrder := r.sortOrder
        objectKey := (files r.fileId).map (·.objectKey)
        originalFilename := (files r.fileId).bind (·.originalFilename)
        mimeType := (files r.fileId).bind (·.mimeType)
        status := (files r.fileId).map (·.status.text) }

/-- `UPDATE fault_reports SET title = COALESCE(...), ... WHERE id = $5`. -/
def UpdateFaultDto.apply (now : Nat) (dto : UpdateFaultDto) (row : FaultReport) : FaultReport :=
  { row with
    title := dto.title.getD row.title
    description := dto.description.getD row.description
    severity := dto.severity.getD row.severity
    address := dto.address.getD row.address
    updatedAt := now }

/-- `UPDATE service_orders SET description = COALESCE(...), ... WHERE id = $3`. -/
def UpdateServiceOrderDto.apply (now : Nat) (dto : UpdateServiceOrderDto) (row : ServiceOrder) : ServiceOrder :=
  { row with
    description := dto.description.getD row.description
    address := dto.address.getD row.address
    updatedAt := now }

/-- `DELETE FROM fault_assets WHERE fault_id = $1`, in a transaction. -/
def deleteFaultAssets (c : Client) (faultId : Nat) (t : Table Client FaultAsset) :
    Option (Table Client FaultAsset) :=
  let keys := (List.range t.next).filter fun i => (t.view c i).any fun r => r.faultId = faultId
  if keys.all (t.free c) then some (keys.foldl (fun t i => t.write c i none) t) else none

/-- The most parameters that a statement has. -/
def maxParameters : Nat := 65535

/-- What a `BIGINT` holds. -/
def isBigint (i : Int) : Bool := -(Fk.bigintMax : Int) - 1 ≤ i ∧ i ≤ Fk.bigintMax

/-- `SELECT id, purpose, status, mime_type FROM files WHERE id IN (...)`, with one parameter each. -/
def selectFiles (files : Nat → Option StoredFile) (fileIds : List Int) : Except PgError (List (Nat × StoredFile)) :=
  if maxParameters < fileIds.length then .error .protocolViolation
  else if fileIds.all isBigint then
    .ok ((fileIds.filterMap Int.toNat?).filterMap fun i => (files i).map fun f => (i, f))
  else .error .outOfRange

/-- What the store does for a statement of client `c` at time `now`: the reply and the
store after it, or `none` while the statement waits for a lock. -/
def exec (now : Nat) (c : Client) : (q : Stmt) → Db → Option (Answer q × Db)
  | .shop q, d => (Shop.exec now c q d.shop).map fun x => (x.1, afterShop c x.2 d q)
  | .updateDeliveryAddress deliveryAddress orderId, d =>
    (updateRow orderId (fun o => { o with deliveryAddress, updatedAt := now }) d.shop.orders).map fun x =>
      (.ok (), { d with shop := { d.shop with orders := x.2 } })
  | .insertFault userId dto, d =>
    some (.ok d.faults.next,
      { d with faults := d.faults.insert c
                { id := d.faults.next, userId, title := dto.title, description := dto.description,
                  severity := dto.severity, address := dto.address, createdAt := now, updatedAt := now } })
  | .selectOwnFaultStatus ex faultId userId, d =>
    some (.ok (((rowFor c d.faults faultId ex).filter fun r => r.userId = userId).map (·.status)), d)
  | .selectFaultStatus faultId, d => some (.ok ((d.faults.committed faultId).map (·.status)), d)
  | .updateFault dto faultId, d =>
    match d.faults.view c faultId with
    | none => some (.ok (), d)
    | some row =>
      if d.faults.free c faultId then
        some (.ok (), { d with faults := d.faults.write c faultId (some (dto.apply now row)) })
      else none
  | .cancelFaultRow faultId, d =>
    (updateRow faultId (fun r => { r with status := .cancelled, cancelledAt := some now, updatedAt := now })
      d.faults).map fun x => (.ok (), { d with faults := x.2 })
  | .updateFaultStatus status faultId, d =>
    (updateRow faultId (fun r => { r with status, updatedAt := now }) d.faults).map fun x =>
      (.ok (), { d with faults := x.2 })
  | .insertFaultHistory .client faultId status changedBy, d =>
    some (.ok (), { d with faultHistory := d.faultHistory.insert c ⟨faultId, status, changedBy⟩ })
  | .insertFaultHistory .pool faultId status changedBy, d =>
    some (.ok (), { d with faultHistory := d.faultHistory.append ⟨faultId, status, changedBy⟩ })
  | .selectFiles fileIds, d => some (selectFiles d.files fileIds, d)
  | .deleteFaultAssets faultId, d =>
    (deleteFaultAssets c faultId d.faultAssets).map fun t => (.ok (), { d with faultAssets := t })
  | .insertFaultAsset faultId fileId sortOrder, d =>
    if (d.faultAssets.rows c).any fun r => r.faultId = faultId ∧ r.fileId = fileId then
      some (.error .uniqueViolation, d)
    else
      match fileId.toNat?.filter fun i => (d.files i).isSome with
      | none => some (.error .foreignKeyViolation, d)
      | some i =>
        some (.ok (), { d with faultAssets := d.faultAssets.insert c ⟨d.faultAssets.next, faultId, i, sortOrder⟩ })
  | .selectFault ex faultId userId, d =>
    some (.ok ((rowFor c d.faults faultId ex).map fun r =>
      ⟨r, d.ratings.any fun ir => ir = ⟨userId, .fault, faultId⟩⟩), d)
  | .selectFaultAssets ex faultIds, d =>
    some (.ok (faultAssetRows d.files (rowsFor c d.faultAssets ex) faultIds), d)
  | .insertService userId dto, d =>
    let row : ServiceOrder :=
      { id := d.services.next, userId, serviceType := dto.serviceType, description := dto.description,
        address := dto.address, createdAt := now, updatedAt := now }
    some (.ok row, { d with services := d.services.append row })
  | .selectServiceStatus serviceId userId, d =>
    some (.ok (((d.services.committed serviceId).filter fun r => r.userId = userId).map (·.status)), d)
  | .updateService dto serviceId, d =>
    (updateRow serviceId (dto.apply now) d.services).map fun x => (.ok (), { d with services := x.2 })
  | .cancelServiceRow serviceId, d =>
    (updateRow serviceId (fun r => { r with status := .cancelled, cancelledAt := some now, updatedAt := now })
      d.services).map fun x => (.ok (), { d with services := x.2 })
  | .updateServiceStatus status serviceId, d =>
    (updateRow serviceId (fun r => { r with status, updatedAt := now }) d.services).map fun x =>
      (.ok x.1, { d with services := x.2 })
  | .insertServiceHistory serviceId status changedBy, d =>
    some (.ok (), { d with serviceHistory := d.serviceHistory.append ⟨serviceId, status, changedBy⟩ })
  | .selectService serviceId, d => some (.ok (d.services.committed serviceId), d)

/-- A failed statement changes nothing. `ROLLBACK` cannot fail: a lost connection rolls
the transaction back as well. -/
def act (m : Move) (c : Client) (q : Stmt) (d : Db) : Option (Answer q × Db) :=
  match m with
  | .run now => exec now c q d
  | .fail e =>
    match q with
    | .shop .rollback => none
    | _ => some (.error e, d)

end Kayan.Items
