import Kayan.Reads.Schema

/-!
# Orders, faults and services with their histories

The shop's tables together with `fault_reports`, `fault_status_history`, `fault_assets`,
`service_orders` and `service_status_history`. An item is a row of `product_orders`,
`fault_reports` or `service_orders`.
-/
namespace Kayan.Items
open RowStore Shop Reads

/-- A `fault_status_history` row. -/
structure FaultStatusChange where
  faultId : Nat
  status : FaultStatus
  changedBy : Nat
  deriving DecidableEq

/-- A `service_status_history` row. -/
structure ServiceStatusChange where
  serviceId : Nat
  status : ServiceStatus
  changedBy : Nat
  deriving DecidableEq

structure FaultAsset where
  id : Nat
  faultId : Nat
  fileId : Nat
  sortOrder : Nat
  deriving DecidableEq

inductive FileStatus where
  | pending
  | uploaded
  | failed
  | deleted
  deriving DecidableEq

def FileStatus.text : FileStatus → String
  | pending => "pending"
  | uploaded => "uploaded"
  | failed => "failed"
  | deleted => "deleted"

inductive FilePurpose where
  | avatar
  | productImage
  | chatAttachment
  | document
  deriving DecidableEq

/-- The columns of `files` that fault images read. -/
structure StoredFile where
  purpose : FilePurpose
  objectKey : String
  originalFilename : Option String
  mimeType : Option String
  status : FileStatus

/-- The store. `files` and `ratings` are only read here. -/
structure Db where
  shop : Shop.Db
  faults : Table Client FaultReport
  faultHistory : Table Client FaultStatusChange
  faultAssets : Table Client FaultAsset
  services : Table Client ServiceOrder
  serviceHistory : Table Client ServiceStatusChange
  files : Nat → Option StoredFile
  ratings : List ItemRating

namespace Db

/-- `COMMIT` of client `c`. -/
def commit (c : Client) (d : Db) : Db where
  shop := d.shop.commit c
  faults := d.faults.commit c
  faultHistory := d.faultHistory.commit c
  faultAssets := d.faultAssets.commit c
  services := d.services.commit c
  serviceHistory := d.serviceHistory.commit c
  files := d.files
  ratings := d.ratings

/-- `ROLLBACK` of client `c`. -/
def rollback (c : Client) (d : Db) : Db where
  shop := d.shop.rollback c
  faults := d.faults.rollback c
  faultHistory := d.faultHistory.rollback c
  faultAssets := d.faultAssets.rollback c
  services := d.services.rollback c
  serviceHistory := d.serviceHistory.rollback c
  files := d.files
  ratings := d.ratings

end Db

/-- An item, by its table and its key. -/
structure Item where
  type : ItemType
  id : Nat
  deriving DecidableEq

/-- The status of an item. -/
inductive Status where
  | order (s : OrderStatus)
  | fault (s : FaultStatus)
  | service (s : ServiceStatus)
  deriving DecidableEq

/-- The row of an item. -/
inductive Row where
  | order (r : ProductOrder)
  | fault (r : FaultReport)
  | service (r : ServiceOrder)

def Row.status : Row → Status
  | order r => .order r.status
  | fault r => .fault r.status
  | service r => .service r.status

def Row.cancelledAt : Row → Option Nat
  | order r => r.cancelledAt
  | fault r => r.cancelledAt
  | service r => r.cancelledAt

/-- The default of the column `status`. -/
def Item.initial (x : Item) : Status :=
  match x.type with
  | .order => .order .received
  | .fault => .fault .received
  | .service => .service .notStarted

def Item.cancelled (x : Item) : Status :=
  match x.type with
  | .order => .order .cancelled
  | .fault => .fault .cancelled
  | .service => .service .cancelled

end Kayan.Items
