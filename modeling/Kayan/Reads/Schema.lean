import Kayan.Fk.Records
import Kayan.Shop.Sql

/-!
# The tables that the read endpoints query

Orders with their items and the catalog, fault reports, service orders, follow-up steps and
chats, and the directory of records that foreign keys refer to. A read sees one state of
the tables; the lists are in the order of the heap.
-/
namespace Kayan.Reads
open Shop

inductive ItemType where
  | order
  | fault
  | service
  deriving DecidableEq

def ItemType.text : ItemType → String
  | order => "order"
  | fault => "fault"
  | service => "service"

inductive FaultStatus where
  | received
  | assigned
  | onTheWay
  | inProgress
  | finished
  | cancelled
  deriving DecidableEq

def FaultStatus.text : FaultStatus → String
  | received => "received"
  | assigned => "assigned"
  | onTheWay => "on_the_way"
  | inProgress => "in_progress"
  | finished => "finished"
  | cancelled => "cancelled"

inductive FaultSeverity where
  | normal
  | high
  | urgent
  | emergent
  deriving DecidableEq

def FaultSeverity.text : FaultSeverity → String
  | normal => "normal"
  | high => "high"
  | urgent => "urgent"
  | emergent => "emergent"

/-- The `CASE` of `buildFaultOrderClause`. -/
def FaultSeverity.rank : FaultSeverity → Nat
  | normal => 1
  | high => 2
  | urgent => 3
  | emergent => 4

inductive ServiceType where
  | designing
  | maintenance
  | renewal
  deriving DecidableEq

def ServiceType.text : ServiceType → String
  | designing => "designing"
  | maintenance => "maintenance"
  | renewal => "renewal"

inductive ServiceStatus where
  | notStarted
  | inProgress
  | cancelled
  | finished
  deriving DecidableEq

def ServiceStatus.text : ServiceStatus → String
  | notStarted => "not_started"
  | inProgress => "in_progress"
  | cancelled => "cancelled"
  | finished => "finished"

/-- A `fault_reports` row. -/
structure FaultReport where
  id : Nat
  userId : Nat
  title : String
  description : String
  severity : FaultSeverity
  address : String
  status : FaultStatus := .received
  cancelledAt : Option Nat := none
  createdAt : Nat
  updatedAt : Nat

/-- A row of `fault_assets` joined with its file, as the asset query returns it. -/
structure FaultAssetRow where
  faultId : Nat
  fileId : Nat
  sortOrder : Nat
  objectKey : Option String
  originalFilename : Option String
  mimeType : Option String
  status : Option String

/-- An `item_ratings` row, by its unique key. -/
structure ItemRating where
  userId : Nat
  itemType : ItemType
  itemId : Nat
  deriving DecidableEq

/-- A `service_orders` row. -/
structure ServiceOrder where
  id : Nat
  userId : Nat
  serviceType : ServiceType
  description : String
  address : String
  status : ServiceStatus := .notStarted
  cancelledAt : Option Nat := none
  createdAt : Nat
  updatedAt : Nat

structure FollowupStep where
  id : Nat
  itemType : ItemType
  itemId : Nat
  title : String
  stepImageFileId : Option Nat
  sortOrder : Nat
  createdBy : Option Nat
  createdAt : Nat
  updatedAt : Nat

structure FollowupConversation where
  id : Nat
  itemType : ItemType
  itemId : Nat
  userId : Nat
  adminId : Nat
  createdAt : Nat

structure FollowupMessage where
  id : Nat
  conversationId : Nat
  senderId : Nat
  messageText : String
  sentAt : Nat

/-- A state of the database, with its primary keys. `accounts` holds the columns of `users`
that order and service lists join; `faultAssets` is in the order of the asset query. -/
structure Store where
  catalog : Nat → Option CatalogProduct
  accounts : Nat → Option Account
  orders : List ProductOrder
  items : List OrderItem
  faults : List FaultReport
  faultAssets : List FaultAssetRow
  ratings : List ItemRating
  services : List ServiceOrder
  steps : List FollowupStep
  conversations : List FollowupConversation
  messages : List FollowupMessage
  directory : Fk.Directory
  ordersKeyed : (orders.map (·.id)).Nodup
  faultsKeyed : (faults.map (·.id)).Nodup
  servicesKeyed : (services.map (·.id)).Nodup
  conversationsKeyed : (conversations.map (·.id)).Nodup

end Kayan.Reads
