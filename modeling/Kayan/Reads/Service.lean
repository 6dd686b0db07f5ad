import Kayan.Database
import Kayan.Fk.Expansion
import Kayan.Reads.Schema
import Kayan.Shop.Service

/-!
# The read endpoints

The list and get methods of `KayanService` for orders, faults, services and follow-ups, as
functions of the state of the database, and the response after foreign-key expansion.
-/
namespace Kayan.Reads
open Shop

inductive SortDirection where
  | asc
  | desc
  deriving DecidableEq

/-- The pagination part of a query. -/
structure OffsetPaginationQuery where
  limit : Option Nat := none
  page : Option Nat := none
  offset : Option Nat := none

structure ListOrdersQueryDto extends OffsetPaginationQuery where
  status : Option OrderStatus := none
  fromDate : Option Nat := none
  toDate : Option Nat := none
  sortDirection : Option SortDirection := none

inductive FaultSortBy where
  | createdAt
  | severity

structure ListMyFaultsQueryDto extends OffsetPaginationQuery where
  status : Option FaultStatus := none
  severity : Option FaultSeverity := none
  fromDate : Option Nat := none
  toDate : Option Nat := none
  sortBy : Option FaultSortBy := none
  sortDirection : Option SortDirection := none

structure ListServicesQueryDto extends OffsetPaginationQuery where
  serviceType : Option ServiceType := none
  fromDate : Option Nat := none
  toDate : Option Nat := none
  sortDirection : Option SortDirection := none

abbrev ListFollowupStepsQueryDto := OffsetPaginationQuery

/-- The caller, from the access token. -/
structure AuthUser where
  sub : Nat
  isAdmin : Bool

section Queries
variable {Row : Type}

/-- `resolveOffsetPagination`: the limit and the offset. -/
def resolveOffsetPagination (query : OffsetPaginationQuery) (defaultLimit maxLimit : Nat) : Nat × Nat :=
  let limit := min (query.limit.getD defaultLimit) maxLimit
  let page := query.page.getD 1 - 1
  (limit, query.offset.getD (page * limit))

/-- `LIMIT ... OFFSET ...`. -/
def page (bounds : Nat × Nat) (rows : List Row) : List Row := (rows.drop bounds.2).take bounds.1

/-- A column has the value that the query asks for, if it asks for one. -/
def columnIs {α : Type} [DecidableEq α] (wanted : Option α) (value : α) : Bool :=
  wanted.all fun w => value = w

/-- `created_at` lies between the dates of the query. -/
def createdWithin (fromDate toDate : Option Nat) (createdAt : Nat) : Bool :=
  (fromDate.all fun lo => lo ≤ createdAt) && toDate.all fun hi => createdAt ≤ hi

/-- `ORDER BY k <direction>`, then the order that the rest of the clause gives. -/
def orderedBy (k : Row → Nat) (direction : SortDirection) (rest : Row → Row → Prop) (a b : Row) : Prop :=
  (match direction with
    | .asc => k a < k b
    | .desc => k b < k a) ∨ (k a = k b ∧ rest a b)

instance (k : Row → Nat) (direction : SortDirection) (rest : Row → Row → Prop) [DecidableRel rest] :
    DecidableRel (orderedBy k direction rest) := fun a b => by
  unfold orderedBy
  cases direction <;> infer_instance

section Sorting
variable {k : Row → Nat} {direction : SortDirection} {rest rest' : Row → Row → Prop} {a b c : Row}

theorem orderedBy_total (h : ∀ a b, rest a b ∨ rest b a) (a b : Row) :
    orderedBy k direction rest a b ∨ orderedBy k direction rest b a := by
  have htie (heq : k a = k b) : orderedBy k direction rest a b ∨ orderedBy k direction rest b a :=
    (h a b).imp (fun hrest => .inr ⟨heq, hrest⟩) fun hrest => .inr ⟨heq.symm, hrest⟩
  obtain hlt | heq | hgt := lt_trichotomy (k a) (k b)
  · cases direction with
    | asc => exact .inl (.inl hlt)
    | desc => exact .inr (.inl hlt)
  · exact htie heq
  · cases direction with
    | asc => exact .inr (.inl hgt)
    | desc => exact .inl (.inl hgt)

theorem orderedBy_trans (h : ∀ a b c, rest a b → rest b c → rest a c) (hab : orderedBy k direction rest a b)
    (hbc : orderedBy k direction rest b c) : orderedBy k direction rest a c := by
  unfold orderedBy at *
  obtain hlt | ⟨heq, hrest⟩ := hab
  · left
    cases direction <;> simp only at * <;> omega
  · obtain hlt' | ⟨heq', hrest'⟩ := hbc
    · left
      cases direction <;> simp only at * <;> omega
    · exact .inr ⟨heq.trans heq', h a b c hrest hrest'⟩

theorem orderedBy_mono (h : rest a b → rest' a b) (hab : orderedBy k direction rest a b) :
    orderedBy k direction rest' a b :=
  hab.imp_right fun hboth => ⟨hboth.1, h hboth.2⟩

end Sorting

/-- `ORDER BY created_at <direction>, id DESC`. -/
def byCreation (createdAt id : Row → Nat) (direction : Option SortDirection) (rows : List Row) : List Row :=
  rows.insertionSort (orderedBy createdAt (direction.getD .desc) fun a b => id b ≤ id a)

end Queries

section Orders
variable (drv : Driver) (s : Store)

def listedOrders (own : ProductOrder → Bool) (query : ListOrdersQueryDto) : List ProductOrder :=
  byCreation (·.createdAt) (·.id) query.sortDirection
    (s.orders.filter fun po => own po && columnIs query.status po.status &&
      createdWithin query.fromDate query.toDate po.createdAt)

/-- The items of a page of orders. -/
def orderItems (orders : List ProductOrder) : List OrderItemRow :=
  orderItemRows s.catalog s.items (orders.map (·.id))

/-- The order columns of the list of the user's own orders. -/
def orderRecord (po : ProductOrder) : OrderRecord where
  id := po.id
  userId := po.userId
  fields :=
    [("id", drv.bigint po.id), ("user_id", drv.bigint po.userId),
     ("delivery_address", .str po.deliveryAddress), ("status", .str po.status.text),
     ("created_at", .str (drv.timestampText po.createdAt)),
     ("updated_at", .str (drv.timestampText po.updatedAt))]

def listMyOrders (user : AuthUser) (query : ListOrdersQueryDto) : Payload :=
  let rows := page (resolveOffsetPagination query.toOffsetPaginationQuery 20 100)
    (listedOrders s (fun po => po.userId = user.sub) query)
  .obj [("items", .arr (attachOrderItems (orderItems s rows) false (rows.map (orderRecord drv))))]

def getOrderForUser (userId orderId : Nat) (allowAdmin : Bool) : Except Failure Payload :=
  match s.orders.find? fun po => po.id = orderId with
  | none => .error (.notFound "Order not found")
  | some po =>
    if !allowAdmin && po.userId ≠ userId then .error (.forbidden "Not allowed")
    else
      .ok (.obj [("order", (attachOrderItems (orderItems s [po]) true
        [orderRowRecord drv ⟨po, s.accounts po.userId⟩]).headD .null)])

def adminListOrders (query : ListOrdersQueryDto) : Payload :=
  let listed := listedOrders s (fun _ => true) query
  let rows := page (resolveOffsetPagination query.toOffsetPaginationQuery 20 100) listed
  .obj
    [("items", .arr (attachOrderItems (orderItems s rows) true
       (rows.map fun po => orderRowRecord drv ⟨po, s.accounts po.userId⟩))),
     ("total", .num listed.length)]

end Orders

section Faults
variable (drv : Driver) (s : Store)

/-- The fault columns of the read methods, with `has_rated`. -/
def faultFields (userId : Nat) (fr : FaultReport) : Fields :=
  [("id", drv.bigint fr.id), ("user_id", drv.bigint fr.userId), ("title", .str fr.title),
   ("description", .str fr.description), ("severity", .str fr.severity.text),
   ("address", .str fr.address), ("status", .str fr.status.text),
   ("cancelled_at", .ofText (fr.cancelledAt.map drv.timestampText)),
   ("created_at", .str (drv.timestampText fr.createdAt)),
   ("updated_at", .str (drv.timestampText fr.updatedAt)),
   ("has_rated", .bool (s.ratings.any fun ir => ir = ⟨userId, .fault, fr.id⟩))]

def faultAssetPayload (asset : FaultAssetRow) : Payload :=
  .obj
    [("file_id", .num asset.fileId), ("sort_order", .num asset.sortOrder),
     ("object_key", .ofText asset.objectKey), ("original_filename", .ofText asset.originalFilename),
     ("mime_type", .ofText asset.mimeType), ("status", .ofText asset.status)]

/-- `attachFaultAssets` for one fault: the rows of its bucket, in their order. -/
def attachFaultAssets (fr : FaultReport) (fields : Fields) : Payload :=
  .obj (Fields.put "images"
    (.arr ((s.faultAssets.filter fun fa => fa.faultId = fr.id).map faultAssetPayload)) fields)

/-- `buildFaultOrderClause`. -/
def sortFaults (sortBy : FaultSortBy) (direction : Option SortDirection) (rows : List FaultReport) :
    List FaultReport :=
  match sortBy with
  | .severity =>
    rows.insertionSort (orderedBy (fun fr => fr.severity.rank) (direction.getD .desc)
      (orderedBy (·.createdAt) .desc fun a b => b.id ≤ a.id))
  | .createdAt => byCreation (·.createdAt) (·.id) direction rows

def listMyFaults (user : AuthUser) (query : ListMyFaultsQueryDto) : Payload :=
  let listed := sortFaults (query.sortBy.getD .createdAt) query.sortDirection
    (s.faults.filter fun fr => decide (fr.userId = user.sub) && columnIs query.status fr.status &&
      columnIs query.severity fr.severity && createdWithin query.fromDate query.toDate fr.createdAt)
  let rows := page (resolveOffsetPagination query.toOffsetPaginationQuery 20 100) listed
  .obj [("items", .arr (rows.map fun fr => attachFaultAssets s fr (faultFields drv s user.sub fr)))]

def getFaultForUser (userId faultId : Nat) (allowAdmin : Bool) : Except Failure Payload :=
  match s.faults.find? fun fr => fr.id = faultId with
  | none => .error (.notFound "Fault not found")
  | some fr =>
    if !allowAdmin && fr.userId ≠ userId then .error (.forbidden "Not allowed")
    else .ok (.obj [("fault", attachFaultAssets s fr (faultFields drv s userId fr))])

end Faults

section Services
variable (drv : Driver) (s : Store)

/-- A timestamp column that is not cast to text: a `Date`, or `null`. -/
def timestampColumn : Option Nat → Payload
  | some t => drv.timestamp t
  | none => .null

/-- `SELECT so.*`: the columns of the table. -/
def serviceFields (so : ServiceOrder) : Fields :=
  [("id", drv.bigint so.id), ("user_id", drv.bigint so.userId),
   ("service_type", .str so.serviceType.text), ("description", .str so.description),
   ("address", .str so.address), ("status", .str so.status.text),
   ("cancelled_at", timestampColumn drv so.cancelledAt), ("created_at", drv.timestamp so.createdAt),
   ("updated_at", drv.timestamp so.updatedAt)]

/-- The filter and the order of the service lists. -/
def listedServices (own : ServiceOrder → Bool) (query : ListServicesQueryDto) : List ServiceOrder :=
  byCreation (·.createdAt) (·.id) query.sortDirection
    (s.services.filter fun so => own so && columnIs query.serviceType so.serviceType &&
      createdWithin query.fromDate query.toDate so.createdAt)

/-- A page of services with the total. -/
def servicesPage (query : ListServicesQueryDto) (toItem : ServiceOrder → Payload) (listed : List ServiceOrder) :
    Payload :=
  .obj
    [("items", .arr ((page (resolveOffsetPagination query.toOffsetPaginationQuery 20 100) listed).map toItem)),
     ("total", .num listed.length)]

def listMyServices (user : AuthUser) (query : ListServicesQueryDto) : Payload :=
  servicesPage query (fun so => .obj (serviceFields drv so))
    (listedServices s (fun so => so.userId = user.sub) query)

def getServiceForUser (userId serviceId : Nat) (allowAdmin : Bool) : Except Failure Payload :=
  match s.services.find? fun so => so.id = serviceId with
  | none => .error (.notFound "Service order not found")
  | some so =>
    if !allowAdmin && so.userId ≠ userId then .error (.forbidden "Not allowed")
    else .ok (.obj [("service", .obj (serviceFields drv so))])

def publicListServices (query : ListServicesQueryDto) : Payload :=
  servicesPage query (fun so => .obj (serviceFields drv so)) (listedServices s (fun _ => true) query)

/-- A row of `adminListServices`, with the joined user. -/
def adminServicePayload (so : ServiceOrder) : Payload :=
  let user := s.accounts so.userId
  let name := Payload.ofText (user.map (·.name))
  let email := Payload.ofText (user.map (·.email))
  let phone := Payload.ofText (user.bind (·.phone))
  .obj (serviceFields drv so ++
    [("user_name", name), ("user_email", email), ("user_phone", phone),
     ("user", .obj [("id", .num so.userId), ("name", name), ("email", email), ("phone", phone)])])

def adminListServices (query : ListServicesQueryDto) : Payload :=
  servicesPage query (adminServicePayload drv s) (listedServices s (fun _ => true) query)

structure CreateServiceOrderDto where
  serviceType : ServiceType
  description : String
  address : String

/-- The response of `createService`: the row that the `INSERT` returns. -/
def createService (id now userId : Nat) (dto : CreateServiceOrderDto) : Payload :=
  .obj [("service", .obj (serviceFields drv
    { id, userId, serviceType := dto.serviceType, description := dto.description, address := dto.address,
      createdAt := now, updatedAt := now }))]

end Services

section Followups
variable (drv : Driver) (s : Store)

/-- The owner of an item, if it exists. -/
def resolveOwnership (itemType : ItemType) (itemId : Nat) : Option Nat :=
  match itemType with
  | .order => (s.orders.find? fun po => po.id = itemId).map (·.userId)
  | .fault => (s.faults.find? fun fr => fr.id = itemId).map (·.userId)
  | .service => (s.services.find? fun so => so.id = itemId).map (·.userId)

def assertUserOwnsItem (user : AuthUser) (itemType : ItemType) (itemId : Nat) : Except Failure Unit :=
  match resolveOwnership s itemType itemId with
  | none => .error (.notFound "Item not found")
  | some ownership =>
    if user.isAdmin then .ok ()
    else if ownership ≠ user.sub then .error (.forbidden "Not allowed")
    else .ok ()

def assertItemExists (itemType : ItemType) (itemId : Nat) : Except Failure Unit :=
  match resolveOwnership s itemType itemId with
  | none => .error (.notFound "Item not found")
  | some _ => .ok ()

/-- The step columns of `listFollowupSteps`. -/
def stepFields (step : FollowupStep) : Fields :=
  [("id", drv.bigint step.id), ("item_type", .str step.itemType.text), ("item_id", drv.bigint step.itemId),
   ("title", .str step.title), ("step_image_file_id", step.stepImageFileId.elim .null drv.bigint),
   ("sort_order", .num step.sortOrder), ("created_at", .str (drv.timestampText step.createdAt))]

def listFollowupSteps (user : AuthUser) (itemType : ItemType) (itemId : Nat)
    (query : ListFollowupStepsQueryDto) : Except Failure Payload := do
  assertUserOwnsItem s user itemType itemId
  let steps := (s.steps.filter fun step => step.itemType = itemType ∧ step.itemId = itemId).insertionSort
    (orderedBy (·.sortOrder) .asc fun a b => a.id ≤ b.id)
  let rows := page (resolveOffsetPagination query 50 100) steps
  pure (.obj [("items", .arr (rows.map fun step => .obj (stepFields drv step))), ("total", .num steps.length)])

structure CreateFollowupStepDto where
  itemType : ItemType
  itemId : Nat
  title : String
  stepImageFileId : Option Nat := none
  sortOrder : Option Nat := none

/-- `INSERT ... RETURNING *` of a step: all columns of the table. -/
def createdStepFields (step : FollowupStep) : Fields :=
  [("id", drv.bigint step.id), ("item_type", .str step.itemType.text), ("item_id", drv.bigint step.itemId),
   ("title", .str step.title), ("step_image_file_id", step.stepImageFileId.elim .null drv.bigint),
   ("sort_order", .num step.sortOrder), ("created_by", step.createdBy.elim .null drv.bigint),
   ("created_at", drv.timestamp step.createdAt), ("updated_at", drv.timestamp step.updatedAt)]

/-- The response of `adminCreateFollowupStep`. -/
def adminCreateFollowupStep (id now adminId : Nat) (dto : CreateFollowupStepDto) : Except Failure Payload := do
  assertItemExists s dto.itemType dto.itemId
  pure (.obj [("step", .obj (createdStepFields drv
    { id, itemType := dto.itemType, itemId := dto.itemId, title := dto.title,
      stepImageFileId := dto.stepImageFileId, sortOrder := dto.sortOrder.getD 0, createdBy := some adminId,
      createdAt := now, updatedAt := now }))])

def assertFollowupConversationAccess (user : AuthUser) (conversationId : Nat) : Except Failure Unit :=
  match s.conversations.find? fun fc => fc.id = conversationId with
  | none => .error (.notFound "Conversation not found")
  | some row =>
    if row.userId ≠ user.sub ∧ row.adminId ≠ user.sub then .error (.forbidden "Not allowed")
    else .ok ()

def assertFollowupConversationItemScope (conversationId : Nat) (itemType : ItemType) (itemId : Nat) :
    Except Failure Unit :=
  if s.conversations.any fun fc => fc.id = conversationId ∧ fc.itemType = itemType ∧ fc.itemId = itemId then .ok ()
  else .error (.notFound "Conversation not found")

/-- The message columns of the chat methods. -/
def messageFields (fm : FollowupMessage) : Fields :=
  [("id", drv.bigint fm.id), ("conversation_id", drv.bigint fm.conversationId),
   ("sender_id", drv.bigint fm.senderId), ("message_text", .str fm.messageText),
   ("sent_at", .str (drv.timestampText fm.sentAt))]

def listFollowupMessages (user : AuthUser) (conversationId : Nat) (itemType : ItemType) (itemId : Nat) :
    Except Failure Payload := do
  assertFollowupConversationAccess s user conversationId
  assertFollowupConversationItemScope s conversationId itemType itemId
  let rows := (s.messages.filter fun fm => fm.conversationId = conversationId).insertionSort
    fun a b => a.sentAt ≤ b.sentAt
  pure (.obj [("items", .arr (rows.map fun fm => .obj (messageFields drv fm)))])

/-- The response of `createFollowupConversation`: the row that the upsert returns. -/
def conversationFields (fc : FollowupConversation) : Fields :=
  [("id", drv.bigint fc.id), ("item_type", .str fc.itemType.text), ("item_id", drv.bigint fc.itemId),
   ("user_id", drv.bigint fc.userId), ("admin_id", drv.bigint fc.adminId),
   ("created_at", drv.timestamp fc.createdAt)]

end Followups

end Kayan.Reads
