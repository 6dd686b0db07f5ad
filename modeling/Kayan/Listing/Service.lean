import Kayan.Listing.Schema

/-!
# Lists of users, products and conversations

`listUsers`, `listAdmins` and `listUserListings` of `AdminService`, `UsersService.getPublicProfile` and
`ChatService.listConversations`, as functions of the state of the database. Each list also takes the
order in which its query finds the rows.
-/
namespace Kayan.Listing
open Fk Payload Paging
open Chat (Conversation Message ProductStatus)
open Reads (OffsetPaginationQuery resolveOffsetPagination columnIs)
variable (rd : Reader) (f : Like.Folding) (s : Store)

/-- `ORDER BY ... DESC`. -/
def descending {Row K : Type} (key : Row → K) (row : Row) : Kᵒᵈ := OrderDual.toDual (key row)

/-- `mapToAppUser`, of rows without an email. -/
def mapToAppUser (user : User) : Fields :=
  [("id", .num user.id), ("name", .str user.name), ("phone", .str (user.phone.getD "")), ("email", .str ""),
   ("profileState", .str user.status.text)]

section AdminService

structure ListUsersQueryDto extends OffsetPaginationQuery where
  status : Option UserStatus := none
  q : Option String := none

/-- `column ILIKE '%' || escapeLike(q) || '%' ESCAPE '\'`. -/
def columnLike (q text : String) : Bool :=
  Like.ilike f.fold ('%' :: (Like.escape q.toList ++ ['%'])) text.toList = some true

def matchingUsers (status : Option UserStatus) (q : Option String) : List User :=
  s.users.filter fun user => user.deletedAt.isNone && columnIs status user.status &&
    q.all fun q => q = "" || columnLike f q user.name || user.phone.any (columnLike f q)

def listedUser (user : User) : Payload :=
  .obj (mapToAppUser user ++
    [("is_admin", .bool user.isAdmin), ("published_products_count", .num (s.productsOf user.id)),
     ("created_at", .str (rd.timestampText user.createdAt)), ("updated_at", .str (rd.timestampText user.updatedAt))])

/-- A search text with U+0000 cannot be sent as a parameter. -/
def listUsers (query : ListUsersQueryDto) (scan : Scan (matchingUsers f s query.status query.q)) :
    Except Failure Payload :=
  if query.q.all textStorable then
    let rows := Reads.page (resolveOffsetPagination query.toOffsetPaginationQuery 50 100)
      (scan.orderBy (descending fun user => user.createdAt))
    .ok (.obj [("users", .arr (rows.map (listedUser rd s)))])
  else .error (.database .characterNotInRepertoire)

def matchingAdmins : List User := s.users.filter fun user => user.isAdmin && user.deletedAt.isNone

def listedAdmin (user : User) : Payload :=
  .obj (mapToAppUser user ++
    [("is_admin", .bool user.isAdmin), ("created_at", .str (rd.timestampText user.createdAt)),
     ("updated_at", .str (rd.timestampText user.updatedAt))])

/-- `created_at` of the `ORDER BY` is the text of that name in the `SELECT` list. -/
def listAdmins (query : OffsetPaginationQuery) (scan : Scan (matchingAdmins s)) : Except Failure Payload :=
  let rows := Reads.page (resolveOffsetPagination query 20 100)
    (scan.orderBy (descending fun user => rd.timestampText user.createdAt))
  .ok (.obj [("admins", .arr (rows.map (listedAdmin rd)))])

structure ListUserListingsQueryDto extends OffsetPaginationQuery where
  status : Option ProductStatus := none

def matchingListings (userId : Nat) (status : Option ProductStatus) : List Product :=
  s.products.filter fun product => product.ownerId = userId && product.deletedAt.isNone &&
    (product.status = .available || product.status = .sold) && columnIs status product.status

def listedProduct (product : Product) : Payload :=
  let uploaded := (s.imagesOf product.id).find? fun image => (s.file image.fileId).any (·.status = "uploaded")
  .obj
    [("id", rd.bigint product.id), ("name", .str product.name), ("price", .str (Products.decimalText product.price)),
     ("status", .str (productStatusText product.status)), ("city", .str product.city),
     ("created_at", .str (rd.timestampText product.createdAt)),
     ("product_image_file_id", uploaded.elim .null fun image => rd.bigint image.fileId)]

def assertUserExists (userId : Nat) : Except Failure Unit :=
  if s.users.any fun user => user.id = userId && user.deletedAt.isNone then .ok ()
  else .error (.notFound "User not found")

def listUserListings (userId : Nat) (query : ListUserListingsQueryDto)
    (scan : Scan (matchingListings s userId query.status)) : Except Failure Payload := do
  assertUserExists s userId
  let rows := Reads.page (resolveOffsetPagination query.toOffsetPaginationQuery 20 100)
    (scan.orderBy (descending fun product => product.createdAt))
  pure (.obj [("items", .arr (rows.map (listedProduct rd s)))])

end AdminService

section UsersService

def profileUser (user : User) : Payload :=
  .obj (mapToAppUser user ++
    [("created_at", .str (rd.timestampText user.createdAt)), ("ads_count", .num (s.productsOf user.id)),
     ("rate", .str (s.rateOf user.id)), ("contactInfo", .ofText user.contactInfo),
     ("avatar", avatarPayload rd (user.avatarFileId.bind s.file))])

/-- The rows of `product_listing_view` that the profile shows. -/
def profileProducts (userId : Nat) : List Product :=
  s.products.filter fun product => product.deletedAt.isNone && product.ownerId = userId && product.status = .available

/-- An element of the `json_agg` of images: an image whose file is there. -/
def imageJson (image : ProductImage) : Option Payload :=
  (s.file image.fileId).map fun file =>
    .obj
      [("id", .num image.id), ("file_id", .num image.fileId), ("sort_order", .num image.sortOrder),
       ("object_key", .str file.objectKey), ("status", .str file.status)]

def profileProduct (product : Product) : Payload :=
  .obj
    [("id", rd.bigint product.id), ("owner_id", rd.bigint product.ownerId), ("category", .str product.category),
     ("subcategory", .ofText product.subcategory), ("name", .str product.name),
     ("description", .str product.description), ("price", .str (Products.decimalText product.price)),
     ("city", .str product.city), ("address_text", .str product.addressText), ("details", product.details.getD .null),
     ("status", .str (productStatusText product.status)), ("is_negotiable", .bool product.isNegotiable),
     ("preferred_contact_method", .str product.preferredContactMethod),
     ("created_at", .str (rd.timestampText product.createdAt)),
     ("updated_at", .str (rd.timestampText product.updatedAt)), ("seller_rate", .str (s.rateOf product.ownerId)),
     ("images", .arr ((s.imagesOf product.id).filterMap (imageJson s)))]

def getPublicProfile (userId : Nat) (query : OffsetPaginationQuery) (scan : Scan (profileProducts s userId)) :
    Except Failure Payload :=
  match s.users.find? fun user => user.id = userId && user.deletedAt.isNone with
  | none => .error (.notFound "User not found")
  | some user =>
    let rows := Reads.page (resolveOffsetPagination query 20 50)
      (scan.orderBy (descending fun product => product.createdAt))
    .ok (.obj [("user", profileUser rd s user), ("products", .arr (rows.map (profileProduct rd s)))])

end UsersService

section ChatService

inductive Scope where
  | all
  | buy
  | sell
  deriving DecidableEq

def peerOf (userId : Nat) (c : Conversation) : Nat := if c.userAId = userId then c.userBId else c.userAId

/-- The joined product, unless it is deleted. -/
def productOf (c : Conversation) : Option Product :=
  c.productId.bind fun id => s.products.find? fun product => product.id = id && product.deletedAt.isNone

def inScope (userId : Nat) (c : Conversation) : Scope → Bool
  | .all => true
  | .buy => c.productId.isSome && (productOf s c).any (·.ownerId ≠ userId)
  | .sell => c.productId.isSome && (productOf s c).any (·.ownerId = userId)

def matchingConversations (userId : Nat) (scope : Scope) : List Conversation :=
  s.conversations.filter fun c => (c.userAId = userId || c.userBId = userId) &&
    s.users.any (·.id = peerOf userId c) && inScope s userId c scope

def lastMessageOf (c : Conversation) : Option Message :=
  c.lastMessageId.bind fun id => s.messages.find? fun m => m.id = id

/-- `COALESCE(m.sent_at, c.created_at)`. -/
def lastActivity (c : Conversation) : Nat := ((lastMessageOf s c).map (·.sentAt)).getD c.createdAt

/-- `normalizeConversationRow`. -/
def listedConversation (userId : Nat) (c : Conversation) : Payload :=
  let m := lastMessageOf s c
  let product := productOf s c
  let image := product.bind fun product => (s.imagesOf product.id).head?
  let unread := s.messages.countP fun m => m.conversationId = c.id && m.senderId ≠ userId && m.readAt.isNone
  .obj
    [("id", rd.bigint c.id), ("product_id", c.productId.elim .null rd.bigint), ("created_at", .str (rd.iso c.createdAt)),
     ("last_message_id", m.elim .null fun m => rd.bigint m.id), ("last_message_text", .ofText (m.map (·.text))),
     ("last_message_sent_at", .ofText (m.map fun m => rd.iso m.sentAt)),
     ("peer_user_id", rd.bigint (peerOf userId c)), ("unread_count", .num unread),
     ("product_name", .ofText (product.map (·.name))),
     ("product_price", .ofText (product.map fun product => Products.decimalText product.price)),
     ("product_image_file_id", image.elim .null fun image => rd.bigint image.fileId),
     ("product_image_object_key", .ofText (image.map (·.objectKey)))]

def listConversations (userId : Nat) (scope : Scope) (pagination : OffsetPaginationQuery)
    (scan : Scan (matchingConversations s userId scope)) : Except Failure Payload :=
  let rows := Reads.page (resolveOffsetPagination pagination 20 100) (scan.orderBy (descending (lastActivity s)))
  .ok (.obj [("conversations", .arr (rows.map (listedConversation rd s userId)))])

end ChatService

end Kayan.Listing
