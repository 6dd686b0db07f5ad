import Kayan.Payload

/-!
# The records that foreign keys expand to

The rows that the lookup queries of `FkExpansionService` read, with their joined and
computed columns, and the records that it makes of them.
-/
namespace Kayan.Fk

inductive EntityType where
  | user
  | category
  | product
  | message
  | conversation
  | file
  deriving DecidableEq

/-- A `files` row. Timestamps are in the text form of the queries. -/
structure FileRow where
  id : Nat
  purpose : String
  objectKey : String
  mimeType : Option String
  status : String
  createdAt : String
  uploadedAt : Option String

/-- A `users` row with its avatar file and its average rating. -/
structure UserRow where
  id : Nat
  name : String
  phone : Option String
  status : String
  avatar : Option FileRow
  contactInfo : Option String
  rate : String
  deleted : Bool := false

/-- A row of the legacy `products` table. -/
structure ProductRow where
  id : Nat
  ownerId : Nat
  name : String
  price : String
  status : String
  city : String
  createdAt : String
  deleted : Bool := false

/-- A `messages` row. -/
structure MessageRow where
  id : Nat
  messageText : String
  sentAt : String
  readAt : Option String

/-- A `conversations` row. -/
structure ConversationRow where
  id : Nat
  createdAt : String

structure CategoryRow where
  id : Nat
  parentId : Option Nat
  name : String
  createdAt : String

/-- The tables that are looked up. There is no `categories` table after the migration that
drops it; a query of it fails then. -/
structure Directory where
  users : List UserRow
  products : List ProductRow
  messages : List MessageRow
  conversations : List ConversationRow
  files : List FileRow
  categories : Option (List CategoryRow)

/-- What the records take from outside: the driver, and `buildReadUrl`. -/
structure Reader extends Driver where
  buildReadUrl : String → String → String

/-- A record with its id. -/
abbrev Record := Nat × Payload

section Records
variable (rd : Reader)

/-- The avatar of a user: its file, if it has an object key. -/
def avatarPayload : Option FileRow → Payload
  | none => .null
  | some file =>
    if file.objectKey = "" then .null
    else .obj
      [("id", rd.bigint file.id), ("purpose", .str file.purpose), ("object_key", .str file.objectKey),
       ("mime_type", .ofText file.mimeType), ("status", .str file.status), ("created_at", .str file.createdAt),
       ("uploaded_at", .ofText file.uploadedAt),
       ("url", .str (rd.buildReadUrl file.objectKey (file.mimeType.getD "")))]

/-- A user as `mapToAppUser` shows it, with rate, contact and avatar. The lookup selects no email. -/
def userPayload (row : UserRow) : Payload :=
  .obj
    [("id", .num row.id), ("name", .str row.name), ("phone", .str (row.phone.getD "")), ("email", .str ""),
     ("profileState", .str row.status), ("rate", .str row.rate), ("contactInfo", .ofText row.contactInfo),
     ("avatar", avatarPayload rd row.avatar)]

/-- The owner of a product, unless the account is deleted or has no name. -/
def ownerPayload (dir : Directory) (ownerId : Nat) : Payload :=
  match dir.users.find? fun u => u.id = ownerId && !u.deleted with
  | some owner => if owner.name = "" then .null else userPayload rd owner
  | none => .null

def productPayload (dir : Directory) (row : ProductRow) : Payload :=
  .obj
    [("id", rd.bigint row.id), ("name", .str row.name), ("price", .str row.price), ("status", .str row.status),
     ("city", .str row.city), ("created_at", .str row.createdAt), ("owner", ownerPayload rd dir row.ownerId)]

def messagePayload (row : MessageRow) : Payload :=
  .obj
    [("id", rd.bigint row.id), ("message_text", .str row.messageText), ("sent_at", .str row.sentAt),
     ("read_at", .ofText row.readAt)]

def conversationPayload (row : ConversationRow) : Payload :=
  .obj [("id", rd.bigint row.id), ("created_at", .str row.createdAt)]

def filePayload (row : FileRow) : Payload :=
  .obj
    [("id", rd.bigint row.id), ("purpose", .str row.purpose), ("object_key", .str row.objectKey),
     ("mime_type", .ofText row.mimeType), ("status", .str row.status), ("created_at", .str row.createdAt),
     ("uploaded_at", .ofText row.uploadedAt),
     ("url", .str (rd.buildReadUrl row.objectKey (row.mimeType.getD "")))]

def categoryPayload (row : CategoryRow) : Payload :=
  .obj
    [("id", rd.bigint row.id), ("parent_id", row.parentId.elim .null rd.bigint), ("name", .str row.name),
     ("created_at", .str row.createdAt)]

def fetchUsers (dir : Directory) (ids : List Nat) : List Record :=
  (dir.users.filter fun row => row.id ∈ ids && !row.deleted).map fun row => (row.id, userPayload rd row)

def fetchCategories (dir : Directory) (ids : List Nat) : Option (List Record) :=
  dir.categories.map fun rows =>
    (rows.filter fun row => row.id ∈ ids).map fun row => (row.id, categoryPayload rd row)

def fetchProducts (dir : Directory) (ids : List Nat) : List Record :=
  (dir.products.filter fun row => row.id ∈ ids && !row.deleted).map fun row =>
    (row.id, productPayload rd dir row)

def fetchMessages (dir : Directory) (ids : List Nat) : List Record :=
  (dir.messages.filter fun row => row.id ∈ ids).map fun row => (row.id, messagePayload rd row)

def fetchConversations (dir : Directory) (ids : List Nat) : List Record :=
  (dir.conversations.filter fun row => row.id ∈ ids).map fun row => (row.id, conversationPayload rd row)

def fetchFiles (dir : Directory) (ids : List Nat) : List Record :=
  (dir.files.filter fun row => row.id ∈ ids).map fun row => (row.id, filePayload rd row)

/-- Ids beyond the range of `BIGINT` make a query fail. -/
def bigintMax : Nat := 9223372036854775807

/-- The records of an entity with the given ids, or `none` when the query fails. -/
def fetch (dir : Directory) (entity : EntityType) (ids : List Nat) : Option (List Record) :=
  if ids.any fun id => bigintMax < id then none
  else
    match entity with
    | .user => some (fetchUsers rd dir ids)
    | .category => fetchCategories rd dir ids
    | .product => some (fetchProducts rd dir ids)
    | .message => some (fetchMessages rd dir ids)
    | .conversation => some (fetchConversations rd dir ids)
    | .file => some (fetchFiles rd dir ids)

end Records

/-- Ids as decimal numbers, files under their object keys. -/
def textReader : Reader where
  bigintText := toString
  timestampText := fun _ => "2026-01-05 10:00:00+00"
  iso := fun _ => "2026-01-05T10:00:00.000Z"
  buildReadUrl := fun objectKey _ => objectKey

end Kayan.Fk
