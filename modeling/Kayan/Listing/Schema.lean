import Kayan.Chat.Sql
import Kayan.Lib.Like
import Kayan.Lib.Paging
import Kayan.Products.Schema
import Kayan.Reads.Service

/-!
# Users, profiles and conversations

The tables that the lists of the administration, the public profile and the chat read. Timestamps are
in microseconds, prices in hundredths.
-/
namespace Kayan.Listing
open Fk
open Chat (Conversation Message ProductStatus)

inductive UserStatus where
  | active
  | paused
  | banned
  deriving DecidableEq

def UserStatus.text : UserStatus → String
  | active => "active"
  | paused => "paused"
  | banned => "banned"

def productStatusText : ProductStatus → String
  | .available => "available"
  | .sold => "sold"
  | .archived => "archived"

/-- A `users` row. -/
structure User where
  id : Nat
  name : String
  phone : Option String := none
  status : UserStatus := .active
  isAdmin : Bool := false
  avatarFileId : Option Nat := none
  contactInfo : Option String := none
  createdAt : Nat
  updatedAt : Nat
  deletedAt : Option Nat := none

/-- A `user_ratings` row, with the columns that are read. -/
structure UserRating where
  ratedUserId : Nat
  ratingValue : Nat

/-- A row of the legacy `products` table. -/
structure Product where
  id : Nat
  ownerId : Nat
  category : String
  subcategory : Option String
  name : String
  description : String
  price : Nat
  city : String
  addressText : String
  details : Option Payload := none
  status : ProductStatus := .available
  isNegotiable : Bool := false
  preferredContactMethod : String := "both"
  createdAt : Nat
  updatedAt : Nat
  deletedAt : Option Nat := none

/-- A `product_images` row. -/
structure ProductImage where
  id : Nat
  productId : Nat
  fileId : Nat
  objectKey : String
  sortOrder : Nat

/-- A state of the tables, with primary keys. -/
structure Store where
  users : List User := []
  files : List FileRow := []
  userRatings : List UserRating := []
  products : List Product := []
  images : List ProductImage := []
  conversations : List Conversation := []
  messages : List Message := []
  usersKeyed : (users.map (·.id)).Nodup := by decide
  productsKeyed : (products.map (·.id)).Nodup := by decide
  conversationsKeyed : (conversations.map (·.id)).Nodup := by decide
  messagesKeyed : (messages.map (·.id)).Nodup := by decide

/-- A user who is not deleted. -/
structure LiveUser (s : Store) where
  id : Nat
  live : (s.users.any fun user => user.id = id && user.deletedAt.isNone) = true

/-- A parameter that is cast to `timestamptz`, with the reading of Postgres. -/
def timestampParam (timestamptz : String → Option Nat) : Option String → Except Failure (Option Nat)
  | none => .ok none
  | some text =>
    match timestamptz text with
    | some t => .ok (some t)
    | none => .error (.database .invalidDatetime)

section Columns
variable (s : Store)

/-- `ORDER BY pi.sort_order ASC`, the images of a product. -/
def Store.imagesOf (productId : Nat) : List ProductImage :=
  (s.images.filter fun image => image.productId = productId).insertionSort fun a b => a.sortOrder ≤ b.sortOrder

def Store.file (id : Nat) : Option FileRow := s.files.find? fun file => file.id = id

/-- The `COUNT(*)` of the products of a user. -/
def Store.productsOf (ownerId : Nat) : Nat :=
  s.products.countP fun product => product.ownerId = ownerId && product.deletedAt.isNone

/-- `COALESCE(ROUND(AVG(ur.rating_value)::numeric, 2), 0.00)`, as text. -/
def Store.rateOf (userId : Nat) : String :=
  Products.decimalText (Products.averageRate
    ((s.userRatings.filter fun rating => rating.ratedUserId = userId).map (·.ratingValue)))

end Columns

end Kayan.Listing
