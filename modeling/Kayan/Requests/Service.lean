import Kayan.Listing.Pages
import Kayan.Reads.Service

/-!
# List requests

The list methods of `KayanService` with the queries that their DTOs accept: dates are texts, which
Postgres has to read, and the gallery is searched for a text. `adminListFaults`, the gallery and the
reviews, which the read endpoints leave out.
-/
namespace Kayan.Requests
open Payload
open Listing (timestampParam columnLike)
open Reads (AuthUser FaultReport FaultSeverity FaultSortBy FaultStatus ItemType OffsetPaginationQuery ServiceType
  SortDirection columnIs createdWithin page resolveOffsetPagination)
open Shop (OrderStatus)

/-- An `item_ratings` row. -/
structure ItemReview extends Reads.ItemRating where
  id : Nat
  ratingValue : Nat
  comment : Option String := none
  createdAt : Nat

/-- A `gallery_items` row. -/
structure GalleryItem where
  id : Nat
  title : String
  description : String
  isActive : Bool := true
  deletedAt : Option Nat := none
  createdAt : Nat

/-- A row of `gallery_assets` joined with its file, as the asset query returns it. -/
structure GalleryAssetRow where
  galleryItemId : Nat
  fileId : Nat
  sortOrder : Nat
  objectKey : Option String
  originalFilename : Option String
  mimeType : Option String
  status : Option String

/-- The tables of the read endpoints, with the gallery and the reviews. -/
structure Store extends Reads.Store where
  reviews : List ItemReview
  gallery : List GalleryItem
  galleryAssets : List GalleryAssetRow
  rated : toStore.ratings = reviews.map (·.toItemRating)
  stepsKeyed : (toStore.steps.map (·.id)).Nodup
  reviewsKeyed : (reviews.map (·.id)).Nodup
  galleryKeyed : (gallery.map (·.id)).Nodup

/-- The dates of a query. -/
structure DateRange where
  fromDate : Option String := none
  toDate : Option String := none

structure ListOrdersQueryDto extends OffsetPaginationQuery, DateRange where
  status : Option OrderStatus := none
  sortDirection : Option SortDirection := none

structure ListAdminFaultsQueryDto extends OffsetPaginationQuery, DateRange where
  status : Option FaultStatus := none
  severity : Option FaultSeverity := none
  sortBy : Option FaultSortBy := none
  sortDirection : Option SortDirection := none

structure ListServicesQueryDto extends OffsetPaginationQuery, DateRange where
  serviceType : Option ServiceType := none
  sortDirection : Option SortDirection := none

structure ListGalleryQueryDto extends OffsetPaginationQuery where
  query : Option String := none

structure GetItemReviewsQueryDto extends OffsetPaginationQuery where
  itemType : ItemType

variable (drv : Driver) (timestamptz : String → Option Nat) (f : Like.Folding) (s : Store)

/-- The dates as the parameters of a query. -/
def dateParams (range : DateRange) : Except Failure (Option Nat × Option Nat) := do
  let lo ← timestampParam timestamptz (range.fromDate.filter (· ≠ ""))
  let hi ← timestampParam timestamptz (range.toDate.filter (· ≠ ""))
  pure (lo, hi)

def adminListOrders (query : ListOrdersQueryDto) : Except Failure Payload := do
  let (lo, hi) ← dateParams timestamptz query.toDateRange
  pure (Reads.adminListOrders drv s.toStore
    { query.toOffsetPaginationQuery with
      status := query.status, fromDate := lo, toDate := hi, sortDirection := query.sortDirection })

section Faults

/-- A row of `adminListFaults`: the fault with its assets and its user. -/
def adminFaultPayload (fr : FaultReport) : Payload :=
  let user := s.accounts fr.userId
  let name := Payload.ofText (user.map (·.name))
  let email := Payload.ofText (user.map (·.email))
  let phone := Payload.ofText (user.bind (·.phone))
  .obj
    [("id", drv.bigint fr.id), ("user_id", drv.bigint fr.userId), ("title", .str fr.title),
     ("description", .str fr.description), ("severity", .str fr.severity.text), ("address", .str fr.address),
     ("status", .str fr.status.text), ("cancelled_at", .ofText (fr.cancelledAt.map drv.timestampText)),
     ("created_at", .str (drv.timestampText fr.createdAt)), ("updated_at", .str (drv.timestampText fr.updatedAt)),
     ("user_name", name), ("user_email", email), ("user_phone", phone),
     ("images", .arr ((s.faultAssets.filter fun fa => fa.faultId = fr.id).map Reads.faultAssetPayload)),
     ("user", .obj [("id", .num fr.userId), ("name", name), ("email", email), ("phone", phone)])]

def adminListFaults (query : ListAdminFaultsQueryDto) : Except Failure Payload := do
  let (lo, hi) ← dateParams timestamptz query.toDateRange
  let listed := Reads.sortFaults (query.sortBy.getD .createdAt) query.sortDirection
    (s.faults.filter fun fr => columnIs query.status fr.status && columnIs query.severity fr.severity &&
      createdWithin lo hi fr.createdAt)
  let rows := page (resolveOffsetPagination query.toOffsetPaginationQuery 20 100) listed
  pure (.obj [("items", .arr (rows.map (adminFaultPayload drv s))), ("total", .num listed.length)])

end Faults

section Services

/-- The query with its dates read. -/
def servicesQuery (query : ListServicesQueryDto) : Except Failure Reads.ListServicesQueryDto := do
  let (lo, hi) ← dateParams timestamptz query.toDateRange
  pure { query.toOffsetPaginationQuery with
    serviceType := query.serviceType, fromDate := lo, toDate := hi, sortDirection := query.sortDirection }

def listMyServices (user : AuthUser) (query : ListServicesQueryDto) : Except Failure Payload :=
  (servicesQuery timestamptz query).map (Reads.listMyServices drv s.toStore user)

def publicListServices (query : ListServicesQueryDto) : Except Failure Payload :=
  (servicesQuery timestamptz query).map (Reads.publicListServices drv s.toStore)

def adminListServices (query : ListServicesQueryDto) : Except Failure Payload :=
  (servicesQuery timestamptz query).map (Reads.adminListServices drv s.toStore)

end Services

section Gallery
variable {Row : Type}

/-- `ORDER BY created_at DESC, id DESC`, where `created_at` is the text of that name in the `SELECT` list. -/
def byCreationText (createdAt id : Row → Nat) (a b : Row) : Prop :=
  drv.timestampText (createdAt b) < drv.timestampText (createdAt a) ∨
    (drv.timestampText (createdAt a) = drv.timestampText (createdAt b) ∧ id b ≤ id a)

instance (createdAt id : Row → Nat) : DecidableRel (byCreationText drv createdAt id) :=
  fun _ _ => inferInstanceAs (Decidable (_ ∨ _))

def matchingGallery (activeOnly : Bool) (query : Option String) : List GalleryItem :=
  s.gallery.filter fun item => item.deletedAt.isNone && (!activeOnly || item.isActive) &&
    query.all fun q => q = "" || columnLike f q item.title || columnLike f q item.description

def galleryAssetPayload (asset : GalleryAssetRow) : Payload :=
  .obj
    [("file_id", .num asset.fileId), ("sort_order", .num asset.sortOrder),
     ("object_key", .ofText asset.objectKey), ("original_filename", .ofText asset.originalFilename),
     ("mime_type", .ofText asset.mimeType), ("status", .ofText asset.status)]

/-- `attachGalleryAssets`, for one item. -/
def galleryItemPayload (item : GalleryItem) : Payload :=
  .obj
    [("id", drv.bigint item.id), ("title", .str item.title), ("description", .str item.description),
     ("is_active", .bool item.isActive), ("created_at", .str (drv.timestampText item.createdAt)),
     ("images", .arr ((s.galleryAssets.filter fun ga => ga.galleryItemId = item.id).map galleryAssetPayload))]

/-- A search text with U+0000 cannot be sent as a parameter. -/
def listGalleryItems (activeOnly : Bool) (query : ListGalleryQueryDto) : Except Failure Payload :=
  if query.query.all textStorable then
    let listed := (matchingGallery f s activeOnly query.query).insertionSort (byCreationText drv (·.createdAt) (·.id))
    let rows := page (resolveOffsetPagination query.toOffsetPaginationQuery 20 100) listed
    .ok (.obj [("items", .arr (rows.map (galleryItemPayload drv s))), ("total", .num listed.length)])
  else .error (.database .characterNotInRepertoire)

def listGallery (query : ListGalleryQueryDto) : Except Failure Payload := listGalleryItems drv f s true query

def adminListGallery (query : ListGalleryQueryDto) : Except Failure Payload := listGalleryItems drv f s false query

end Gallery

section Reviews

def reviewPayload (review : ItemReview) : Payload :=
  .obj
    [("id", drv.bigint review.id), ("user_id", drv.bigint review.userId), ("item_type", .str review.itemType.text),
     ("item_id", drv.bigint review.itemId), ("rating_value", .num review.ratingValue),
     ("comment", .ofText review.comment), ("created_at", .str (drv.timestampText review.createdAt))]

def getItemReviews (itemId : Nat) (query : GetItemReviewsQueryDto) : Payload :=
  let listed := (s.reviews.filter fun review => review.itemType = query.itemType && review.itemId = itemId).insertionSort
    (byCreationText drv (·.createdAt) (·.id))
  let rows := page (resolveOffsetPagination query.toOffsetPaginationQuery 20 100) listed
  .obj [("items", .arr (rows.map (reviewPayload drv))), ("total", .num listed.length)]

end Reviews

end Kayan.Requests
