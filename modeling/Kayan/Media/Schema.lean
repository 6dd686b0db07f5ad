import Kayan.Items.Sql
import Kayan.Lib.RowVersions
import Kayan.Products.Service
import Kayan.Shop.Stock

/-!
# Files and the rows that refer to them

`files` with its links: `fault_assets`, `users.avatar_file_id`, `product_images` of the products that
users sell, and `product_assets` and `gallery_assets` of the catalog and the gallery.
-/
namespace Kayan.Media
open RowStore Shop Reads Products

inductive OwnerType where
  | user
  | product
  | message
  deriving DecidableEq

def OwnerType.text : OwnerType → String
  | user => "user"
  | product => "product"
  | message => "message"

/-- A `files` row. -/
structure File extends Items.StoredFile where
  id : Nat
  uploaderUserId : Option Nat
  ownerType : OwnerType
  ownerId : Option Nat
  storageProvider : String
  bucket : Option String
  fileSizeBytes : Option Nat
  checksumSha256 : Option String := none
  uploadedAt : Option Nat := none
  createdAt : Nat
  updatedAt : Nat

/-- A `users` row, with the columns of a profile. -/
structure Profile where
  id : Nat
  name : String
  phone : Option String
  email : Option String
  status : String
  contactInfo : Option String
  address : Option String
  avatarFileId : Option Nat
  deletedAt : Option Nat
  updatedAt : Nat

inductive ProductStatus where
  | available
  | sold
  | archived
  deriving DecidableEq

def ProductStatus.text : ProductStatus → String
  | available => "available"
  | sold => "sold"
  | archived => "archived"

inductive ContactMethod where
  | phone
  | chat
  | both
  deriving DecidableEq

def ContactMethod.text : ContactMethod → String
  | phone => "phone"
  | chat => "chat"
  | both => "both"

/-- A `products` row. The price is in hundredths. -/
structure Product where
  id : Nat
  ownerId : Nat
  category : String
  subcategory : Option String
  name : String
  description : String
  price : Nat
  city : String
  addressText : String
  details : Option Payload
  isNegotiable : Bool
  preferredContactMethod : ContactMethod
  status : ProductStatus := .available
  deletedAt : Option Nat := none
  createdAt : Nat
  updatedAt : Nat

/-- A `product_images` row. -/
structure ProductImage where
  id : Nat
  productId : Nat
  fileId : Nat
  objectKey : String
  sortOrder : Nat

/-- A `gallery_items` row. -/
structure GalleryItem where
  id : Nat
  title : String
  description : String
  isActive : Bool := true
  createdBy : Option Nat
  updatedBy : Option Nat
  deletedAt : Option Nat := none
  createdAt : Nat
  updatedAt : Nat

/-- A `gallery_assets` row. -/
structure GalleryAsset where
  id : Nat
  galleryItemId : Nat
  fileId : Nat
  sortOrder : Nat

/-- The store. Ratings are only read here. -/
structure Db where
  shop : Shop.Db
  faults : Table Client FaultReport
  faultHistory : Table Client Items.FaultStatusChange
  faultAssets : Table Client Items.FaultAsset
  services : Table Client ServiceOrder
  serviceHistory : Table Client Items.ServiceStatusChange
  files : Table Client File
  users : Table Client Profile
  products : Table Client Product
  images : Table Client ProductImage
  catalog : Table Client Products.CatalogProduct
  assets : Table Client ProductAsset
  gallery : Table Client GalleryItem
  galleryAssets : Table Client GalleryAsset
  itemRatings : List ItemRating
  productRatings : List ProductRating
  userRatings : Nat → List Nat

namespace Db

/-- `COMMIT` of client `c`. -/
def commit (c : Client) (d : Db) : Db :=
  { d with
    shop := d.shop.commit c
    faults := d.faults.commit c
    faultHistory := d.faultHistory.commit c
    faultAssets := d.faultAssets.commit c
    services := d.services.commit c
    serviceHistory := d.serviceHistory.commit c
    files := d.files.commit c
    users := d.users.commit c
    products := d.products.commit c
    images := d.images.commit c
    catalog := d.catalog.commit c
    assets := d.assets.commit c
    gallery := d.gallery.commit c
    galleryAssets := d.galleryAssets.commit c }

/-- `ROLLBACK` of client `c`. -/
def rollback (c : Client) (d : Db) : Db :=
  { d with
    shop := d.shop.rollback c
    faults := d.faults.rollback c
    faultHistory := d.faultHistory.rollback c
    faultAssets := d.faultAssets.rollback c
    services := d.services.rollback c
    serviceHistory := d.serviceHistory.rollback c
    files := d.files.rollback c
    users := d.users.rollback c
    products := d.products.rollback c
    images := d.images.rollback c
    catalog := d.catalog.rollback c
    assets := d.assets.rollback c
    gallery := d.gallery.rollback c
    galleryAssets := d.galleryAssets.rollback c }

/-- The tables of the items, with the files as client `c` sees them. -/
def items (c : Client) (d : Db) : Items.Db where
  shop := d.shop
  faults := d.faults
  faultHistory := d.faultHistory
  faultAssets := d.faultAssets
  services := d.services
  serviceHistory := d.serviceHistory
  files i := (d.files.view c i).map (·.toStoredFile)
  ratings := d.itemRatings

/-- The store with the tables of `i`. -/
def withItems (i : Items.Db) (d : Db) : Db :=
  { d with
    shop := i.shop
    faults := i.faults
    faultHistory := i.faultHistory
    faultAssets := i.faultAssets
    services := i.services
    serviceHistory := i.serviceHistory }

/-- A store of files and users with nothing else yet. -/
def ofFiles (files : List File) (users : List Profile) : Db where
  shop := stocked []
  faults := .numbered []
  faultHistory := .numbered []
  faultAssets := .numbered []
  services := .numbered []
  serviceHistory := .numbered []
  files := .numbered files
  users := .numbered users
  products := .numbered []
  images := .numbered []
  catalog := .numbered []
  assets := .numbered []
  gallery := .numbered []
  galleryAssets := .numbered []
  itemRatings := []
  productRatings := []
  userRatings _ := []

end Db

end Kayan.Media
