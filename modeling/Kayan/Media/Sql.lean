import Kayan.Lib.RowVersions
import Kayan.Media.Schema
import Kayan.Number

/-!
# The statements on files and their links

One type of statements for each service, at READ COMMITTED, and the statements of the items beside
them. A statement outside a transaction sees and writes committed rows.
-/
namespace Kayan.Media
open RowStore Shop Reads Products

section Parameters

/-- A number as a `BIGINT` parameter. -/
def bigint (q : ℚ) : Except PgError Int :=
  if q.den ≠ 1 then .error .invalidText
  else if Items.isBigint q.num then .ok q.num
  else .error .outOfRange

def bigints (qs : List ℚ) : Except PgError (List Int) := qs.mapM bigint

/-- A number for a `BIGINT` column that has no negative values. -/
def natural (q : ℚ) : Except PgError Nat := do
  let i ← bigint q
  match i.toNat? with
  | some n => return n
  | none => throw .checkViolation

/-- The row with a key, if there is one. -/
def rowAt {V : Type} (f : Nat → Option V) (i : Int) : Option V := i.toNat?.bind f

end Parameters

section Files

structure CreateUploadIntentDto where
  ownerType : OwnerType
  ownerId : Option ℚ := none
  purpose : Items.FilePurpose
  filename : String
  mimeType : String
  fileSizeBytes : Option ℚ := none

inductive FileStmt where
  | insertFile (userId : Nat) (dto : CreateUploadIntentDto) (storageProvider : String) (bucket : Option String)
      (objectKey : String)
  | selectUpload (fileId : Nat)
  | markUploaded (checksumSha256 : Option String) (fileId : Nat)
  | selectFile (fileId : Nat)

def FileStmt.Reply : FileStmt → Type
  | insertFile _ _ _ _ _ => Nat
  | selectUpload _ => Option File
  | markUploaded _ _ => Unit
  | selectFile _ => Option File

/-- The `INSERT` of `createUploadIntent`. -/
def insertFile (now userId : Nat) (dto : CreateUploadIntentDto) (storageProvider : String) (bucket : Option String)
    (objectKey : String) (files : Table Client File) : Except PgError Nat × Table Client File :=
  match dto.ownerId.mapM natural, dto.fileSizeBytes.mapM natural with
  | .error e, _ => (.error e, files)
  | _, .error e => (.error e, files)
  | .ok ownerId, .ok fileSizeBytes =>
    if files.committedRows.any fun f =>
        f.storageProvider = storageProvider ∧ f.bucket.getD "" = bucket.getD "" ∧ f.objectKey = objectKey then
      (.error .uniqueViolation, files)
    else
      (.ok files.next,
        files.append
          { id := files.next, uploaderUserId := some userId, ownerType := dto.ownerType, ownerId,
            purpose := dto.purpose, storageProvider, bucket, objectKey, originalFilename := some dto.filename,
            mimeType := some dto.mimeType, fileSizeBytes, status := .pending, createdAt := now, updatedAt := now })

/-- `UPDATE files SET status = 'uploaded', ...`. -/
def File.uploaded (now : Nat) (checksumSha256 : Option String) (f : File) : File :=
  { f with
    status := .uploaded, uploadedAt := some now, checksumSha256 := checksumSha256.or f.checksumSha256
    updatedAt := now }

def execFile (now : Nat) : (q : FileStmt) → Table Client File → Option (Except PgError q.Reply × Table Client File)
  | .insertFile userId dto storageProvider bucket objectKey, files =>
    some (insertFile now userId dto storageProvider bucket objectKey files)
  | .selectUpload fileId, files => some (.ok (files.committed fileId), files)
  | .markUploaded checksumSha256 fileId, files =>
    (Items.updateRow fileId (File.uploaded now checksumSha256) files).map fun x => (.ok (), x.2)
  | .selectFile fileId, files => some (.ok (files.committed fileId), files)

end Files

section Profiles

/-- The body of `PATCH /users/me`: absent fields are `none`, and `null` is `some none`. -/
structure UpdateProfileDto where
  name : Option (Option String) := none
  avatarFileId : Option (Option ℚ) := none
  contactInfo : Option (Option String) := none
  phone : Option (Option String) := none
  address : Option (Option String) := none

inductive ProfileStmt where
  | selectPhone (phone : Option String) (userId : Nat)
  | selectAvatarFile (fileId : ℚ)
  | updateProfile (dto : UpdateProfileDto) (userId : Nat)
  | clearAvatar (userId : Nat)
  | selectMe (userId : Nat)

def ProfileStmt.Reply : ProfileStmt → Type
  | selectPhone _ _ => Bool
  | selectAvatarFile _ => Option File
  | updateProfile _ _ => Unit
  | clearAvatar _ => Bool
  | selectMe _ => Option (Profile × List Nat × Option File)

/-- The row of an account that is not deleted. -/
def account (users : Table Client Profile) (userId : Nat) : Option Profile :=
  (users.committed userId).filter fun u => u.deletedAt.isNone

/-- `UPDATE users SET name = CASE ... END, ...`, with the avatar that the columns take. -/
def UpdateProfileDto.apply (now : Nat) (avatarFileId : Option (Option Nat)) (dto : UpdateProfileDto) (u : Profile) :
    Profile :=
  { u with
    name := (dto.name.bind id).getD u.name
    avatarFileId := avatarFileId.getD u.avatarFileId
    contactInfo := dto.contactInfo.getD u.contactInfo
    phone := dto.phone.getD u.phone
    address := dto.address.getD u.address
    updatedAt := now }

/-- The avatar of the row that is written: a file has to exist. -/
def UpdateProfileDto.avatar (files : Table Client File) (dto : UpdateProfileDto) :
    Except PgError (Option (Option Nat)) :=
  match dto.avatarFileId with
  | none => .ok none
  | some none => .ok (some none)
  | some (some q) =>
    match bigint q with
    | .error e => .error e
    | .ok i =>
      match i.toNat?.filter fun i => (files.committed i).isSome with
      | none => .error .foreignKeyViolation
      | some i => .ok (some (some i))

def updateProfile (now : Nat) (dto : UpdateProfileDto) (userId : Nat) (files : Table Client File)
    (users : Table Client Profile) : Option (Except PgError Unit × Table Client Profile) :=
  if (account users userId).isNone then some (.ok (), users)
  else
    match dto.avatar files with
    | .error e => some (.error e, users)
    | .ok avatarFileId =>
      if users.committedRows.any fun u => dto.phone.any fun p => p.isSome ∧ u.phone = p ∧ u.id ≠ userId then
        some (.error .uniqueViolation, users)
      else (Items.updateRow userId (dto.apply now avatarFileId) users).map fun x => (.ok (), x.2)

def execProfile (now : Nat) (files : Table Client File) (userRatings : Nat → List Nat) : (q : ProfileStmt) →
    Table Client Profile → Option (Except PgError q.Reply × Table Client Profile)
  | .selectPhone phone userId, users =>
    some (.ok (phone.any fun p => users.committedRows.any fun u =>
      u.phone = some p ∧ u.id ≠ userId ∧ u.deletedAt.isNone), users)
  | .selectAvatarFile fileId, users => some ((bigint fileId).map (rowAt files.committed), users)
  | .updateProfile dto userId, users => updateProfile now dto userId files users
  | .clearAvatar userId, users =>
    if (account users userId).isNone then some (.ok false, users)
    else (Items.updateRow userId (fun u => { u with avatarFileId := none, updatedAt := now }) users).map fun x =>
      (.ok true, x.2)
  | .selectMe userId, users =>
    some (.ok ((account users userId).map fun u =>
      (u, userRatings userId, u.avatarFileId.bind files.committed)), users)

end Profiles

section Listings

structure CreateProductDto where
  category : String
  subcategory : Option String := none
  name : String
  description : String
  price : ℚ
  city : String
  addressText : String
  details : Option Payload := none
  imageFileIds : Option (List ℚ) := none
  isNegotiable : Option Bool := none
  preferredContactMethod : Option ContactMethod := none

structure UpdateProductDto where
  category : Option String := none
  /-- `some none` is `null`, or a key without value. -/
  subcategory : Option (Option String) := none
  name : Option String := none
  description : Option String := none
  price : Option ℚ := none
  city : Option String := none
  addressText : Option String := none
  details : Option Payload := none
  imageFileIds : Option (List ℚ) := none
  isNegotiable : Option Bool := none
  preferredContactMethod : Option ContactMethod := none

/-- `trim()`. -/
def trim (s : String) : String := String.ofList (trimmed s)

inductive ProductStmt where
  | insertProduct (userId : Nat) (dto : CreateProductDto)
  | lockOwner (productId : Nat)
  | selectCategory (productId : Nat)
  | updateProduct (dto : UpdateProductDto) (productId : Nat)
  | deleteImages (productId : Nat)
  | selectImageFiles (fileIds : List ℚ)
  | insertImages (productId : Nat) (images : List (ℚ × String))
  | ownFiles (productId : Nat) (fileIds : List ℚ)
  | selectProduct (productId : Nat)
  | selectImages (productId : Nat)

def ProductStmt.Reply : ProductStmt → Type
  | insertProduct _ _ => Nat
  | lockOwner _ => Option Nat
  | selectCategory _ => Option (String × Option String)
  | selectImageFiles _ => List File
  | selectProduct _ => Option Product
  | selectImages _ => List (ProductImage × File)
  | _ => Unit

/-- `NUMERIC(12,2)` and `JSONB` columns. -/
def priceColumn (price : ℚ) : Except PgError Nat :=
  match numeric12 price with
  | some cents => .ok cents
  | none => .error .outOfRange

def detailsColumn (details : Option Payload) : Except PgError (Option Payload) :=
  match storeDetails details with
  | some stored => .ok stored
  | none => .error .characterNotInRepertoire

/-- The row that `createProduct` inserts. -/
def CreateProductDto.row (now i userId : Nat) (dto : CreateProductDto) : Except PgError Product := do
  let price ← priceColumn dto.price
  let details ← detailsColumn dto.details
  return { id := i, ownerId := userId, category := trim dto.category, subcategory := dto.subcategory.map trim,
           name := dto.name, description := dto.description, price, city := dto.city,
           addressText := dto.addressText, details, isNegotiable := dto.isNegotiable.getD false,
           preferredContactMethod := dto.preferredContactMethod.getD .both, createdAt := now, updatedAt := now }

/-- `UPDATE products SET category = COALESCE($1, category), ...`. -/
def UpdateProductDto.apply (now : Nat) (dto : UpdateProductDto) (p : Product) : Except PgError Product := do
  let price ← dto.price.mapM priceColumn
  let details ← detailsColumn dto.details
  return { p with
    category := (dto.category.map trim).getD p.category
    subcategory := match dto.subcategory with
      | some subcategory => subcategory.map trim
      | none => p.subcategory
    name := dto.name.getD p.name
    description := dto.description.getD p.description
    price := price.getD p.price
    city := dto.city.getD p.city
    addressText := dto.addressText.getD p.addressText
    details := details.or p.details
    isNegotiable := dto.isNegotiable.getD p.isNegotiable
    preferredContactMethod := dto.preferredContactMethod.getD p.preferredContactMethod
    updatedAt := now }

/-- The rows of the `INSERT` into `product_images`, from index `i`. Files have to exist. -/
def insertImages (c : Client) (files : Table Client File) (productId : Nat) : Nat → List (ℚ × String) →
    Table Client ProductImage → Except PgError (Table Client ProductImage)
  | _, [], images => .ok images
  | i, (q, objectKey) :: rest, images =>
    match bigint q with
    | .error e => .error e
    | .ok fileId =>
      match fileId.toNat?.filter fun i => (files.view c i).isSome with
      | none => .error .foreignKeyViolation
      | some fileId =>
        insertImages c files productId (i + 1) rest
          (images.insert c ⟨images.next, productId, fileId, objectKey, i⟩)

/-- `UPDATE files SET owner_type = 'product', owner_id = $1 ... WHERE id = ANY($2)`. -/
def File.owned (now productId : Nat) (f : File) : File :=
  { f with ownerType := .product, ownerId := some productId, updatedAt := now }

/-- It waits while another transaction holds one of the rows. -/
def ownFiles (now : Nat) (c : Client) (productId : Nat) (fileIds : List Int) (files : Table Client File) :
    Option (Table Client File) :=
  let keys := files.keysWhere c fun f => (f.id : Int) ∈ fileIds
  if keys.all (files.free c) then
    some (keys.foldl (fun t i => t.write c i ((t.view c i).map (File.owned now productId))) files)
  else none

/-- The images of a product with their files, by sort order. -/
def imageRows (files : Nat → Option File) (images : List ProductImage) (productId : Nat) :
    List (ProductImage × File) :=
  ((images.filter fun pi => pi.productId = productId).insertionSort fun a b => a.sortOrder ≤ b.sortOrder).filterMap
    fun pi => (files pi.fileId).map fun f => (pi, f)

def execProduct (now : Nat) (c : Client) : (q : ProductStmt) → Db → Option (Except PgError q.Reply × Db)
  | .insertProduct userId dto, d =>
    match dto.row now d.products.next userId with
    | .error e => some (.error e, d)
    | .ok row => some (.ok d.products.next, { d with products := d.products.insert c row })
  | .lockOwner productId, d =>
    match (d.products.view c productId).filter fun p => p.deletedAt.isNone with
    | none => some (.ok none, d)
    | some p =>
      if d.products.free c productId then
        some (.ok (some p.ownerId), { d with products := d.products.lock c productId })
      else none
  | .selectCategory productId, d =>
    some (.ok ((d.products.view c productId).map fun p => (p.category, p.subcategory)), d)
  | .updateProduct dto productId, d =>
    match d.products.view c productId with
    | none => some (.ok (), d)
    | some p =>
      match dto.apply now p with
      | .error e => some (.error e, d)
      | .ok p' =>
        if d.products.free c productId then
          some (.ok (), { d with products := d.products.write c productId (some p') })
        else none
  | .deleteImages productId, d =>
    (d.images.deleteWhere c fun pi => pi.productId = productId).map fun images => (.ok (), { d with images })
  | .selectImageFiles fileIds, d =>
    match bigints fileIds with
    | .error e => some (.error e, d)
    | .ok ids => some (.ok ((d.files.rows c).filter fun f => (f.id : Int) ∈ ids), d)
  | .insertImages productId images, d =>
    match insertImages c d.files productId 0 images d.images with
    | .error e => some (.error e, d)
    | .ok images => some (.ok (), { d with images })
  | .ownFiles productId fileIds, d =>
    match bigints fileIds with
    | .error e => some (.error e, d)
    | .ok ids => (ownFiles now c productId ids d.files).map fun files => (.ok (), { d with files })
  | .selectProduct productId, d =>
    some (.ok ((d.products.view c productId).filter fun p => p.deletedAt.isNone), d)
  | .selectImages productId, d => some (.ok (imageRows (d.files.view c) (d.images.rows c) productId), d)

end Listings

section Links

/-- A row that refers to a file, with the columns of the file. -/
structure LinkRow where
  fileId : Nat
  sortOrder : Nat
  file : Option File

/-- The file of a new `product_assets` or `gallery_assets` row: it has to exist, and the row must not repeat
one of those in `taken`. -/
def linked (c : Client) (files : Table Client File) (taken : List Nat) (fileId : Int) : Except PgError Nat :=
  if !Items.isBigint fileId then .error .outOfRange
  else if taken.any fun i => (i : Int) = fileId then .error .uniqueViolation
  else
    match fileId.toNat?.filter fun i => (files.view c i).isSome with
    | none => .error .foreignKeyViolation
    | some i => .ok i

end Links

section Catalog

structure AdminUpdateProductDto where
  title : Option String := none
  description : Option String := none
  amount : Option Nat := none
  price : Option (WithTop ℚ) := none
  details : Option Payload := none
  isActive : Option Bool := none
  imageFileIds : Option (List Int) := none
  fileIds : Option (List Int) := none

/-- The `ORDER BY` of types: they are compared as texts. -/
def rank : AssetType → Nat
  | .file => 0
  | .image => 1

inductive CatalogStmt where
  | insertProduct (adminId : Nat) (dto : Products.AdminCreateProductDto)
  | updateProduct (adminId : Nat) (dto : AdminUpdateProductDto) (productId : Nat)
  | deleteProduct (adminId productId : Nat)
  | deleteAssets (productId : Nat) (assetType : AssetType)
  | insertAsset (productId : Nat) (fileId : Int) (assetType : AssetType) (sortOrder : Nat)
  | selectProduct (productId : Nat)
  | selectAssets (productId : Nat)

def CatalogStmt.Reply : CatalogStmt → Type
  | insertProduct _ _ => Nat
  | updateProduct _ _ _ => Bool
  | deleteProduct _ _ => Bool
  | selectProduct _ => Option (Products.CatalogProduct × List Nat)
  | selectAssets _ => List (AssetType × LinkRow)
  | _ => Unit

def textColumn (text : String) : Except PgError String :=
  if Payload.textStorable text then .ok text else .error .characterNotInRepertoire

def integerColumn (n : Nat) : Except PgError Nat := if n ≤ integerMax then .ok n else .error .outOfRange

def numericColumn (price : WithTop ℚ) : Except PgError Nat :=
  match numeric12 price with
  | some cents => .ok cents
  | none => .error .outOfRange

/-- The row that `adminCreateProduct` inserts. -/
def catalogRow (now i adminId : Nat) (dto : Products.AdminCreateProductDto) : Except PgError Products.CatalogProduct := do
  let title ← textColumn dto.title
  let description ← textColumn dto.description
  let amount ← integerColumn dto.amount
  let price ← numericColumn dto.price
  let details ← detailsColumn dto.details
  return { id := i, title, description, amount, price, details, createdBy := some adminId, updatedBy := some adminId,
           createdAt := now, updatedAt := now }

/-- `UPDATE catalog_products SET title = COALESCE($1,title), ...`. -/
def AdminUpdateProductDto.apply (now adminId : Nat) (dto : AdminUpdateProductDto) (p : Products.CatalogProduct) :
    Except PgError Products.CatalogProduct := do
  let title ← dto.title.mapM textColumn
  let description ← dto.description.mapM textColumn
  let amount ← dto.amount.mapM integerColumn
  let price ← dto.price.mapM numericColumn
  let details ← detailsColumn dto.details
  return { p with
    title := title.getD p.title
    description := description.getD p.description
    amount := amount.getD p.amount
    price := price.getD p.price
    details := details.or p.details
    isActive := dto.isActive.getD p.isActive
    updatedBy := some adminId
    updatedAt := now }

/-- The assets of a product with their files, by type, sort order and id. -/
def assetRows (files : Nat → Option File) (assets : List ProductAsset) (productId : Nat) :
    List (AssetType × LinkRow) :=
  ((assets.filter fun pa => pa.productId = productId).insertionSort
    (orderedBy (rank ·.assetType) .asc (orderedBy (·.sortOrder) .asc fun a b => a.id ≤ b.id))).map fun pa =>
      (pa.assetType, ⟨pa.fileId, pa.sortOrder, files pa.fileId⟩)

def execCatalog (now : Nat) (c : Client) : (q : CatalogStmt) → Db → Option (Except PgError q.Reply × Db)
  | .insertProduct adminId dto, d =>
    match catalogRow now d.catalog.next adminId dto with
    | .error e => some (.error e, d)
    | .ok row => some (.ok d.catalog.next, { d with catalog := d.catalog.insert c row })
  | .updateProduct adminId dto productId, d =>
    match (d.catalog.view c productId).filter fun p => p.deletedAt.isNone with
    | none => some (.ok false, d)
    | some p =>
      match dto.apply now adminId p with
      | .error e => some (.error e, d)
      | .ok p' =>
        if d.catalog.free c productId then
          some (.ok true, { d with catalog := d.catalog.write c productId (some p') })
        else none
  | .deleteProduct adminId productId, d =>
    if ((d.catalog.committed productId).filter fun p => p.deletedAt.isNone).isNone then some (.ok false, d)
    else
      (Items.updateRow productId (fun p => { p with deletedAt := some now, updatedBy := some adminId, updatedAt := now })
        d.catalog).map fun x => (.ok true, { d with catalog := x.2 })
  | .deleteAssets productId assetType, d =>
    (d.assets.deleteWhere c fun pa => pa.productId = productId && pa.assetType = assetType).map fun assets =>
      (.ok (), { d with assets })
  | .insertAsset productId fileId assetType sortOrder, d =>
    match linked c d.files (((d.assets.rows c).filter fun pa => pa.productId = productId).map (·.fileId)) fileId with
    | .error e => some (.error e, d)
    | .ok i =>
      some (.ok (), { d with assets := d.assets.insert c ⟨d.assets.next, productId, i, assetType, sortOrder⟩ })
  | .selectProduct productId, d =>
    some (.ok (((d.catalog.view c productId).filter fun p => p.deletedAt.isNone).map fun p =>
      (p, (d.productRatings.filter fun r => r.productId = productId).map (·.ratingValue))), d)
  | .selectAssets productId, d => some (.ok (assetRows (d.files.view c) (d.assets.rows c) productId), d)

end Catalog

section Gallery

structure CreateGalleryItemDto where
  title : String
  description : String
  imageFileIds : Option (List Int) := none

structure UpdateGalleryItemDto where
  title : Option String := none
  description : Option String := none
  isActive : Option Bool := none
  imageFileIds : Option (List Int) := none

inductive GalleryStmt where
  | insertItem (adminId : Nat) (dto : CreateGalleryItemDto)
  | updateItem (adminId : Nat) (dto : UpdateGalleryItemDto) (galleryId : Nat)
  | deleteItem (adminId galleryId : Nat)
  | deleteAssets (galleryId : Nat)
  | insertAsset (galleryId : Nat) (fileId : Int) (sortOrder : Nat)
  | selectItem (galleryId : Nat)
  | selectAssets (galleryId : Nat)

def GalleryStmt.Reply : GalleryStmt → Type
  | insertItem _ _ => Nat
  | updateItem _ _ _ => Bool
  | deleteItem _ _ => Bool
  | selectItem _ => Option GalleryItem
  | selectAssets _ => List LinkRow
  | _ => Unit

/-- The row that `adminCreateGalleryItem` inserts. -/
def galleryRow (now i adminId : Nat) (dto : CreateGalleryItemDto) : Except PgError GalleryItem := do
  let title ← textColumn dto.title
  let description ← textColumn dto.description
  return { id := i, title, description, createdBy := some adminId, updatedBy := some adminId, createdAt := now,
           updatedAt := now }

/-- `UPDATE gallery_items SET title = COALESCE($1,title), ...`. -/
def UpdateGalleryItemDto.apply (now adminId : Nat) (dto : UpdateGalleryItemDto) (g : GalleryItem) :
    Except PgError GalleryItem := do
  let title ← dto.title.mapM textColumn
  let description ← dto.description.mapM textColumn
  return { g with
    title := title.getD g.title
    description := description.getD g.description
    isActive := dto.isActive.getD g.isActive
    updatedBy := some adminId
    updatedAt := now }

/-- The assets of a gallery item with their files, by sort order and id. -/
def galleryRows (files : Nat → Option File) (assets : List GalleryAsset) (galleryId : Nat) : List LinkRow :=
  ((assets.filter fun ga => ga.galleryItemId = galleryId).insertionSort
    (orderedBy (·.sortOrder) .asc fun a b => a.id ≤ b.id)).map fun ga =>
      ⟨ga.fileId, ga.sortOrder, files ga.fileId⟩

def execGallery (now : Nat) (c : Client) : (q : GalleryStmt) → Db → Option (Except PgError q.Reply × Db)
  | .insertItem adminId dto, d =>
    match galleryRow now d.gallery.next adminId dto with
    | .error e => some (.error e, d)
    | .ok row => some (.ok d.gallery.next, { d with gallery := d.gallery.insert c row })
  | .updateItem adminId dto galleryId, d =>
    match (d.gallery.view c galleryId).filter fun g => g.deletedAt.isNone with
    | none => some (.ok false, d)
    | some g =>
      match dto.apply now adminId g with
      | .error e => some (.error e, d)
      | .ok g' =>
        if d.gallery.free c galleryId then
          some (.ok true, { d with gallery := d.gallery.write c galleryId (some g') })
        else none
  | .deleteItem adminId galleryId, d =>
    if ((d.gallery.committed galleryId).filter fun g => g.deletedAt.isNone).isNone then some (.ok false, d)
    else
      (Items.updateRow galleryId (fun g => { g with deletedAt := some now, updatedBy := some adminId, updatedAt := now })
        d.gallery).map fun x => (.ok true, { d with gallery := x.2 })
  | .deleteAssets galleryId, d =>
    (d.galleryAssets.deleteWhere c fun ga => ga.galleryItemId = galleryId).map fun galleryAssets =>
      (.ok (), { d with galleryAssets })
  | .insertAsset galleryId fileId sortOrder, d =>
    match linked c d.files (((d.galleryAssets.rows c).filter fun ga => ga.galleryItemId = galleryId).map (·.fileId))
        fileId with
    | .error e => some (.error e, d)
    | .ok i =>
      some (.ok (),
        { d with galleryAssets := d.galleryAssets.insert c ⟨d.galleryAssets.next, galleryId, i, sortOrder⟩ })
  | .selectItem galleryId, d =>
    some (.ok ((d.gallery.view c galleryId).filter fun g => g.deletedAt.isNone), d)
  | .selectAssets galleryId, d => some (.ok (galleryRows (d.files.view c) (d.galleryAssets.rows c) galleryId), d)

end Gallery

inductive Stmt where
  | items (q : Items.Stmt)
  | file (q : FileStmt)
  | profile (q : ProfileStmt)
  | product (q : ProductStmt)
  | catalog (q : CatalogStmt)
  | gallery (q : GalleryStmt)

/-- The rows that a statement returns, or its row count as far as it is read. -/
def Reply : Stmt → Type
  | .items q => Items.Reply q
  | .file q => q.Reply
  | .profile q => q.Reply
  | .product q => q.Reply
  | .catalog q => q.Reply
  | .gallery q => q.Reply

/-- The reply of a statement: its rows, or the error it raised. -/
abbrev Answer (q : Stmt) : Type := Except PgError (Reply q)

/-- A statement of the items; the end of its transaction is the end of all of it. -/
def afterItems (c : Client) (i : Items.Db) (d : Db) : Items.Stmt → Db
  | .shop .commit => d.commit c
  | .shop .rollback => d.rollback c
  | _ => d.withItems i

/-- What the store does for a statement of client `c` at time `now`: the reply and the
store after it, or `none` while the statement waits for a lock. -/
def exec (now : Nat) (c : Client) : (q : Stmt) → Db → Option (Answer q × Db)
  | .items q, d => (Items.exec now c q (d.items c)).map fun x => (x.1, afterItems c x.2 d q)
  | .file q, d => (execFile now q d.files).map fun x => (x.1, { d with files := x.2 })
  | .profile q, d => (execProfile now d.files d.userRatings q d.users).map fun x => (x.1, { d with users := x.2 })
  | .product q, d => execProduct now c q d
  | .catalog q, d => execCatalog now c q d
  | .gallery q, d => execGallery now c q d

/-- A failed statement changes nothing. `ROLLBACK` cannot fail: a lost connection rolls
the transaction back as well. -/
def act (m : Move) (c : Client) (q : Stmt) (d : Db) : Option (Answer q × Db) :=
  match m with
  | .run now => exec now c q d
  | .fail e =>
    match q with
    | .items (.shop .rollback) => none
    | _ => some (.error e, d)

end Kayan.Media
