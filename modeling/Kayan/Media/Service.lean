import Kayan.Items.Service
import Kayan.Media.Sql

/-!
# The methods that write files and their links

`FilesService`, the profile methods of `UsersService`, the product methods of `ProductsService`, and the
catalog, gallery and fault methods of `KayanService`, statement by statement.
-/
namespace Kayan.Media
open Interleave RowStore Shop Reads Products Fk

/-- Code of the services: statements, a result or an exception. -/
abbrev Code (α : Type) := Interleave.Code Stmt Reply PgError Failure α

/-- Awaits one statement; its error is thrown. -/
def query (q : Stmt) : Code (Reply q) := await Failure.database q

/-- The items' code as code of the services. -/
def ofItems {α : Type} (code : Items.Code α) : Code α := ExceptT.mk (code.run.embed Stmt.items)

/-- `try { BEGIN; callback; COMMIT } catch { ROLLBACK; throw }`. -/
def withTransaction {α : Type} (callback : Code α) : Code α :=
  transaction Failure.database (.items (.shop .begin)) (.items (.shop .commit)) (.items (.shop .rollback)) callback

/-- What a storage uploader answers. -/
structure UploadIntent where
  method : String
  url : String
  expiresAt : String
  headers : Option Fields := none
  fields : Option Fields := none

/-- The configuration, the storage uploader, and how numbers become text. -/
structure Env where
  reader : Reader
  storageProvider : String
  storageBucket : String
  storageUploadTtlSeconds : Nat
  createUploadIntent : String → String → Nat → Except Failure UploadIntent
  numberText : ℚ → String

/-- `toPositiveInt` of a `BIGINT` column. -/
def toPositiveInt (value : Option Nat) : Option Nat := value.filter fun n => 0 < n

def purposeText : Items.FilePurpose → String
  | .avatar => "avatar"
  | .productImage => "product_image"
  | .chatAttachment => "chat_attachment"
  | .document => "document"

section Uploads
variable (env : Env)

def hasPrefix (start text : String) : Bool := start.toList.isPrefixOf text.toList

/-- `filename.replace(/[^a-zA-Z0-9._-]/g, '_')`: a character outside the BMP is two code units. -/
def safeFilename (filename : String) : List Char :=
  filename.toList.flatMap fun c =>
    if c.isAlphanum || c = '.' || c = '_' || c = '-' then [c]
    else if c.toNat < 0x10000 then ['_']
    else ['_', '_']

/-- `replace(/\.[^.]+$/, '')`. -/
def dropExtension (cs : List Char) : List Char :=
  let extension := cs.reverse.takeWhile (· ≠ '.')
  if extension = [] ∨ extension.length = cs.length then cs else cs.take (cs.length - extension.length - 1)

/-- The time and the random bytes are those of the call. -/
def buildObjectKey (dto : CreateUploadIntentDto) (now : Nat) (random : String) : String :=
  let isImageOrVideo := hasPrefix "image/" dto.mimeType || hasPrefix "video/" dto.mimeType
  let safeBaseName := if isImageOrVideo then dropExtension (safeFilename dto.filename) else safeFilename dto.filename
  let owner := (dto.ownerId.map env.numberText).getD "temp"
  s!"{dto.ownerType.text}/{owner}/{now}-{random}-" ++ String.ofList safeBaseName

def uploadPayload (intent : UploadIntent) : Payload :=
  .obj ([("method", .str intent.method), ("url", .str intent.url), ("expiresAt", .str intent.expiresAt)] ++
    (intent.headers.map fun headers => ("headers", .obj headers)).toList ++
    (intent.fields.map fun fields => ("fields", .obj fields)).toList)

def createUploadIntent (userId : Nat) (dto : CreateUploadIntentDto) (now : Nat) (random : String) : Code Payload := do
  let objectKey := buildObjectKey env dto now random
  let storageBucket := if env.storageProvider = "cloudinary" then none else some env.storageBucket
  let fileId : Nat ← query (.file (.insertFile userId dto env.storageProvider storageBucket objectKey))
  match env.createUploadIntent objectKey dto.mimeType env.storageUploadTtlSeconds with
  | .error e => throw e
  | .ok intent =>
    pure (.obj [("file", .obj [("id", env.reader.bigint fileId), ("objectKey", .str objectKey), ("status", .str "pending")]),
                ("upload", uploadPayload intent)])

def markUploaded (userId fileId : Nat) (checksumSha256 : Option String) : Code Payload := do
  let row : Option File ← query (.file (.selectUpload fileId))
  match row with
  | none => throw (.notFound "File not found")
  | some row =>
    if toPositiveInt row.uploaderUserId ≠ some userId then throw (.forbidden "Not allowed")
    else
      query (.file (.markUploaded checksumSha256 fileId))
      pure (.obj [("file", .obj [("id", .num fileId), ("objectKey", .str row.objectKey), ("status", .str "uploaded")])])

/-- A file as `getFile` shows it. -/
def filePayload (f : File) : Payload :=
  .obj [("file", .obj
    [("id", env.reader.bigint f.id), ("uploader_user_id", (f.uploaderUserId.map env.reader.bigint).getD .null),
     ("owner_type", .str f.ownerType.text), ("owner_id", (f.ownerId.map env.reader.bigint).getD .null),
     ("purpose", .str (purposeText f.purpose)), ("object_key", .str f.objectKey), ("mime_type", .ofText f.mimeType),
     ("file_size_bytes", (f.fileSizeBytes.map env.reader.bigint).getD .null), ("status", .str f.status.text),
     ("created_at", .str (env.reader.timestampText f.createdAt)),
     ("uploaded_at", .ofText (f.uploadedAt.map env.reader.timestampText)),
     ("readUrl", .str (env.reader.buildReadUrl f.objectKey (f.mimeType.getD "")))])]

def getFile (user : AuthUser) (fileId : Nat) : Code Payload := do
  let file : Option File ← query (.file (.selectFile fileId))
  match file with
  | none => throw (.notFound "File not found")
  | some file =>
    if !user.isAdmin && toPositiveInt file.uploaderUserId ≠ some user.sub then throw (.forbidden "Not allowed")
    else pure (filePayload env file)

end Uploads

section Profiles
variable (env : Env)

def avatarFile : Option File → Payload
  | none => .null
  | some f =>
    if f.objectKey = "" then .null
    else .obj
      [("id", env.reader.bigint f.id), ("purpose", .str (purposeText f.purpose)), ("object_key", .str f.objectKey),
       ("mime_type", .ofText f.mimeType), ("status", .str f.status.text),
       ("created_at", .str (env.reader.timestampText f.createdAt)),
       ("uploaded_at", .ofText (f.uploadedAt.map env.reader.timestampText)),
       ("url", .str (env.reader.buildReadUrl f.objectKey (f.mimeType.getD "")))]

def getMe (userId : Nat) : Code Payload := do
  let row : Option (Profile × List Nat × Option File) ← query (.profile (.selectMe userId))
  match row with
  | none => throw (.notFound "User not found")
  | some (u, ratings, avatar) =>
    pure (.obj [("user", .obj
      [("id", .num u.id), ("name", .str u.name), ("phone", .str (u.phone.getD "")), ("email", .str (u.email.getD "")),
       ("profileState", .str u.status), ("rate", .str (decimalText (averageRate ratings))),
       ("contactInfo", .ofText u.contactInfo), ("avatar", avatarFile env avatar)])])

/-- The check of a new phone number. -/
def assertPhone (userId : Nat) (phone : Option String) : Code Unit := do
  let existing : Bool ← query (.profile (.selectPhone phone userId))
  if existing then throw (.conflict "Phone already exists") else pure ()

/-- The check of a new avatar. -/
def assertAvatarFile (userId : Nat) (fileId : ℚ) : Code Unit := do
  let file : Option File ← query (.profile (.selectAvatarFile fileId))
  match file with
  | none => throw (.notFound "Avatar file not found")
  | some file =>
    if toPositiveInt file.uploaderUserId ≠ some userId then throw (.forbidden "Not allowed to use this file")
    else if file.status ≠ .uploaded ∨ file.purpose ≠ .avatar then
      throw (.badRequest "Avatar file must be an uploaded avatar")
    else pure ()

/-- The `catch` of `updateMe`. -/
def phoneTaken : Failure → Code Unit
  | .database .uniqueViolation => throw (.conflict "Phone already exists")
  | e => throw e

def updateMe (userId : Nat) (dto : UpdateProfileDto) : Code Payload :=
  if dto.name.isNone && dto.avatarFileId.isNone && dto.contactInfo.isNone && dto.phone.isNone && dto.address.isNone then
    throw (.badRequest "Nothing to update")
  else do
    match dto.phone with
    | some phone => assertPhone userId phone
    | none => pure ()
    match dto.avatarFileId with
    | some (some fileId) => assertAvatarFile userId fileId
    | _ => pure ()
    tryCatch (query (.profile (.updateProfile dto userId))) phoneTaken
    getMe env userId

def deleteAvatar (userId : Nat) : Code Payload := do
  let updated : Bool ← query (.profile (.clearAvatar userId))
  if !updated then throw (.notFound "User not found") else getMe env userId

end Profiles

section Taxonomy

def categoryToSubcategories : List (String × List String) :=
  [("realEstate",
    ["all", "apartmentForRent", "apartmentForSale", "houses", "lands", "commercialRealEstateForRent",
     "commercialRealEstateForSale", "other"]),
   ("vehicles",
    ["all", "carsForSale", "carsForRent", "sparePartsAndAccessories", "motorCycles", "bicycles",
     "trucksAndHeavyVehicles"]),
   ("electronics",
    ["all", "smartphones", "tablets", "laptopsAndComputers", "accessories", "speakersAndHeadphones", "cameras",
     "smartWatchesAndWearables", "monitorsAndTVs", "other"]),
   ("homeAndDecor",
    ["all", "furniture", "officeFurniture", "kitchenAndDining", "beddingAndBath", "homeDecor", "homeTools",
     "lighting", "other"]),
   ("clothingAndFashion",
    ["all", "menClothing", "womenClothing", "kidsClothing", "shoes", "menAccessories",
     "womenAccessoriesAndMakeup", "jewelryAndWatches", "other"]),
   ("services",
    ["all", "maintenanceAndRepairs", "transportationAndMoving", "personalServices", "carsServices", "homeServices",
     "lessonsAndTutoring", "other"])]

def isValidCategory (category : String) : Bool := (categoryToSubcategories.lookup category).isSome

def isValidSubcategory (category subcategory : String) : Bool :=
  (categoryToSubcategories.lookup category).any fun subcategories => subcategory ∈ subcategories

def isAllowedProductSubcategory (category subcategory : String) : Bool :=
  isValidSubcategory category subcategory && subcategory ≠ "all"

def assertCategoryPair (category : String) (subcategory : Option String) (allowAll : Bool) : Code Unit :=
  if !isValidCategory category then throw (.badRequest "Invalid category")
  else
    match subcategory with
    | none => pure ()
    | some subcategory =>
      if !isValidSubcategory category subcategory then throw (.badRequest "Invalid subcategory for category")
      else if !allowAll && !isAllowedProductSubcategory category subcategory then
        throw (.badRequest "subcategory cannot be all")
      else pure ()

end Taxonomy

section Listings
variable (env : Env)

/-- What `syncProductImages` throws for a file, if anything. -/
def productImageFault (actorUserId : Nat) (files : List File) (fileId : ℚ) : Option Failure :=
  let name := env.numberText fileId
  match files.find? fun f => (f.id : ℚ) = fileId with
  | none => some (.badRequest s!"File {name} does not exist")
  | some file =>
    if file.purpose ≠ .productImage then some (.badRequest s!"File {name} must have purpose product_image")
    else if toPositiveInt file.uploaderUserId ≠ some actorUserId then
      some (.forbidden s!"File {name} is not owned by the current user")
    else if file.status ≠ .uploaded then
      some (.badRequest s!"File {name} must be uploaded before product association")
    else none

def objectKeyOf (files : List File) (fileId : ℚ) : String :=
  ((files.find? fun f => (f.id : ℚ) = fileId).map (·.objectKey)).getD ""

def syncProductImages (actorUserId productId : Nat) (imageFileIds : List ℚ) : Code Unit := do
  query (.product (.deleteImages productId))
  if imageFileIds.isEmpty then pure ()
  else
    let files : List File ← query (.product (.selectImageFiles imageFileIds))
    match imageFileIds.findSome? (productImageFault env actorUserId files) with
    | some fault => throw fault
    | none =>
      query (.product (.insertImages productId (imageFileIds.map fun fileId => (fileId, objectKeyOf files fileId))))
      query (.product (.ownFiles productId imageFileIds))

def productPayload (p : Product) (images : List (ProductImage × File)) : Payload :=
  .obj
    [("id", env.reader.bigint p.id), ("owner_id", env.reader.bigint p.ownerId), ("category", .str p.category),
     ("subcategory", .ofText p.subcategory), ("name", .str p.name), ("description", .str p.description),
     ("price", .str (decimalText p.price)), ("city", .str p.city), ("address_text", .str p.addressText),
     ("details", p.details.getD .null), ("status", .str p.status.text), ("is_negotiable", .bool p.isNegotiable),
     ("preferred_contact_method", .str p.preferredContactMethod.text),
     ("created_at", .str (env.reader.timestampText p.createdAt)),
     ("updated_at", .str (env.reader.timestampText p.updatedAt)),
     ("images", .arr (images.map fun (pi, f) => .obj
       [("id", env.reader.bigint pi.id), ("file_id", env.reader.bigint pi.fileId), ("sort_order", .num pi.sortOrder),
        ("object_key", .str f.objectKey), ("status", .str f.status.text)]))]

def fetchProductWithImages (productId : Nat) : Code Payload := do
  let product : Option Product ← query (.product (.selectProduct productId))
  match product with
  | none => pure .null
  | some p =>
    let images : List (ProductImage × File) ← query (.product (.selectImages productId))
    pure (productPayload env p images)

def createProduct (userId : Nat) (dto : CreateProductDto) : Code Payload :=
  withTransaction do
    assertCategoryPair (trim dto.category) (dto.subcategory.map trim) false
    let productId : Nat ← query (.product (.insertProduct userId dto))
    match dto.imageFileIds with
    | some imageFileIds =>
      if imageFileIds.isEmpty then pure () else syncProductImages env userId productId imageFileIds
    | none => pure ()
    let product ← fetchProductWithImages env productId
    pure (.obj [("product", product)])

/-- The rest of `updateProduct`, for the owner. -/
def updateOwnProduct (userId productId : Nat) (dto : UpdateProductDto) : Code Payload := do
  let current : Option (String × Option String) ← query (.product (.selectCategory productId))
  match current with
  | none => throw .typeError
  | some (category, subcategory) =>
    let nextSubcategory := match dto.subcategory with
      | some subcategory => subcategory.map trim
      | none => subcategory
    assertCategoryPair ((dto.category.map trim).getD category) nextSubcategory false
    query (.product (.updateProduct dto productId))
    match dto.imageFileIds with
    | some imageFileIds => syncProductImages env userId productId imageFileIds
    | none => pure ()
    let product ← fetchProductWithImages env productId
    pure (.obj [("product", product)])

def updateProduct (userId productId : Nat) (dto : UpdateProductDto) : Code Payload :=
  withTransaction do
    let ownerId : Option Nat ← query (.product (.lockOwner productId))
    match ownerId with
    | none => throw (.notFound "Product not found")
    | some ownerId =>
      if toPositiveInt ownerId ≠ some userId then throw (.forbidden "Not allowed")
      else updateOwnProduct env userId productId dto

end Listings

section Catalog
variable (env : Env)

/-- A link with the columns of its file. -/
def linkPayload (row : LinkRow) : Payload :=
  .obj
    [("file_id", .num row.fileId), ("sort_order", .num row.sortOrder),
     ("object_key", .ofText (row.file.map (·.objectKey))),
     ("original_filename", .ofText (row.file.bind (·.originalFilename))),
     ("mime_type", .ofText (row.file.bind (·.mimeType))), ("status", .ofText (row.file.map (·.status.text)))]

/-- The rows of one type, as `attachProductAssets` collects them. -/
def bucket (assetType : AssetType) (rows : List (AssetType × LinkRow)) : List LinkRow :=
  (rows.filter fun x => x.1 = assetType).map (·.2)

/-- The loop of `syncProductAssets`, from index `i`. -/
def insertAssets (productId : Nat) (assetType : AssetType) : Nat → List Int → Code Unit
  | _, [] => pure ()
  | i, fileId :: rest => do
    query (.catalog (.insertAsset productId fileId assetType i))
    insertAssets productId assetType (i + 1) rest

def syncProductAssets (productId : Nat) (fileIds : List Int) (assetType : AssetType) : Code Unit := do
  query (.catalog (.deleteAssets productId assetType))
  insertAssets productId assetType 0 fileIds

def getProductWithAssets (productId : Nat) : Code Payload := do
  let product : Option (Products.CatalogProduct × List Nat) ← query (.catalog (.selectProduct productId))
  match product with
  | none => throw (.notFound "Product not found")
  | some (product, values) =>
    let assets : List (AssetType × LinkRow) ← query (.catalog (.selectAssets productId))
    pure (.obj [("product", .obj (productFields env.reader product values ++
      [("images", .arr ((bucket .image assets).map linkPayload)),
       ("files", .arr ((bucket .file assets).map linkPayload))]))])

def adminCreateProduct (adminId : Nat) (dto : Products.AdminCreateProductDto) : Code Payload :=
  withTransaction do
    let productId : Nat ← query (.catalog (.insertProduct adminId dto))
    syncProductAssets productId (dto.imageFileIds.getD []) .image
    syncProductAssets productId (dto.fileIds.getD []) .file
    getProductWithAssets env productId

def adminUpdateProduct (adminId productId : Nat) (dto : AdminUpdateProductDto) : Code Payload :=
  withTransaction do
    let updated : Bool ← query (.catalog (.updateProduct adminId dto productId))
    if !updated then throw (.notFound "Product not found")
    else
      match dto.imageFileIds with
      | some imageFileIds => syncProductAssets productId imageFileIds .image
      | none => pure ()
      match dto.fileIds with
      | some fileIds => syncProductAssets productId fileIds .file
      | none => pure ()
      getProductWithAssets env productId

def adminDeleteProduct (adminId productId : Nat) : Code Payload := do
  let deleted : Bool ← query (.catalog (.deleteProduct adminId productId))
  if !deleted then throw (.notFound "Product not found")
  else pure (.obj [("message", .str "Product deleted")])

end Catalog

section Gallery
variable (env : Env)

/-- The loop of `syncGalleryAssets`, from index `i`. -/
def insertGalleryAssets (galleryId : Nat) : Nat → List Int → Code Unit
  | _, [] => pure ()
  | i, fileId :: rest => do
    query (.gallery (.insertAsset galleryId fileId i))
    insertGalleryAssets galleryId (i + 1) rest

def syncGalleryAssets (galleryId : Nat) (fileIds : List Int) : Code Unit := do
  query (.gallery (.deleteAssets galleryId))
  insertGalleryAssets galleryId 0 fileIds

def getGalleryItem (galleryId : Nat) : Code Payload := do
  let item : Option GalleryItem ← query (.gallery (.selectItem galleryId))
  match item with
  | none => throw (.notFound "Gallery item not found")
  | some item =>
    let assets : List LinkRow ← query (.gallery (.selectAssets galleryId))
    pure (.obj [("item", .obj
      [("id", env.reader.bigint item.id), ("title", .str item.title), ("description", .str item.description),
       ("is_active", .bool item.isActive), ("created_at", .str (env.reader.timestampText item.createdAt)),
       ("images", .arr (assets.map linkPayload))])])

def adminCreateGalleryItem (adminId : Nat) (dto : CreateGalleryItemDto) : Code Payload :=
  withTransaction do
    let id : Nat ← query (.gallery (.insertItem adminId dto))
    syncGalleryAssets id (dto.imageFileIds.getD [])
    getGalleryItem env id

def adminUpdateGalleryItem (adminId galleryId : Nat) (dto : UpdateGalleryItemDto) : Code Payload :=
  withTransaction do
    let updated : Bool ← query (.gallery (.updateItem adminId dto galleryId))
    if !updated then throw (.notFound "Gallery item not found")
    else
      match dto.imageFileIds with
      | some imageFileIds => syncGalleryAssets galleryId imageFileIds
      | none => pure ()
      getGalleryItem env galleryId

def adminDeleteGalleryItem (adminId galleryId : Nat) : Code Payload := do
  let deleted : Bool ← query (.gallery (.deleteItem adminId galleryId))
  if !deleted then throw (.notFound "Gallery item not found")
  else pure (.obj [("message", .str "Gallery item deleted")])

end Gallery

/-- The calls that clients make. -/
inductive Request where
  | createUploadIntent (userId : Nat) (dto : CreateUploadIntentDto) (now : Nat) (random : String)
  | markUploaded (userId fileId : Nat) (checksumSha256 : Option String)
  | getFile (user : AuthUser) (fileId : Nat)
  | updateMe (userId : Nat) (dto : UpdateProfileDto)
  | deleteAvatar (userId : Nat)
  | createProduct (userId : Nat) (dto : CreateProductDto)
  | updateProduct (userId productId : Nat) (dto : UpdateProductDto)
  | createFault (userId : Nat) (dto : Items.CreateFaultDto)
  | updateFault (userId faultId : Nat) (dto : Items.UpdateFaultDto)
  | adminCreateProduct (adminId : Nat) (dto : Products.AdminCreateProductDto)
  | adminUpdateProduct (adminId productId : Nat) (dto : AdminUpdateProductDto)
  | adminDeleteProduct (adminId productId : Nat)
  | adminCreateGalleryItem (adminId : Nat) (dto : CreateGalleryItemDto)
  | adminUpdateGalleryItem (adminId galleryId : Nat) (dto : UpdateGalleryItemDto)
  | adminDeleteGalleryItem (adminId galleryId : Nat)

/-- The program of a call. -/
def Request.code (env : Env) : Request → Code Payload
  | .createUploadIntent userId dto now random => Media.createUploadIntent env userId dto now random
  | .markUploaded userId fileId checksumSha256 => Media.markUploaded userId fileId checksumSha256
  | .getFile user fileId => Media.getFile env user fileId
  | .updateMe userId dto => Media.updateMe env userId dto
  | .deleteAvatar userId => Media.deleteAvatar env userId
  | .createProduct userId dto => Media.createProduct env userId dto
  | .updateProduct userId productId dto => Media.updateProduct env userId productId dto
  | .createFault userId dto => ofItems (Items.createFault env.reader.toDriver userId dto)
  | .updateFault userId faultId dto => ofItems (Items.updateFault env.reader.toDriver userId faultId dto)
  | .adminCreateProduct adminId dto => Media.adminCreateProduct env adminId dto
  | .adminUpdateProduct adminId productId dto => Media.adminUpdateProduct env adminId productId dto
  | .adminDeleteProduct adminId productId => Media.adminDeleteProduct adminId productId
  | .adminCreateGalleryItem adminId dto => Media.adminCreateGalleryItem env adminId dto
  | .adminUpdateGalleryItem adminId galleryId dto => Media.adminUpdateGalleryItem env adminId galleryId dto
  | .adminDeleteGalleryItem adminId galleryId => Media.adminDeleteGalleryItem adminId galleryId

/-- The calls while they run: the store, and what is left of each client's call. -/
abbrev State := Config Client Stmt Answer (Except Failure Payload) Db

/-- Every client has its request still to run. -/
def initial (env : Env) (req : Client → Request) (d : Db) : State :=
  ⟨d, fun c => ((req c).code env).run⟩

/-- One statement of one client, taken with its move and its reply. -/
abbrev Taken := Event Client Move Stmt Answer

/-- Links that are the object keys, and a storage that takes every upload. -/
def plainEnv : Env where
  reader := { toDriver := plainDriver, buildReadUrl := fun objectKey _ => objectKey }
  storageProvider := "local"
  storageBucket := "uploads"
  storageUploadTtlSeconds := 900
  createUploadIntent := fun objectKey _ _ => .ok { method := "PUT", url := objectKey, expiresAt := "" }
  numberText := fun q => toString q.num

end Kayan.Media
