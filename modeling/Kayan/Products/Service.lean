import Kayan.Products.Schema

/-!
# Creating and reading catalog products

`adminCreateProduct`, `getProduct` and what they share. A statement that fails, a row that is not
there and a transaction that is rolled back are `none`.
-/
namespace Kayan.Products
open Fk Payload
variable (rd : Reader)

structure AdminCreateProductDto where
  title : String
  description : String
  amount : Nat
  price : WithTop ℚ
  details : Option Payload := none
  imageFileIds : Option (List Int) := none
  fileIds : Option (List Int) := none

/-- The columns of a product and its average rating, as the queries select them. -/
def productFields (product : CatalogProduct) (values : List Nat) : Fields :=
  [("id", rd.bigint product.id), ("title", .str product.title), ("description", .str product.description),
   ("amount", .num product.amount), ("price", .str (decimalText product.price)),
   ("details", product.details.getD .null), ("is_active", .bool product.isActive),
   ("created_at", .str (rd.timestampText product.createdAt)),
   ("updated_at", .str (rd.timestampText product.updatedAt)), ("rate", .str (rateText values))]

/-- An asset with the columns of its file. -/
def assetPayload (s : Store) (asset : ProductAsset) : Payload :=
  let file := s.files.find? fun file => file.id = asset.fileId
  .obj
    [("file_id", .num asset.fileId), ("sort_order", .num asset.sortOrder),
     ("object_key", .ofText (file.map (·.objectKey))), ("original_filename", .ofText (file.bind (·.originalFilename))),
     ("mime_type", .ofText (file.bind (·.mimeType))), ("status", .ofText (file.map (·.status)))]

/-- `ORDER BY pa.sort_order ASC, pa.id ASC`, among the assets of one product and type. -/
def assetsOf (s : Store) (productId : Nat) (assetType : AssetType) : List ProductAsset :=
  (s.assets.filter fun asset => asset.productId = productId && asset.assetType = assetType).insertionSort
    fun a b => a.sortOrder < b.sortOrder ∨ (a.sortOrder = b.sortOrder ∧ a.id ≤ b.id)

/-- `attachProductAssets`, for one product. -/
def attachProductAssets (s : Store) (productId : Nat) (product : Fields) : Payload :=
  .obj (product ++
    [("images", .arr ((assetsOf s productId .image).map (assetPayload s))),
     ("files", .arr ((assetsOf s productId .file).map (assetPayload s)))])

def getProductWithAssets (s : Store) (productId : Nat) : Option Payload :=
  (s.products.find? fun product => product.id = productId && product.deletedAt.isNone).map fun product =>
    .obj [("product", attachProductAssets s productId (productFields rd product (s.ratingsOf productId)))]

def getProduct (s : Store) (productId : Nat) : Option Payload := getProductWithAssets rd s productId

/-- `details` as the column keeps it: absent details are `NULL`. -/
def storeDetails : Option Payload → Option (Option Payload)
  | none => some none
  | some details => (jsonb details).map some

/-- The `INSERT` into `catalog_products`. -/
def insertProduct (now admin : Nat) (dto : AdminCreateProductDto) (s : Store) : Option Store :=
  if textStorable dto.title && textStorable dto.description && dto.amount ≤ integerMax then
    (numeric12 dto.price).bind fun price =>
      (storeDetails dto.details).map fun details =>
        { s with
          products := s.products ++ [{ id := s.nextProduct, title := dto.title, description := dto.description,
                                       amount := dto.amount, price := price, details := details,
                                       createdBy := some admin, updatedBy := some admin, createdAt := now,
                                       updatedAt := now }]
          nextProduct := s.nextProduct + 1
          keyed := by
            rw [List.map_append, List.nodup_append]
            refine ⟨s.keyed, by simp, fun i hi j hj => ?_⟩
            obtain ⟨product, hproduct, rfl⟩ := List.mem_map.mp hi
            have hlt := s.fresh product hproduct
            have hj' : j = s.nextProduct := by simpa using hj
            omega
          fresh := by
            intro product hproduct
            rcases List.mem_append.mp hproduct with hold | hnew
            · have := s.fresh product hold
              omega
            · rw [List.mem_singleton.mp hnew]
              exact Nat.lt_succ_self _ }
  else none

/-- The `DELETE` of `syncProductAssets`. -/
def deleteAssets (productId : Nat) (assetType : AssetType) (s : Store) : Store :=
  { s with
    assets := s.assets.filter fun asset => !(asset.productId = productId && asset.assetType = assetType)
    filed := fun asset hasset => s.filed asset (List.mem_of_mem_filter hasset) }

/-- An `INSERT` of `syncProductAssets`. It fails without the file, and on a second asset with it. -/
def insertAsset (productId : Nat) (assetType : AssetType) (sortOrder : Nat) (fileId : Int) (s : Store) : Option Store :=
  match h : s.files.find? fun file => (file.id : Int) = fileId with
  | none => none
  | some file =>
    if s.assets.any fun asset => asset.productId = productId && asset.fileId = file.id then none
    else some
      { s with
        assets := s.assets ++ [⟨s.nextAsset, productId, file.id, assetType, sortOrder⟩]
        nextAsset := s.nextAsset + 1
        filed := by
          intro asset hasset
          rcases List.mem_append.mp hasset with hold | hnew
          · exact s.filed asset hold
          · rw [List.mem_singleton.mp hnew]
            exact ⟨file, List.mem_of_find?_eq_some h, rfl⟩ }

/-- The loop of `syncProductAssets`, from position `i`. -/
def insertAssets (productId : Nat) (assetType : AssetType) : Nat → List Int → Store → Option Store
  | _, [], s => some s
  | i, fileId :: rest, s => (insertAsset productId assetType i fileId s).bind (insertAssets productId assetType (i + 1) rest)

def syncProductAssets (productId : Nat) (fileIds : List Int) (assetType : AssetType) (s : Store) : Option Store :=
  insertAssets productId assetType 0 fileIds (deleteAssets productId assetType s)

/-- The transaction: the new state and the response. -/
def adminCreateProduct (now admin : Nat) (dto : AdminCreateProductDto) (s : Store) : Option (Store × Payload) := do
  let inserted ← insertProduct now admin dto s
  let pictured ← syncProductAssets s.nextProduct (dto.imageFileIds.getD []) .image inserted
  let synced ← syncProductAssets s.nextProduct (dto.fileIds.getD []) .file pictured
  let response ← getProductWithAssets rd synced s.nextProduct
  return (synced, response)

end Kayan.Products
