import Kayan.Fk.Coverage
import Kayan.Fk.Opaque
import Kayan.Products.Service

/-!
# Product details

Details are returned as they were given exactly when they can be stored and the expansion of the
responses leaves them alone.
-/
namespace Kayan.Products
open Fk Payload
variable {rd : Reader} {dir : Directory} {now admin productId : Nat} {dto : AdminCreateProductDto} {s t s' t' : Store}
  {assetType : AssetType} {i : Nat} {fileIds : List Int} {fs gs : Fields} {details : Payload}

/-- The details in a response about one product. -/
def detailsOf (response : Payload) : Option Payload := response.at? [.key "product", .key "details"]

/-- `adminCreateProduct` with the details, then `getProduct`, both followed by the expansion of the
response, succeed and return the details. -/
def DetailsReturned (rd : Reader) (dir : Directory) (now admin : Nat) (dto : AdminCreateProductDto) (s : Store)
    (details : Payload) : Prop :=
  ∃ t created got out out', adminCreateProduct rd now admin { dto with details := some details } s = some (t, created) ∧
    getProduct rd t s.nextProduct = some got ∧ expand rd dir created = some out ∧ expand rd dir got = some out' ∧
    (detailsOf out).map normal = some details.normal ∧ (detailsOf out').map normal = some details.normal

/-- What the statements about assets read and write. -/
def SameAssets (s t : Store) : Prop := s.assets = t.assets ∧ s.files = t.files ∧ s.nextAsset = t.nextAsset

/-- They leave the products alone. -/
def SameProducts (s t : Store) : Prop := s.products = t.products ∧ s.ratings = t.ratings ∧ s.nextProduct = t.nextProduct

theorem insertAsset_step {fileId : Int} (h : insertAsset productId assetType i fileId s = some s') (hst : SameAssets s t) :
    ∃ t', insertAsset productId assetType i fileId t = some t' ∧ SameAssets s' t' ∧ SameProducts t t' := by
  obtain ⟨hassets, hfiles, hnext⟩ := hst
  unfold insertAsset at h ⊢
  split at h
  · cases h
  · rename_i file hfile
    split at h
    · cases h
    · rename_i hunique
      injection h with h
      subst h
      have hfile' : (t.files.find? fun f => (f.id : Int) = fileId) = some file := by rw [← hfiles, hfile]
      split
      · rename_i hnone
        rw [hnone] at hfile'
        cases hfile'
      · rename_i file' hsome
        rw [hsome] at hfile'
        injection hfile' with hfile'
        subst hfile'
        rw [if_neg (by rwa [← hassets])]
        exact ⟨_, rfl, ⟨by simp only [hassets, hnext], hfiles, congrArg (· + 1) hnext⟩, rfl, rfl, rfl⟩

theorem insertAssets_run (h : insertAssets productId assetType i fileIds s = some s') (hst : SameAssets s t) :
    ∃ t', insertAssets productId assetType i fileIds t = some t' ∧ SameAssets s' t' ∧ SameProducts t t' := by
  induction fileIds generalizing i s t with
  | nil =>
    injection h with h
    subst h
    exact ⟨t, rfl, hst, rfl, rfl, rfl⟩
  | cons fileId rest ih =>
    obtain ⟨s₁, hs₁, h⟩ := Option.bind_eq_some_iff.mp h
    obtain ⟨t₁, ht₁, hst₁, hproducts⟩ := insertAsset_step hs₁ hst
    obtain ⟨t', ht', hst', hproducts'⟩ := ih h hst₁
    refine ⟨t', ?_, hst', ?_⟩
    · rw [insertAssets, ht₁, Option.bind_some, ht']
    · exact ⟨hproducts.1.trans hproducts'.1, hproducts.2.1.trans hproducts'.2.1, hproducts.2.2.trans hproducts'.2.2⟩

/-- Replacing the assets of a product depends on the assets and the files only. -/
theorem sync_run (h : syncProductAssets productId fileIds assetType s = some s') (hst : SameAssets s t) :
    ∃ t', syncProductAssets productId fileIds assetType t = some t' ∧ SameAssets s' t' ∧ SameProducts t t' := by
  obtain ⟨hassets, hfiles, hnext⟩ := hst
  have hdelete : SameAssets (deleteAssets productId assetType s) (deleteAssets productId assetType t) :=
    ⟨by simp only [deleteAssets, hassets], hfiles, hnext⟩
  obtain ⟨t', ht', hst', hproducts⟩ := insertAssets_run h hdelete
  exact ⟨t', ht', hst', hproducts⟩

/-- The new row, with its details. -/
def newProduct (now admin : Nat) (dto : AdminCreateProductDto) (s : Store) (price : Nat) (details : Option Payload) :
    CatalogProduct where
  id := s.nextProduct
  title := dto.title
  description := dto.description
  amount := dto.amount
  price := price
  details := details
  createdBy := some admin
  updatedBy := some admin
  createdAt := now
  updatedAt := now

/-- Inserting a product with other details: only whether these can be stored matters. -/
theorem insertProduct_details (details : Payload) (h : insertProduct now admin { dto with details := none } s = some s') :
    (details.storable = false → insertProduct now admin { dto with details := some details } s = none) ∧
      (details.storable = true → ∃ t price, insertProduct now admin { dto with details := some details } s = some t ∧
        t.products = s.products ++ [newProduct now admin dto s price (some details.jsonbTree)] ∧ SameAssets s' t ∧
        t.ratings = s.ratings) := by
  unfold insertProduct at h ⊢
  split at h
  · rename_i hok
    obtain ⟨price, hprice, h⟩ := Option.bind_eq_some_iff.mp h
    obtain ⟨_, -, rfl⟩ := Option.map_eq_some_iff.mp h
    rw [if_pos hok]
    simp only at hprice
    constructor
    · intro hstorable
      simp [hprice, storeDetails, jsonb, hstorable]
    · intro hstorable
      simp only [hprice, storeDetails, jsonb, hstorable, if_true, Option.map_some, Option.bind_some]
      exact ⟨_, price, rfl, rfl, ⟨rfl, rfl, rfl⟩, rfl⟩
  · cases h

/-- The response about a product with the given details. -/
def Shows (rd : Reader) (t : Store) (productId : Nat) (details response : Payload) : Prop :=
  ∃ product, product.details = some details ∧
    response = .obj [("product", attachProductAssets t productId (productFields rd product (t.ratingsOf productId)))]

/-- The request with the details fails when they cannot be stored; otherwise both responses show them
as they are stored. -/
theorem created_details (details : Payload)
    (hother : (adminCreateProduct rd now admin { dto with details := none } s).isSome) :
    (details.storable = false → adminCreateProduct rd now admin { dto with details := some details } s = none) ∧
      (details.storable = true → ∃ t response,
        adminCreateProduct rd now admin { dto with details := some details } s = some (t, response) ∧
        getProduct rd t s.nextProduct = some response ∧ Shows rd t s.nextProduct details.jsonbTree response) := by
  obtain ⟨⟨s', response⟩, hs'⟩ := Option.isSome_iff_exists.mp hother
  obtain ⟨inserted, hinserted, hs'⟩ := Option.bind_eq_some_iff.mp hs'
  obtain ⟨pictured, hpictured, hs'⟩ := Option.bind_eq_some_iff.mp hs'
  obtain ⟨synced, hsynced, -⟩ := Option.bind_eq_some_iff.mp hs'
  obtain ⟨hfails, hsucceeds⟩ := insertProduct_details details hinserted
  constructor
  · intro hstorable
    simp only [adminCreateProduct, hfails hstorable]
    rfl
  · intro hstorable
    obtain ⟨t₀, price, ht₀, hproducts, hsame, hratings⟩ := hsucceeds hstorable
    obtain ⟨t₁, ht₁, hsame₁, hproducts₁⟩ := sync_run hpictured hsame
    obtain ⟨t₂, ht₂, -, hproducts₂⟩ := sync_run hsynced hsame₁
    have hlist : t₂.products = s.products ++ [newProduct now admin dto s price (some details.jsonbTree)] := by
      rw [← hproducts₂.1, ← hproducts₁.1, hproducts]
    have hfind : (t₂.products.find? fun product => product.id = s.nextProduct && product.deletedAt.isNone) =
        some (newProduct now admin dto s price (some details.jsonbTree)) := by
      have hold : (s.products.find? fun product => product.id = s.nextProduct && product.deletedAt.isNone) = none := by
        refine List.find?_eq_none.mpr fun product hproduct => ?_
        have hlt := s.fresh product hproduct
        have hne : product.id ≠ s.nextProduct := by omega
        simp [hne]
      rw [hlist, List.find?_append, hold]
      simp [newProduct]
    have hget : getProductWithAssets rd t₂ s.nextProduct = some (.obj [("product", attachProductAssets t₂ s.nextProduct
        (productFields rd (newProduct now admin dto s price (some details.jsonbTree)) (t₂.ratingsOf s.nextProduct)))]) := by
      rw [getProductWithAssets, hfind]
      rfl
    refine ⟨t₂, _, ?_, hget, _, rfl, rfl⟩
    simp only [adminCreateProduct, ht₀, ht₁, ht₂, hget, Option.bind_eq_bind, Option.bind_some]
    rfl

def productKeys : List String :=
  ["product", "id", "title", "description", "amount", "price", "details", "is_active", "created_at", "updated_at", "rate",
   "images", "files", "sort_order", "object_key", "original_filename", "mime_type", "status"]

/-- The keys of the responses are no foreign keys, apart from the `file_id` of assets. -/
theorem productKeys_plain : ∀ key ∈ productKeys, fkRules.lookup key = none ∧ key ∉ prototypeKeys := by
  decide +kernel

theorem plain_rule {node : Fields} {key : String} (h : key ∈ productKeys) : ruleFor node key = none :=
  ruleFor_none (productKeys_plain key h).1 (productKeys_plain key h).2

theorem plain_entryId {node : Fields} {key : String} {value : Payload} (h : key ∈ productKeys) :
    entryId node key value = none := by
  simp [entryId, plain_rule h]

theorem fkRules_file_id : fkRules.lookup "file_id" = some { entity := some .file } := rfl

/-- Where no key is a foreign key, the ids are those below the values. -/
theorem collectIds_plain {x : EntityType × Nat} (hkeys : ∀ y ∈ fs, y.1 ∈ productKeys) :
    x ∈ collectIds (.obj fs) ↔ ∃ y ∈ fs, x ∈ collectIds y.2 := by
  refine mem_collectFields_iff.trans (exists_congr fun y => and_congr_right fun hy => ?_)
  rw [plain_entryId (hkeys y hy)]
  simp

/-- An asset refers to its file only. -/
theorem collectIds_asset {x : EntityType × Nat} {asset : ProductAsset} (hx : x ∈ collectIds (assetPayload t asset)) :
    x = (.file, asset.fileId) := by
  obtain ⟨y, hy, hx⟩ := mem_collectFields_iff.mp hx
  simp only [List.mem_cons, List.not_mem_nil, or_false] at hy
  obtain rfl | rfl | rfl | rfl | rfl | rfl := hy
  · rcases hx with hx | hx
    · obtain ⟨rule, hrule, hentity, hid⟩ := entryId_eq_some hx
      have hfile : rule = { entity := some .file } := by
        rw [ruleFor_own fkRules_file_id] at hrule
        simpa [FkRule.shouldExpand] using hrule.symm
      subst hfile
      injection hentity with hentity
      simp only [toPositiveInt] at hid
      split at hid
      · injection hid with hid
        exact Prod.ext hentity.symm (by simpa using hid.symm)
      · cases hid
    · exact absurd hx List.not_mem_nil
  all_goals
    rw [plain_entryId (by simp [productKeys])] at hx
    simp [collectIds, collectIds_ofText] at hx

theorem collectIds_assets {x : EntityType × Nat} {productId : Nat}
    (hx : x ∈ collectIds (.arr ((assetsOf t productId assetType).map (assetPayload t)))) :
    x.2 ≤ bigintMax ∧ x.1 ≠ .category := by
  obtain ⟨p, hp, hx⟩ := mem_collectItems.mp hx
  obtain ⟨asset, hasset, rfl⟩ := List.mem_map.mp hp
  have hmem : asset ∈ t.assets :=
    List.mem_of_mem_filter ((List.perm_insertionSort _ _).mem_iff.mp hasset)
  obtain ⟨file, hfile, hid⟩ := t.filed asset hmem
  have hbound := t.bounded file hfile
  rw [collectIds_asset hx]
  exact ⟨hid ▸ hbound, by simp⟩

/-- The ids in a response about a product are those of its files and those in its details. -/
theorem Shows.lookable {response : Payload} (h : Shows rd t productId details response) (hnil : collectIds details = []) :
    Lookable dir (collectIds response) := by
  obtain ⟨product, hdetails, rfl⟩ := h
  intro x hx
  obtain ⟨y, hy, hx⟩ := (collectIds_plain (by simp [productKeys])).mp hx
  rw [List.mem_singleton.mp hy] at hx
  obtain ⟨z, hz, hx⟩ := (collectIds_plain (by simp [productFields, productKeys])).mp hx
  have hassets : x.2 ≤ bigintMax ∧ x.1 ≠ .category := by
    simp only [productFields, hdetails, Option.getD_some, List.cons_append, List.nil_append, List.mem_cons,
      List.not_mem_nil, or_false] at hz
    obtain rfl | rfl | rfl | rfl | rfl | rfl | rfl | rfl | rfl | rfl | rfl | rfl := hz
    case inr.inr.inr.inr.inr.inl => simp [hnil] at hx
    case inr.inr.inr.inr.inr.inr.inr.inr.inr.inr.inl => exact collectIds_assets hx
    case inr.inr.inr.inr.inr.inr.inr.inr.inr.inr.inr => exact collectIds_assets hx
    all_goals exact absurd hx List.not_mem_nil
  exact ⟨hassets.1, fun hcat => absurd hcat hassets.2⟩

/-- The details are visited. -/
theorem Shows.visits {response : Payload} (h : Shows rd t productId (.obj gs) response) :
    Visits response [.key "product", .key "details"] gs := by
  obtain ⟨product, hdetails, rfl⟩ := h
  refine @Visits.entry [] [] "product" _ _ _ (plain_rule (by simp [productKeys])) (by simp) ?_
  rw [attachProductAssets, productFields, hdetails]
  refine @Visits.entry [_, _, _, _, _] _ "details" _ _ _ (plain_rule (by simp [productKeys])) ?_ (.here gs)
  intro x hx
  have hkey : x.1 ∈ productKeys ∧ x.1 ≠ "details" := by
    simp only [List.mem_cons, List.not_mem_nil, or_false] at hx
    obtain rfl | rfl | rfl | rfl | rfl := hx <;> simp [productKeys]
  rw [outKey_of_none (plain_rule hkey.1)]
  exact hkey.2

def emptyStore : Store where
  products := []
  assets := []
  ratings := []
  files := []
  nextProduct := 1
  nextAsset := 1
  keyed := by decide
  fresh := by simp
  filed := by simp
  bounded := by simp

def lamp : AdminCreateProductDto where
  title := "Lamp"
  description := "Desk lamp"
  amount := 3
  price := (80 : ℚ)

theorem lamp_created : (adminCreateProduct textReader 0 1 { lamp with details := none } emptyStore).isSome := by
  have hprice : numeric12 ((80 : ℚ) : WithTop ℚ) = some 8000 := by
    change (if (80 * 100 + 1 / 2 : ℚ).floor.toNat < 10 ^ 12 then _ else none) = _
    decide +kernel
  have hprice' : numeric12 80 = some 8000 := hprice
  simp [adminCreateProduct, insertProduct, hprice', storeDetails, syncProductAssets, insertAssets, getProductWithAssets,
    deleteAssets, emptyStore, lamp, textStorable, integerMax]

def lampDetails : Fields := [("watts", .num 40), ("colours", .arr [.str "black", .str "white"])]

end Kayan.Products
