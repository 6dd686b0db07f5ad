import Kayan.Database
import Kayan.Lib.Doubles
import Kayan.Lib.Grouping
import Kayan.Shop.Service

/-!
# Attaching children

The methods of `KayanService` that fetch the children of many orders, products, gallery items or
faults with one query, and hand them out by `Number` of the ids.
-/
namespace Kayan.Attaching
open Doubles Grouping

/-- An id in a row: a number, or the text of a `BIGINT`. -/
inductive Id where
  | number (x : ℤ) (exact : toDouble x = x)
  | text (i : ℤ)

namespace Id

/-- The integer that the row has for an id. -/
def value : Id → ℤ
  | number x _ => x
  | text i => i

/-- `Number(id)`. -/
def toNumber : Id → ℤ
  | number x _ => x
  | text i => toDouble i

def payload : Id → Payload
  | number x _ => .num x
  | text i => .str (toString i)

/-- `Number.isSafeInteger`, of the integer that is meant. -/
def Safe (id : Id) : Prop := id.value.natAbs < 2 ^ 53

instance {id : Id} : Decidable id.Safe := inferInstanceAs (Decidable (_ < _))

end Id

section Rows

structure OrderItem where
  id : ℤ
  orderId : ℤ
  productId : ℤ
  quantity : ℤ
  unitPrice : String

structure Product where
  title : String
  isActive : Bool

structure File where
  objectKey : String
  originalFilename : Option String
  mimeType : Option String
  status : String

inductive AssetType where
  | file
  | image
  deriving DecidableEq

/-- The place of the type in the order of its texts. -/
def AssetType.rank : AssetType → ℤ
  | .file => 0
  | .image => 1

structure ProductAsset where
  id : ℤ
  productId : ℤ
  fileId : ℤ
  assetType : AssetType
  sortOrder : ℤ

structure GalleryAsset where
  id : ℤ
  galleryItemId : ℤ
  fileId : ℤ
  sortOrder : ℤ

structure FaultAsset where
  id : ℤ
  faultId : ℤ
  fileId : ℤ
  sortOrder : ℤ

structure Tables where
  orderItems : List OrderItem
  catalogProducts : ℤ → Option Product
  productAssets : List ProductAsset
  galleryAssets : List GalleryAsset
  faultAssets : List FaultAsset
  files : ℤ → Option File

/-- An order, with the ids that are read off it. -/
structure OrderRecord where
  id : Id
  userId : Id
  columns : Fields

/-- A product, a gallery item or a fault. -/
structure ItemRecord where
  id : Id
  columns : Fields

def OrderRecord.fields (order : OrderRecord) : Fields :=
  [("id", order.id.payload), ("user_id", order.userId.payload)] ++ order.columns

def ItemRecord.fields (item : ItemRecord) : Fields := ("id", item.id.payload) :: item.columns

end Rows

section Methods
variable {P R B : Type}

/-- `SELECT ... WHERE owner = ANY($1::bigint[]) ORDER BY ...`. -/
def selectAny (owner : R → ℤ) (before : R → R → Prop) [DecidableRel before] (rows : List R) (ids : List ℤ) :
    Except PgError (List R) :=
  if ∀ i ∈ ids, -2 ^ 63 ≤ i ∧ i < 2 ^ 63 then .ok (select owner before rows ids) else .error .outOfRange

/-- What the four methods do: query, put the rows into a map of buckets, and join each item with its
bucket. -/
def attach (idOf : P → Id) (owner : R → ℤ) (before : R → R → Prop) [DecidableRel before] (empty : B)
    (push : B → R → B) (join : P → B → Fields) (rows : List R) (items : List P) :
    Except PgError (List Fields) :=
  if items.isEmpty then .ok []
  else do
    let fetched ← selectAny owner before rows (items.map fun item => written (idOf item).toNumber)
    let byId := buckets (fun row => toDouble (owner row)) empty push fetched
    pure (items.map fun item => join item ((byId (idOf item).toNumber).getD empty))

variable (t : Tables)

def orderItemPayload (item : OrderItem) : Payload :=
  let product := t.catalogProducts item.productId
  .obj
    [("id", .num (toDouble item.id)), ("product_id", .num (toDouble item.productId)),
     ("quantity", .num item.quantity), ("unit_price", .str item.unitPrice),
     ("product", .obj
       [("id", .num (toDouble item.productId)), ("title", .ofText (product.map (·.title))),
        ("is_active", product.elim .null fun p => .bool p.isActive)])]

def orderWithItems (includeUser : Bool) (order : OrderRecord) (orderItems : List Payload) : Fields :=
  let enriched := Fields.put "items" (.arr orderItems)
    (Fields.put "item_count" (.num orderItems.length) order.fields)
  let enriched :=
    if includeUser then
      Fields.put "user" (.obj
        [("id", .num order.userId.toNumber), ("name", (order.fields.get "user_name").getD .null),
         ("email", (order.fields.get "user_email").getD .null),
         ("phone", (order.fields.get "user_phone").getD .null)]) enriched
    else enriched
  ((enriched.drop "user_name").drop "user_email").drop "user_phone"

def attachOrderItems (includeUser : Bool) (orders : List OrderRecord) : Except PgError (List Fields) :=
  attach OrderRecord.id OrderItem.orderId (thenBy (·.orderId) fun a b => a.id ≤ b.id) []
    (fun bucket item => bucket ++ [orderItemPayload t item]) (orderWithItems includeUser) t.orderItems orders

/-- What an asset shows of itself and its file. -/
def assetPayload (fileId sortOrder : ℤ) : Payload :=
  let file := t.files fileId
  .obj
    [("file_id", .num (toDouble fileId)), ("sort_order", .num sortOrder),
     ("object_key", .ofText (file.map (·.objectKey))),
     ("original_filename", .ofText (file.bind (·.originalFilename))),
     ("mime_type", .ofText (file.bind (·.mimeType))), ("status", .ofText (file.map (·.status)))]

/-- The buckets of a product. -/
structure Related where
  images : List Payload
  files : List Payload

def Related.push (bucket : Related) (asset : ProductAsset) : Related :=
  let payload := assetPayload t asset.fileId asset.sortOrder
  if asset.assetType = .image then { bucket with images := bucket.images ++ [payload] }
  else { bucket with files := bucket.files ++ [payload] }

def productWithAssets (product : ItemRecord) (related : Related) : Fields :=
  Fields.put "files" (.arr related.files) (Fields.put "images" (.arr related.images) product.fields)

def attachProductAssets (products : List ItemRecord) : Except PgError (List Fields) :=
  attach ItemRecord.id ProductAsset.productId
    (thenBy (·.productId) (thenBy (·.assetType.rank) (thenBy (·.sortOrder) fun a b => a.id ≤ b.id))) ⟨[], []⟩
    (Related.push t) productWithAssets t.productAssets products

def withImages (item : ItemRecord) (images : List Payload) : Fields :=
  Fields.put "images" (.arr images) item.fields

def attachGalleryAssets (galleryItems : List ItemRecord) : Except PgError (List Fields) :=
  attach ItemRecord.id GalleryAsset.galleryItemId
    (thenBy (·.galleryItemId) (thenBy (·.sortOrder) fun a b => a.id ≤ b.id)) []
    (fun bucket asset => bucket ++ [assetPayload t asset.fileId asset.sortOrder]) withImages t.galleryAssets
    galleryItems

def attachFaultAssets (faults : List ItemRecord) : Except PgError (List Fields) :=
  attach ItemRecord.id FaultAsset.faultId
    (thenBy (·.faultId) (thenBy (·.sortOrder) fun a b => a.id ≤ b.id)) []
    (fun bucket asset => bucket ++ [assetPayload t asset.fileId asset.sortOrder]) withImages t.faultAssets faults

end Methods

section Batches
variable {P R B : Type} {idOf : P → Id} {owner : R → ℤ} {rest : R → R → Prop} [DecidableRel rest] {empty : B}
  {push : B → R → B} {join : P → B → Fields} {rows : List R} {items : List P}

/-- An id below 2^53 is its number, and is sent to the query as it is. -/
theorem toNumber_of_safe {id : Id} (h : id.Safe) : id.toNumber = id.value := by
  cases id with
  | number x exact => rfl
  | text i => exact toDouble_of_lt h

theorem written_of_safe {id : Id} (h : id.Safe) : written id.toNumber = id.value := by
  rw [toNumber_of_safe h]
  exact written_of_lt h

/-- A batch that is attached item by item: each item comes as it would alone, with what makes it
of its own rows, all of them and no others, in their order. -/
def AttachesOwn (attach : List P → Except PgError (List Fields)) (idOf : P → Id) (owner : R → ℤ)
    (before : R → R → Prop) (make : P → List R → Fields) (rows : List R) (items : List P) : Prop :=
  ∃ out, attach items = .ok out ∧ List.Forall₂ (fun item x => attach [item] = .ok [x] ∧
    ∃ own : List R, own.Perm (rows.filter fun row => owner row = (idOf item).value) ∧ own.Pairwise before ∧
      x = make item own) items out

/-- The query for safe ids finds the rows of the ids that are meant. -/
theorem selectAny_of_safe {before : R → R → Prop} [DecidableRel before] (h : ∀ item ∈ items, (idOf item).Safe) :
    selectAny owner before rows (items.map fun item => written (idOf item).toNumber) =
      .ok (select owner before rows (items.map fun item => (idOf item).value)) := by
  have hids : (items.map fun item => written (idOf item).toNumber) = items.map fun item => (idOf item).value :=
    List.map_congr_left fun item hi => written_of_safe (h item hi)
  rw [hids, selectAny, if_pos]
  intro i hi
  obtain ⟨item, hitem, rfl⟩ := List.mem_map.mp hi
  have hsafe : (idOf item).value.natAbs < 2 ^ 53 := h item hitem
  omega

/-- The bucket of a safe id has the rows of this id alone. -/
theorem bucket_of_safe (h : ∀ item ∈ items, (idOf item).Safe) (hrest : Sorts rest) {item : P}
    (hi : item ∈ items) :
    (buckets (fun row => toDouble (owner row)) empty push
        (select owner (thenBy owner rest) rows (items.map fun item => (idOf item).value)) (idOf item).toNumber).getD
      empty =
      ((rows.filter fun row => owner row = (idOf item).value).insertionSort (thenBy owner rest)).foldl push empty := by
  have hmem : (idOf item).value ∈ items.map fun item => (idOf item).value := List.mem_map_of_mem hi
  rw [getD_buckets, toNumber_of_safe (h item hi), ← filter_select hrest.thenBy hmem]
  congr 1
  refine List.filter_congr fun row hrow => ?_
  -- A row that was fetched has a safe id as well.
  have hfetched := (List.mem_insertionSort _).mp hrow
  obtain ⟨other, hother, heq⟩ := List.mem_map.mp (of_decide_eq_true (List.mem_filter.mp hfetched).2)
  have hsafe : (idOf other).value.natAbs < 2 ^ 53 := h other hother
  rw [heq] at hsafe
  rw [toDouble_of_lt hsafe]

theorem attach_of_safe (h : ∀ item ∈ items, (idOf item).Safe) (hrest : Sorts rest) :
    attach idOf owner (thenBy owner rest) empty push join rows items =
      .ok (items.map fun item => join item (((rows.filter fun row => owner row = (idOf item).value).insertionSort
        (thenBy owner rest)).foldl push empty)) := by
  rcases items with - | ⟨item, items⟩
  · rfl
  · rw [attach, selectAny_of_safe h]
    refine congrArg Except.ok (List.map_congr_left fun other hother => congrArg (join other) ?_)
    exact bucket_of_safe h hrest hother

/-- A batch of safe ids is attached item by item. -/
theorem attachesOwn (h : ∀ item ∈ items, (idOf item).Safe) (hrest : Sorts rest) {make : P → List R → Fields}
    (hmake : ∀ item own, join item (own.foldl push empty) = make item own) :
    AttachesOwn (attach idOf owner (thenBy owner rest) empty push join rows) idOf owner rest make rows items := by
  refine ⟨_, attach_of_safe h hrest, ?_⟩
  rw [List.forall₂_map_right_iff]
  refine List.forall₂_same.mpr fun item hi => ⟨?_, _, List.perm_insertionSort _ _, ?_, hmake item _⟩
  · rw [attach_of_safe (fun other hother => List.mem_singleton.mp hother ▸ h item hi) hrest]
    rfl
  · refine own_sorted hrest fun a ha b hb => ?_
    have hown : ∀ row ∈ rows.filter fun row => owner row = (idOf item).value, owner row = (idOf item).value :=
      fun row hrow => of_decide_eq_true (List.mem_filter.mp hrow).2
    rw [hown a ha, hown b hb]

theorem AttachesOwn.mono {attach : List P → Except PgError (List Fields)} {before before' : R → R → Prop}
    {make : P → List R → Fields} (h : AttachesOwn attach idOf owner before make rows items)
    (hb : ∀ a b, before a b → before' a b) : AttachesOwn attach idOf owner before' make rows items := by
  obtain ⟨out, hout, hall⟩ := h
  refine ⟨out, hout, hall.imp fun item x hx => ?_⟩
  obtain ⟨halone, own, hperm, hsorted, hmake⟩ := hx
  exact ⟨halone, own, hperm, hsorted.imp fun {a b} => hb a b, hmake⟩

end Batches

section Buckets
variable {t : Tables} {R : Type} {k k' : String} {v : Payload} {fs : Fields}

theorem foldl_append {payload : R → Payload} {own : List R} {bucket : List Payload} :
    own.foldl (fun bucket row => bucket ++ [payload row]) bucket = bucket ++ own.map payload := by
  induction own generalizing bucket with
  | nil => simp
  | cons row own ih => simp [ih]

theorem foldl_push {own : List ProductAsset} {related : Related} : own.foldl (Related.push t) related =
    ⟨related.images ++ (own.filter fun a => a.assetType = .image).map fun a => assetPayload t a.fileId a.sortOrder,
     related.files ++ (own.filter fun a => a.assetType = .file).map fun a => assetPayload t a.fileId a.sortOrder⟩ := by
  induction own generalizing related with
  | nil => simp
  | cons asset own ih =>
    rw [List.foldl_cons, ih]
    cases htype : asset.assetType <;> simp [Related.push, htype]

/-- An order shows its items and their number. -/
theorem orderWithItems_items {includeUser : Bool} {order : OrderRecord} {orderItems : List Payload} :
    Fields.get "items" (orderWithItems includeUser order orderItems) = some (.arr orderItems) ∧
      Fields.get "item_count" (orderWithItems includeUser order orderItems) = some (.num orderItems.length) := by
  unfold orderWithItems
  simp only [ne_eq, String.reduceEq, not_false_eq_true, Fields.get_drop_of_ne]
  cases includeUser
  · simp [Fields.get_put_of_ne, Fields.get_put]
  · simp [Fields.get_put_of_ne, Fields.get_put]

end Buckets

/-- The four methods on items with safe ids: each item comes in its place as it would alone, with its own
children, all of them and no others, in their order. -/
theorem attached_own (t : Tables) :
    (∀ (includeUser : Bool) (orders : List OrderRecord), (∀ order ∈ orders, order.id.Safe) →
      AttachesOwn (attachOrderItems t includeUser) OrderRecord.id OrderItem.orderId (fun a b => a.id ≤ b.id)
        (fun order own => orderWithItems includeUser order (own.map (orderItemPayload t))) t.orderItems orders) ∧
    (∀ (includeUser : Bool) (order : OrderRecord) (items : List Payload),
      Fields.get "items" (orderWithItems includeUser order items) = some (.arr items) ∧
        Fields.get "item_count" (orderWithItems includeUser order items) = some (.num items.length)) ∧
    (∀ products : List ItemRecord, (∀ product ∈ products, product.id.Safe) →
      AttachesOwn (attachProductAssets t) ItemRecord.id ProductAsset.productId
        (fun a b => a.assetType = b.assetType → thenBy (·.sortOrder) (fun a b => a.id ≤ b.id) a b)
        (fun product own => productWithAssets product
          ⟨(own.filter fun a => a.assetType = .image).map fun a => assetPayload t a.fileId a.sortOrder,
           (own.filter fun a => a.assetType = .file).map fun a => assetPayload t a.fileId a.sortOrder⟩)
        t.productAssets products) ∧
    (∀ galleryItems : List ItemRecord, (∀ item ∈ galleryItems, item.id.Safe) →
      AttachesOwn (attachGalleryAssets t) ItemRecord.id GalleryAsset.galleryItemId
        (thenBy (·.sortOrder) fun a b => a.id ≤ b.id)
        (fun item own => withImages item (own.map fun a => assetPayload t a.fileId a.sortOrder))
        t.galleryAssets galleryItems) ∧
    (∀ faults : List ItemRecord, (∀ fault ∈ faults, fault.id.Safe) →
      AttachesOwn (attachFaultAssets t) ItemRecord.id FaultAsset.faultId (thenBy (·.sortOrder) fun a b => a.id ≤ b.id)
        (fun fault own => withImages fault (own.map fun a => assetPayload t a.fileId a.sortOrder))
        t.faultAssets faults) := by
  refine ⟨fun includeUser orders h => ?_, fun _ _ _ => orderWithItems_items, fun products h => ?_,
    fun galleryItems h => ?_, fun faults h => ?_⟩
  · refine attachesOwn h sorts_le fun order own => ?_
    rw [foldl_append, List.nil_append]
  · refine (attachesOwn h sorts_le.thenBy.thenBy fun product own => ?_).mono fun a b hab htype => ?_
    · rw [foldl_push, List.nil_append, List.nil_append]
    · rcases hab with hlt | ⟨-, hrest⟩
      · have hrank : a.assetType.rank < b.assetType.rank := hlt
        rw [htype] at hrank
        omega
      · exact hrest
  · refine attachesOwn h sorts_le.thenBy fun item own => ?_
    rw [foldl_append, List.nil_append]
  · refine attachesOwn h sorts_le.thenBy fun fault own => ?_
    rw [foldl_append, List.nil_append]

section Orders
variable {view : ℕ → Option Shop.CatalogProduct} {items : List Shop.OrderItem} {orders : List OrderRecord}
  {includeUser : Bool}

/-- A row of `order_items` as a row of this module. -/
def ofItem (row : Shop.OrderItem) : OrderItem := ⟨row.id, row.orderId, row.productId, row.quantity, row.unitPrice⟩

def ofShop (view : ℕ → Option Shop.CatalogProduct) (items : List Shop.OrderItem) : Tables where
  orderItems := items.map ofItem
  catalogProducts i := (view i.toNat).map fun p => ⟨p.title, p.isActive⟩
  productAssets := []
  galleryAssets := []
  faultAssets := []
  files _ := none

def OrderRecord.toShop (order : OrderRecord) : Shop.OrderRecord :=
  ⟨order.id.value.toNat, order.userId.toNumber.toNat, order.fields⟩

/-- Ids of the database are positive. -/
def OrderRecord.Natural (order : OrderRecord) : Prop := 0 ≤ order.id.value ∧ 0 ≤ order.userId.toNumber

theorem orderItemPayload_ofItem {row : Shop.OrderItem} (hid : row.id < 2 ^ 53) (hp : row.productId < 2 ^ 53) :
    orderItemPayload (ofShop view items) (ofItem row) =
      Shop.orderItemPayload ⟨row, (view row.productId).map (·.title), (view row.productId).map (·.isActive)⟩ := by
  have hid' : toDouble row.id = row.id := toDouble_of_lt (by omega)
  have hp' : toDouble row.productId = row.productId := toDouble_of_lt (by omega)
  cases hv : view row.productId <;>
    simp [orderItemPayload, Shop.orderItemPayload, ofItem, ofShop, hid', hp', hv, Payload.ofText]

theorem orderPayload_toShop {order : OrderRecord} {rows : List Shop.OrderItemRow} (hn : order.Natural) :
    Shop.orderPayload rows includeUser order.toShop =
      .obj (orderWithItems includeUser order (Shop.itemsByOrderId rows order.id.value.toNat)) := by
  have hu : ((order.userId.toNumber.toNat : ℕ) : ℚ) = order.userId.toNumber := by
    have hcast : ((order.userId.toNumber.toNat : ℕ) : ℤ) = order.userId.toNumber := Int.toNat_of_nonneg hn.2
    exact_mod_cast hcast
  simp only [Shop.orderPayload, orderWithItems, OrderRecord.toShop, hu]

/-- The order of the query. -/
def shopBefore (a b : Shop.OrderItem) : Prop := a.orderId < b.orderId ∨ (a.orderId = b.orderId ∧ a.id ≤ b.id)

instance : DecidableRel shopBefore := fun _ _ => inferInstanceAs (Decidable (_ ∨ _))

theorem sorts_shopBefore : Sorts shopBefore := by
  constructor
  · intro a b
    unfold shopBefore
    omega
  · intro a b c
    unfold shopBefore
    omega

/-- The rows of one order in the query of the shop. -/
theorem shopRows {orderIds : List ℕ} {n : ℕ} (hn : n ∈ orderIds) :
    (Shop.orderItemRows view items orderIds).filter (fun row => row.item.orderId = n) =
      ((items.filter fun row => row.orderId = n).insertionSort shopBefore).map fun row =>
        ⟨row, (view row.productId).map (·.title), (view row.productId).map (·.isActive)⟩ := by
  rw [← filter_select sorts_shopBefore hn]
  exact List.filter_map

/-- The same rows here. -/
theorem ownRows {n : ℕ} :
    ((ofShop view items).orderItems.filter fun row => row.orderId = (n : ℤ)).insertionSort
      (thenBy (·.orderId) fun a b => a.id ≤ b.id) =
    ((items.filter fun row => row.orderId = n).insertionSort shopBefore).map ofItem := by
  have hfilter : (ofShop view items).orderItems.filter (fun row => row.orderId = (n : ℤ)) =
      (items.filter fun row => row.orderId = n).map ofItem := by
    rw [ofShop, List.filter_map]
    congr 1
    refine List.filter_congr fun row _ => ?_
    simp [ofItem]
  rw [hfilter]
  refine (List.map_insertionSort shopBefore _ ofItem _ fun a _ b _ => ?_).symm
  simp only [shopBefore, thenBy, ofItem]
  omega

/-- What the orders of the shop are attached is what this method attaches. -/
theorem attachOrderItems_shop (h : ∀ order ∈ orders, order.id.Safe ∧ order.Natural)
    (hitems : ∀ row ∈ items, row.id < 2 ^ 53 ∧ row.productId < 2 ^ 53) :
    (attachOrderItems (ofShop view items) includeUser orders).map (List.map Payload.obj) =
      .ok (Shop.attachOrderItems (Shop.orderItemRows view items (orders.map fun order => order.id.value.toNat))
        includeUser (orders.map OrderRecord.toShop)) := by
  rw [attachOrderItems, attach_of_safe (fun order ho => (h order ho).1) sorts_le]
  refine congrArg Except.ok ?_
  rw [Shop.attachOrderItems, List.map_map, List.map_map]
  refine List.map_congr_left fun order ho => ?_
  obtain ⟨hsafe, hn⟩ := h order ho
  have hmem : order.id.value.toNat ∈ orders.map fun order => order.id.value.toNat := List.mem_map_of_mem ho
  have hvalue : order.id.value = (order.id.value.toNat : ℕ) := (Int.toNat_of_nonneg hn.1).symm
  simp only [Function.comp_apply]
  rw [orderPayload_toShop hn, foldl_append, List.nil_append, Shop.itemsByOrderId_eq, shopRows hmem, List.map_map]
  generalize order.id.value.toNat = n at hvalue
  rw [hvalue, ownRows, List.map_map]
  apply congrArg fun x => Payload.obj (orderWithItems includeUser order x)
  refine List.map_congr_left fun row hrow => ?_
  have hitem := hitems row (List.mem_of_mem_filter ((List.mem_insertionSort _).mp hrow))
  exact orderItemPayload_ofItem hitem.1 hitem.2

end Orders

section Examples

/-- Two orders with ids that are rounded to the same number, and an item of each. -/
def largeOrders : List OrderRecord :=
  [⟨.text 9007199254740992, .text 1, []⟩, ⟨.text 9007199254740993, .text 1, []⟩]

def largeTables : Tables where
  orderItems := [⟨1, 9007199254740992, 7, 2, "15.00"⟩, ⟨2, 9007199254740993, 8, 1, "40.00"⟩]
  catalogProducts _ := none
  productAssets := []
  galleryAssets := []
  faultAssets := []
  files _ := none

/-- Both orders get the item of the first one. -/
theorem largeOrders_attached : attachOrderItems largeTables false largeOrders =
    .ok (largeOrders.map fun order =>
      orderWithItems false order [orderItemPayload largeTables ⟨1, 9007199254740992, 7, 2, "15.00"⟩]) := by
  have hround : toDouble 9007199254740992 = 9007199254740992 ∧ toDouble 9007199254740993 = 9007199254740992 := by
    decide +kernel
  have hwritten : written 9007199254740992 = 9007199254740992 := by decide +kernel
  simp [attachOrderItems, attach, largeOrders, Id.toNumber, hround, hwritten, selectAny, select, largeTables, buckets]

/-- The second order loses its item and gets that of the first. -/
theorem largeOrders_mixed : ¬ ∀ (t : Tables) (includeUser : Bool) (orders : List OrderRecord),
    (orders.map fun order => order.id.value).Nodup →
      AttachesOwn (attachOrderItems t includeUser) OrderRecord.id OrderItem.orderId (fun a b => a.id ≤ b.id)
        (fun order own => orderWithItems includeUser order (own.map (orderItemPayload t))) t.orderItems orders := by
  intro h
  obtain ⟨out, hout, hall⟩ := h largeTables false largeOrders (by decide)
  rw [largeOrders_attached] at hout
  obtain rfl := Except.ok.inj hout
  rw [List.forall₂_map_right_iff, List.forall₂_same] at hall
  obtain ⟨-, own, hperm, -, hmake⟩ := hall ⟨.text 9007199254740993, .text 1, []⟩ (by simp [largeOrders])
  have hown : own = [⟨2, 9007199254740993, 8, 1, "40.00"⟩] := by
    apply List.perm_singleton.mp
    simpa [largeTables, Id.value] using hperm
  have hitems := congrArg (Fields.get "items") hmake
  rw [orderWithItems_items.1, orderWithItems_items.1, hown] at hitems
  simp [orderItemPayload, toDouble_of_lt] at hitems

/-- A number and a text for the ids of the items, whose children come mixed. -/
def smallItems : List ItemRecord := [⟨.text 5, []⟩, ⟨.number 6 (by decide +kernel), []⟩]

def smallOrders : List OrderRecord := smallItems.map fun item => ⟨item.id, .text 1, item.columns⟩

def smallTables : Tables where
  orderItems := [⟨1, 6, 7, 2, "15.00"⟩, ⟨2, 5, 8, 1, "40.00"⟩, ⟨3, 6, 8, 1, "40.00"⟩]
  catalogProducts _ := some ⟨"Lamp", true⟩
  productAssets := [⟨1, 6, 9, .image, 0⟩, ⟨2, 5, 9, .file, 0⟩, ⟨3, 6, 8, .file, 1⟩]
  galleryAssets := [⟨1, 6, 9, 1⟩, ⟨2, 5, 9, 0⟩, ⟨3, 6, 8, 0⟩]
  faultAssets := [⟨1, 6, 9, 1⟩, ⟨2, 5, 9, 0⟩, ⟨3, 6, 8, 0⟩]
  files _ := none

theorem smallTables_own :
    AttachesOwn (attachOrderItems smallTables true) OrderRecord.id OrderItem.orderId (fun a b => a.id ≤ b.id)
      (fun order own => orderWithItems true order (own.map (orderItemPayload smallTables))) smallTables.orderItems
      smallOrders ∧
    (∃ out, attachProductAssets smallTables smallItems = .ok out) ∧
    (∃ out, attachGalleryAssets smallTables smallItems = .ok out) ∧
    ∃ out, attachFaultAssets smallTables smallItems = .ok out := by
  obtain ⟨horders, -, hproducts, hgallery, hfaults⟩ := attached_own smallTables
  have hsafe : ∀ item ∈ smallItems, item.id.Safe := by decide
  refine ⟨horders true smallOrders (by decide), ?_, ?_, ?_⟩
  · exact (hproducts smallItems hsafe).imp fun _ h => h.1
  · exact (hgallery smallItems hsafe).imp fun _ h => h.1
  · exact (hfaults smallItems hsafe).imp fun _ h => h.1

end Examples

end Kayan.Attaching
