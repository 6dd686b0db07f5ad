import Kayan.Lib.Confined
import Kayan.Lib.Sections
import Kayan.Media.Frame
import Kayan.Media.Service

/-!
# What a call writes of the lists of files

The images of a product, the assets of a catalog product and those of a gallery item are lists of files.
The notes of a call say whose lock it holds and which lists it has rewritten: a list is cleared and
filled under the lock of its row, and when the call commits it has rewritten what its body asks for.
-/
namespace Kayan.Media.Lists
open Interleave RowStore Shop Products

section Notes

/-- A row whose lock guards lists of files. -/
inductive Holder where
  | product (productId : Nat)
  | catalog (productId : Nat)
  | gallery (galleryId : Nat)
  deriving DecidableEq

/-- A list of files. -/
inductive Listing where
  | images (productId : Nat)
  | assets (productId : Nat) (assetType : AssetType)
  | gallery (galleryId : Nat)
  deriving DecidableEq

def Listing.holder : Listing → Holder
  | .images productId => .product productId
  | .assets productId _ => .catalog productId
  | .gallery galleryId => .gallery galleryId

/-- A file with its place in the list. -/
abbrev Entry : Type := ℚ × Nat

/-- The entries of a list that a body sends. -/
def entries (fileIds : List Int) : List Entry := (fileIds.map fun i : Int => (i : ℚ)).zipIdx

/-- The list that a call asks for, once it has the lock of a row. -/
def wanted (req : Request) (h : Holder) (g : Listing) : Option (List Entry) :=
  match req, h with
  | .createProduct _ dto, .product productId =>
    if g = .images productId then (dto.imageFileIds.filter fun l => !l.isEmpty).map List.zipIdx else none
  | .updateProduct _ id dto, .product productId =>
    if g = .images productId ∧ productId = id then dto.imageFileIds.map List.zipIdx else none
  | .adminCreateProduct _ dto, .catalog productId =>
    if g = .assets productId .file then some (entries (dto.fileIds.getD []))
    else if g = .assets productId .image then some (entries (dto.imageFileIds.getD []))
    else none
  | .adminUpdateProduct _ id dto, .catalog productId =>
    if g = .assets productId .file ∧ productId = id then dto.fileIds.map entries
    else if g = .assets productId .image ∧ productId = id then dto.imageFileIds.map entries
    else none
  | .adminCreateGalleryItem _ dto, .gallery galleryId =>
    if g = .gallery galleryId then some (entries (dto.imageFileIds.getD [])) else none
  | .adminUpdateGalleryItem _ id dto, .gallery galleryId =>
    if g = .gallery galleryId ∧ galleryId = id then dto.imageFileIds.map entries else none
  | _, _ => none

/-- The calls that rewrite lists. -/
def replaces : Request → Bool
  | .createProduct _ _ | .updateProduct _ _ _ | .adminCreateProduct _ _ | .adminUpdateProduct _ _ _
  | .adminCreateGalleryItem _ _ | .adminUpdateGalleryItem _ _ _ => true
  | _ => false

/-- The row that a call names; the others create theirs. -/
def target : Request → Option Holder
  | .updateProduct _ productId _ => some (.product productId)
  | .adminUpdateProduct _ productId _ => some (.catalog productId)
  | .adminUpdateGalleryItem _ galleryId _ => some (.gallery galleryId)
  | _ => none

/-- The notes of a call: the row that it has locked, the lists that it has rewritten, and the row for
which it has committed. -/
structure Draft where
  req : Request
  holder : Option Holder := none
  lists : Listing → Option (List Entry) := fun _ => none
  done : Option Holder := none

namespace Draft

def lock (x : Draft) (h : Holder) : Draft := { x with holder := some h }

def put (x : Draft) (g : Listing) (l : List Entry) : Draft := { x with lists := Function.update x.lists g (some l) }

/-- The notes at the end of a transaction. -/
def ended (x : Draft) (done : Option Holder) : Draft := { req := x.req, done }

/-- The notes when a row is appended to a list. -/
def push (x : Draft) (g : Listing) (fileId : Int) (sortOrder : Nat) : Draft :=
  x.put g ((x.lists g).getD [] ++ [((fileId : ℚ), sortOrder)])

def after (x : Draft) : (q : Stmt) → Answer q → Draft
  | .items (.shop .commit), .ok _ => x.ended (x.holder.or x.done)
  | .items (.shop .rollback), _ => x.ended x.done
  | .product (.insertProduct _ _), .ok productId => x.lock (.product productId)
  | .product (.lockOwner productId), .ok (owner : Option Nat) => if owner.isSome then x.lock (.product productId) else x
  | .product (.deleteImages productId), .ok _ => x.put (.images productId) []
  | .product (.insertImages productId images), .ok _ => x.put (.images productId) (images.map (·.1)).zipIdx
  | .catalog (.insertProduct _ _), .ok productId => x.lock (.catalog productId)
  | .catalog (.updateProduct _ _ productId), .ok (updated : Bool) => if updated then x.lock (.catalog productId) else x
  | .catalog (.deleteAssets productId assetType), .ok _ => x.put (.assets productId assetType) []
  | .catalog (.insertAsset productId fileId assetType sortOrder), .ok _ =>
    x.push (.assets productId assetType) fileId sortOrder
  | .gallery (.insertItem _ _), .ok galleryId => x.lock (.gallery galleryId)
  | .gallery (.updateItem _ _ galleryId), .ok (updated : Bool) => if updated then x.lock (.gallery galleryId) else x
  | .gallery (.deleteAssets galleryId), .ok _ => x.put (.gallery galleryId) []
  | .gallery (.insertAsset galleryId fileId sortOrder), .ok _ => x.push (.gallery galleryId) fileId sortOrder
  | _, _ => x

/-- Nothing is locked and no list rewritten. -/
def blank (x : Draft) : Prop := x.holder = none ∧ x.lists = fun _ => none

/-- The list may be cleared: the call holds the lock of its row. -/
def mayClear (x : Draft) (g : Listing) : Prop := x.holder = some g.holder ∧ x.lists g = none

/-- A call that rewrites lists has rewritten those that it asks for. -/
def settled (x : Draft) : Prop :=
  x.holder.isSome = replaces x.req ∧ x.lists = fun g => x.holder.elim none fun h => wanted x.req h g

/-- Which statements a call may issue. -/
def may (x : Draft) : Stmt → Prop
  | .items (.shop .commit) => x.done = none ∧ x.settled
  | .product (.insertProduct _ _) | .catalog (.insertProduct _ _) | .gallery (.insertItem _ _) =>
    x.blank ∧ target x.req = none
  | .product (.lockOwner productId) => x.blank ∧ target x.req = some (.product productId)
  | .catalog (.updateProduct _ _ productId) => x.blank ∧ target x.req = some (.catalog productId)
  | .gallery (.updateItem _ _ galleryId) => x.blank ∧ target x.req = some (.gallery galleryId)
  | .product (.deleteImages productId) => x.mayClear (.images productId)
  | .product (.insertImages productId _) => x.lists (.images productId) = some []
  | .catalog (.deleteAssets productId assetType) => x.mayClear (.assets productId assetType)
  | .catalog (.insertAsset productId _ assetType _) => (x.lists (.assets productId assetType)).isSome
  | .gallery (.deleteAssets galleryId) => x.mayClear (.gallery galleryId)
  | .gallery (.insertAsset galleryId _ _) => (x.lists (.gallery galleryId)).isSome
  | _ => True

end Draft

/-- The protocol of the calls. -/
abbrev protocol : Protocol Stmt Answer Draft := monitored Draft.may Draft.after

/-- The statements that lock no row for a list, rewrite none, and end no transaction. -/
def Plain : Stmt → Prop
  | .items (.shop .commit) | .items (.shop .rollback) | .product (.insertProduct _ _) | .product (.lockOwner _)
  | .product (.deleteImages _) | .product (.insertImages _ _) | .catalog (.insertProduct _ _)
  | .catalog (.updateProduct _ _ _) | .catalog (.deleteAssets _ _) | .catalog (.insertAsset _ _ _ _)
  | .gallery (.insertItem _ _) | .gallery (.updateItem _ _ _) | .gallery (.deleteAssets _)
  | .gallery (.insertAsset _ _ _) => False
  | _ => True

/-- A call that rewrites lists has committed if it returns, and none has if it throws. -/
def ends (r : Except Failure Payload) (x : Draft) : Prop := x.done.isSome = (replaces x.req && r.isOk)

end Notes

section Code
variable {env : Env} {x : Draft} {α : Type} {E : Draft → Prop} {userId productId galleryId : Nat} {code : Code α}

theorem keeps_query {q : Stmt} {Q : Reply q → Draft → Prop} (hm : x.may q) (h : ∀ r, outcome Q E r (x.after q r)) :
    Keeps protocol x (query q) Q E :=
  Keeps.await fun r => ⟨x.after q r, ⟨hm, rfl⟩, h r⟩

theorem plain_step {q : Stmt} (h : Plain q) (r : Answer q) : protocol x q r x := by
  cases q with
  | items q =>
    cases q with
    | shop q =>
      cases q with
      | commit | rollback => exact h.elim
      | _ => exact ⟨trivial, rfl⟩
    | _ => exact ⟨trivial, rfl⟩
  | file q | profile q => exact ⟨trivial, rfl⟩
  | product q =>
    cases q with
    | insertProduct | lockOwner | deleteImages | insertImages => exact h.elim
    | _ => exact ⟨trivial, rfl⟩
  | catalog q =>
    cases q with
    | insertProduct | updateProduct | deleteAssets | insertAsset => exact h.elim
    | _ => exact ⟨trivial, rfl⟩
  | gallery q =>
    cases q with
    | insertItem | updateItem | deleteAssets | insertAsset => exact h.elim
    | _ => exact ⟨trivial, rfl⟩

/-- Code of plain statements leaves the notes alone. -/
theorem plain_still (h : Confined Plain code) : Still protocol x code := h.still fun _ r hq => plain_step hq r

/-- A transaction that has rewritten what its call asks for when its code returns. -/
theorem withTransaction_keeps {code : Code Payload} (hx : x.done = none) (hr : replaces x.req = true)
    (h : Keeps protocol x code (fun _ y => y.req = x.req ∧ y.may (.items (.shop .commit)) ∧ y.holder.isSome)
      fun y => y.req = x.req ∧ y.done = none) :
    Follows protocol ends (withTransaction code).run x := by
  have hkeeps : Keeps protocol x (withTransaction code) (fun _ y => y.req = x.req ∧ y.done.isSome = true)
      fun y => y.req = x.req ∧ y.done = none := by
    refine Keeps.transaction (Q := fun _ y => y.req = x.req ∧ y.may (.items (.shop .commit)) ∧ y.holder.isSome)
      (E := fun y => y.req = x.req ∧ y.done = none) (y := x) (fun r => ?_) h (fun a y hy r => ?_) fun y hy r => ?_
    · refine ⟨x, plain_step (q := .items (.shop .begin)) trivial r, ?_⟩
      cases r with
      | ok v => rfl
      | error e => exact ⟨rfl, hx⟩
    · obtain ⟨hreq, hm, hholder⟩ := hy
      refine ⟨y.after (.items (.shop .commit)) r, ⟨hm, rfl⟩, ?_⟩
      cases r with
      | ok v =>
        obtain ⟨o, ho⟩ := Option.isSome_iff_exists.mp hholder
        refine ⟨hreq, ?_⟩
        change (y.holder.or y.done).isSome = true
        rw [ho]
        rfl
      | error e => exact ⟨hreq, hm.1⟩
    · exact ⟨y.after (.items (.shop .rollback)) r, ⟨trivial, rfl⟩, hy.1, hy.2⟩
  refine Follows.mono hkeeps fun r y hy => ?_
  unfold ends
  cases r with
  | ok v =>
    rw [hy.1, hr, hy.2]
    rfl
  | error e =>
    rw [hy.1, hy.2]
    simp [Except.isOk, Except.toBool]

/-- The rest of a call is the same call, and it has not committed. -/
def Draft.Open (x y : Draft) : Prop := y.req = x.req ∧ y.done = none

theorem Draft.put_put {g : Listing} {l l' : List Entry} : (x.put g l).put g l' = x.put g l' := by
  unfold Draft.put
  simp only [Function.update_idem]

theorem Draft.put_push {g : Listing} {l : List ℚ} {fileId : Int} :
    (x.put g l.zipIdx).push g fileId l.length = x.put g (l ++ [(fileId : ℚ)]).zipIdx := by
  unfold Draft.push
  have hget : (x.put g l.zipIdx).lists g = some l.zipIdx := Function.update_self ..
  rw [hget, Draft.put_put, List.zipIdx_append, Nat.zero_add]
  rfl

section Listings

theorem assertCategoryPair_plain {category : String} {subcategory : Option String} {allowAll : Bool} :
    Confined Plain (assertCategoryPair category subcategory allowAll) := by
  unfold assertCategoryPair
  split
  · exact Confined.throw
  · split
    · exact Confined.pure
    · split
      · exact Confined.throw
      · split
        · exact Confined.throw
        · exact Confined.pure

/-- The response of a product call. -/
theorem product_plain : Confined Plain (do
    let product ← fetchProductWithImages env productId
    pure (Payload.obj [("product", product)])) := by
  refine Confined.bind ?_ fun _ => Confined.pure
  refine Confined.bind (Confined.await trivial) fun product => ?_
  rcases product with - | p
  · exact Confined.pure
  · exact Confined.bind (Confined.await trivial) fun _ => Confined.pure

theorem syncProductImages_keeps {imageFileIds : List ℚ} (hc : x.mayClear (.images productId)) (hd : x.done = none) :
    Keeps protocol x (syncProductImages env userId productId imageFileIds)
      (fun _ y => y = x.put (.images productId) imageFileIds.zipIdx) x.Open := by
  refine Keeps.bind (Q := fun _ y => y = x.put (.images productId) []) (keeps_query hc fun r => ?_) fun _ y hy => ?_
  · cases r with
    | ok v => rfl
    | error e => exact ⟨rfl, hd⟩
  subst hy
  split
  · rename_i hempty
    rw [List.isEmpty_iff.mp hempty]
    exact Keeps.pure rfl
  refine Keeps.after (plain_still (Confined.await trivial)) (fun files => ?_) ⟨rfl, hd⟩
  split
  · exact Keeps.throw ⟨rfl, hd⟩
  have hclear : (x.put (.images productId) []).lists (.images productId) = some [] := Function.update_self ..
  refine Keeps.bind (Q := fun _ y => y = x.put (.images productId) imageFileIds.zipIdx)
    (keeps_query hclear fun r => ?_) fun _ y hy => ?_
  · cases r with
    | ok v =>
      change (x.put (.images productId) []).put (.images productId) _ = _
      rw [Draft.put_put, List.map_map]
      exact congrArg (fun l => x.put (.images productId) l.zipIdx) (List.map_id' imageFileIds)
    | error e => exact ⟨rfl, hd⟩
  subst hy
  have hown : Confined Plain (query (.product (.ownFiles productId imageFileIds))) := Confined.await trivial
  exact (plain_still hown).keeps (fun _ => rfl) ⟨rfl, hd⟩

theorem lists_put {h : Holder} {g : Listing} {l : List Entry} {req : Request} :
    (({ req } : Draft).lock h |>.put g l).lists = fun g' => if g' = g then some l else none := by
  funext g'
  simp [Draft.put, Draft.lock, Function.update_apply]

theorem createProduct_keeps {dto : CreateProductDto} :
    Follows protocol ends (createProduct env userId dto).run { req := .createProduct userId dto } := by
  refine withTransaction_keeps rfl rfl (Keeps.after (plain_still assertCategoryPair_plain) (fun _ => ?_) ⟨rfl, rfl⟩)
  refine Keeps.bind (Q := fun (productId : Nat) y => y =
    ({ req := .createProduct userId dto } : Draft).lock (.product productId)) (keeps_query ⟨⟨rfl, rfl⟩, rfl⟩ fun r => ?_)
    fun productId y hy => ?_
  · cases r with
    | ok v => rfl
    | error e => exact ⟨rfl, rfl⟩
  subst hy
  have hnone : ∀ {l : Option (List ℚ)}, dto.imageFileIds = l → l.filter (fun l => !l.isEmpty) = none →
      Keeps protocol (({ req := .createProduct userId dto } : Draft).lock (.product productId)) (do
        let product ← fetchProductWithImages env productId
        pure (Payload.obj [("product", product)]))
        (fun _ y => y.req = .createProduct userId dto ∧ y.may (.items (.shop .commit)) ∧ y.holder.isSome)
        fun y => y.req = .createProduct userId dto ∧ y.done = none := by
    intro l hl hempty
    refine (plain_still product_plain).keeps (fun _ => ⟨rfl, ⟨rfl, rfl, ?_⟩, rfl⟩) ⟨rfl, rfl⟩
    funext g
    change none = wanted (.createProduct userId dto) (.product productId) g
    simp only [wanted, hl, hempty, Option.map_none, ite_self]
  rcases himages : dto.imageFileIds with - | imageFileIds
  · exact hnone himages rfl
  · dsimp only
    split
    · rename_i hempty
      exact hnone himages (by simp [Option.filter, hempty])
    · rename_i hempty
      refine Keeps.bind (syncProductImages_keeps ⟨rfl, rfl⟩ rfl) fun _ y hy => ?_
      subst hy
      refine (plain_still product_plain).keeps (fun _ => ⟨rfl, ⟨rfl, rfl, ?_⟩, rfl⟩) ⟨rfl, rfl⟩
      rw [lists_put]
      funext g
      change _ = wanted (.createProduct userId dto) (.product productId) g
      have hfilter : (some imageFileIds).filter (fun l => !l.isEmpty) = some imageFileIds := by
        simp [Option.filter, hempty]
      simp only [wanted, himages, hfilter, Option.map_some]

theorem updateOwnProduct_keeps {dto : UpdateProductDto} :
    Keeps protocol (({ req := .updateProduct userId productId dto } : Draft).lock (.product productId))
      (updateOwnProduct env userId productId dto)
      (fun _ y => y.req = .updateProduct userId productId dto ∧ y.may (.items (.shop .commit)) ∧ y.holder.isSome)
      fun y => y.req = .updateProduct userId productId dto ∧ y.done = none := by
  refine Keeps.after (plain_still (Confined.await trivial)) (fun current => ?_) ⟨rfl, rfl⟩
  rcases current with - | ⟨category, subcategory⟩
  · exact Keeps.throw ⟨rfl, rfl⟩
  refine Keeps.after (plain_still assertCategoryPair_plain) (fun _ => ?_) ⟨rfl, rfl⟩
  refine Keeps.after (plain_still (Confined.await trivial)) (fun _ => ?_) ⟨rfl, rfl⟩
  rcases himages : dto.imageFileIds with - | imageFileIds
  · refine (plain_still product_plain).keeps (fun _ => ⟨rfl, ⟨rfl, rfl, ?_⟩, rfl⟩) ⟨rfl, rfl⟩
    funext g
    change none = wanted (.updateProduct userId productId dto) (.product productId) g
    simp only [wanted, himages, Option.map_none, ite_self]
  · refine Keeps.bind (syncProductImages_keeps ⟨rfl, rfl⟩ rfl) fun _ y hy => ?_
    subst hy
    refine (plain_still product_plain).keeps (fun _ => ⟨rfl, ⟨rfl, rfl, ?_⟩, rfl⟩) ⟨rfl, rfl⟩
    rw [lists_put]
    funext g
    change _ = wanted (.updateProduct userId productId dto) (.product productId) g
    simp only [wanted, himages, and_true, Option.map_some]

theorem updateProduct_keeps {dto : UpdateProductDto} :
    Follows protocol ends (updateProduct env userId productId dto).run { req := .updateProduct userId productId dto } := by
  refine withTransaction_keeps rfl rfl (Keeps.bind (Q := fun (owner : Option Nat) y => y = if owner.isSome then
    ({ req := .updateProduct userId productId dto } : Draft).lock (.product productId)
    else { req := .updateProduct userId productId dto }) (keeps_query ⟨⟨rfl, rfl⟩, rfl⟩ fun r => ?_) fun owner y hy => ?_)
  · cases r with
    | ok owner => rfl
    | error e => exact ⟨rfl, rfl⟩
  subst hy
  rcases owner with - | ownerId
  · exact Keeps.throw ⟨rfl, rfl⟩
  · rw [if_pos (by rfl)]
    dsimp only
    split
    · exact Keeps.throw ⟨rfl, rfl⟩
    · exact updateOwnProduct_keeps

end Listings

section Catalog
variable {fileIds : List Int} {assetType : AssetType} {l : List ℚ}

theorem insertAssets_keeps (hd : x.done = none) :
    Keeps protocol (x.put (.assets productId assetType) l.zipIdx) (insertAssets productId assetType l.length fileIds)
      (fun _ y => y = x.put (.assets productId assetType) (l ++ fileIds.map fun i : Int => (i : ℚ)).zipIdx) x.Open := by
  induction fileIds generalizing l with
  | nil =>
    refine Keeps.pure ?_
    rw [List.map_nil, List.append_nil]
  | cons fileId rest ih =>
    have hsome : ((x.put (.assets productId assetType) l.zipIdx).lists (.assets productId assetType)).isSome := by
      simp [Draft.put]
    refine Keeps.bind (Q := fun _ y => y = x.put (.assets productId assetType) (l ++ [(fileId : ℚ)]).zipIdx)
      (keeps_query hsome fun r => ?_) fun _ y hy => ?_
    · cases r with
      | ok v => exact Draft.put_push
      | error e => exact ⟨rfl, hd⟩
    subst hy
    have hrest := ih (l := l ++ [(fileId : ℚ)])
    rw [List.length_append, List.append_assoc] at hrest
    exact hrest

theorem syncProductAssets_keeps (hc : x.mayClear (.assets productId assetType)) (hd : x.done = none) :
    Keeps protocol x (syncProductAssets productId fileIds assetType)
      (fun _ y => y = x.put (.assets productId assetType) (entries fileIds)) x.Open := by
  refine Keeps.bind (Q := fun _ y => y = x.put (.assets productId assetType) []) (keeps_query hc fun r => ?_)
    fun _ y hy => ?_
  · cases r with
    | ok v => rfl
    | error e => exact ⟨rfl, hd⟩
  subst hy
  exact insertAssets_keeps (l := []) hd

theorem getProductWithAssets_plain : Confined Plain (getProductWithAssets env productId) := by
  refine Confined.bind (Confined.await trivial) fun product => ?_
  rcases product with - | ⟨product, values⟩
  · exact Confined.throw
  · exact Confined.bind (Confined.await trivial) fun _ => Confined.pure

/-- The response of a call that has rewritten what it asks for. -/
theorem answer_keeps {code : Code Payload} (h : Confined Plain code) (hd : x.done = none) (hx : x.holder.isSome)
    (hr : replaces x.req = true) (hl : x.lists = fun g => x.holder.elim none fun h => wanted x.req h g) :
    Keeps protocol x code (fun _ y => y.req = x.req ∧ y.may (.items (.shop .commit)) ∧ y.holder.isSome)
      fun y => y.req = x.req ∧ y.done = none :=
  (plain_still h).keeps (fun _ => ⟨rfl, ⟨hd, by rw [hx, hr], hl⟩, hx⟩) ⟨rfl, hd⟩

theorem adminCreateProduct_keeps {dto : Products.AdminCreateProductDto} :
    Follows protocol ends (adminCreateProduct env userId dto).run { req := .adminCreateProduct userId dto } := by
  refine withTransaction_keeps rfl rfl (Keeps.bind (Q := fun (productId : Nat) y => y =
    ({ req := .adminCreateProduct userId dto } : Draft).lock (.catalog productId)) (keeps_query ⟨⟨rfl, rfl⟩, rfl⟩ fun r => ?_)
    fun productId y hy => ?_)
  · cases r with
    | ok v => rfl
    | error e => exact ⟨rfl, rfl⟩
  subst hy
  refine Keeps.bind (syncProductAssets_keeps ⟨rfl, rfl⟩ rfl) fun _ y hy => ?_
  subst hy
  refine Keeps.bind (syncProductAssets_keeps ⟨rfl, ?_⟩ rfl) fun _ y hy => ?_
  · simp [Draft.put, Draft.lock]
  subst hy
  refine answer_keeps getProductWithAssets_plain rfl rfl rfl ?_
  funext g
  simp [Draft.put, Draft.lock, Function.update_apply, wanted]

/-- The files of a product, once its images are replaced. -/
theorem updateFiles_keeps {dto : Media.AdminUpdateProductDto} (hreq : x.req = .adminUpdateProduct userId productId dto)
    (hd : x.done = none) (hholder : x.holder = some (.catalog productId)) (hnone : x.lists (.assets productId .file) = none)
    (hlists : ∀ g, g ≠ .assets productId .file → x.lists g = wanted x.req (.catalog productId) g) :
    Keeps protocol x (do
      match dto.fileIds with
      | some fileIds => syncProductAssets productId fileIds .file
      | none => pure ()
      getProductWithAssets env productId)
      (fun _ y => y.req = x.req ∧ y.may (.items (.shop .commit)) ∧ y.holder.isSome)
      fun y => y.req = x.req ∧ y.done = none := by
  rcases hdto : dto.fileIds with - | fileIds
  · refine answer_keeps getProductWithAssets_plain hd (by rw [hholder]; rfl) (by rw [hreq]; rfl) ?_
    funext g
    rw [hholder]
    by_cases hg : g = .assets productId .file
    · subst hg
      rw [hnone, hreq]
      simp [wanted, hdto]
    · exact hlists g hg
  · refine Keeps.bind (syncProductAssets_keeps ⟨hholder, hnone⟩ hd) fun _ y hy => ?_
    subst hy
    refine answer_keeps getProductWithAssets_plain hd ?_ ?_ ?_
    · exact (congrArg Option.isSome hholder).trans rfl
    · exact (congrArg replaces hreq).trans rfl
    · funext g
      change Function.update x.lists _ _ g = x.holder.elim none fun h => wanted x.req h g
      rw [hholder]
      by_cases hg : g = .assets productId .file
      · subst hg
        rw [Function.update_self, hreq]
        simp [wanted, hdto]
      · rw [Function.update_of_ne hg]
        exact hlists g hg

theorem adminUpdateProduct_keeps {dto : Media.AdminUpdateProductDto} :
    Follows protocol ends (adminUpdateProduct env userId productId dto).run
      { req := .adminUpdateProduct userId productId dto } := by
  refine withTransaction_keeps rfl rfl (Keeps.bind (Q := fun (updated : Bool) y => y = if updated then
    ({ req := .adminUpdateProduct userId productId dto } : Draft).lock (.catalog productId)
    else { req := .adminUpdateProduct userId productId dto }) (keeps_query ⟨⟨rfl, rfl⟩, rfl⟩ fun r => ?_) fun updated y hy => ?_)
  · cases r with
    | ok updated => rfl
    | error e => exact ⟨rfl, rfl⟩
  subst hy
  cases updated with
  | false => exact Keeps.throw ⟨rfl, rfl⟩
  | true =>
    rcases hdto : dto.imageFileIds with - | imageFileIds
    · refine updateFiles_keeps rfl rfl rfl rfl fun g hg => ?_
      simp [Draft.lock, wanted, hg, hdto]
    · refine Keeps.bind (syncProductAssets_keeps ⟨rfl, rfl⟩ rfl) fun _ y hy => ?_
      subst hy
      refine updateFiles_keeps rfl rfl rfl ?_ fun g hg => ?_
      · simp [Draft.put, Draft.lock]
      · simp [Draft.put, Draft.lock, Function.update_apply, wanted, hg, hdto]

end Catalog

section Gallery
variable {fileIds : List Int} {l : List ℚ}

theorem insertGalleryAssets_keeps (hd : x.done = none) :
    Keeps protocol (x.put (.gallery galleryId) l.zipIdx) (insertGalleryAssets galleryId l.length fileIds)
      (fun _ y => y = x.put (.gallery galleryId) (l ++ fileIds.map fun i : Int => (i : ℚ)).zipIdx) x.Open := by
  induction fileIds generalizing l with
  | nil =>
    refine Keeps.pure ?_
    rw [List.map_nil, List.append_nil]
  | cons fileId rest ih =>
    have hsome : ((x.put (.gallery galleryId) l.zipIdx).lists (.gallery galleryId)).isSome := by simp [Draft.put]
    refine Keeps.bind (Q := fun _ y => y = x.put (.gallery galleryId) (l ++ [(fileId : ℚ)]).zipIdx)
      (keeps_query hsome fun r => ?_) fun _ y hy => ?_
    · cases r with
      | ok v => exact Draft.put_push
      | error e => exact ⟨rfl, hd⟩
    subst hy
    have hrest := ih (l := l ++ [(fileId : ℚ)])
    rw [List.length_append, List.append_assoc] at hrest
    exact hrest

theorem syncGalleryAssets_keeps (hc : x.mayClear (.gallery galleryId)) (hd : x.done = none) :
    Keeps protocol x (syncGalleryAssets galleryId fileIds)
      (fun _ y => y = x.put (.gallery galleryId) (entries fileIds)) x.Open := by
  refine Keeps.bind (Q := fun _ y => y = x.put (.gallery galleryId) []) (keeps_query hc fun r => ?_) fun _ y hy => ?_
  · cases r with
    | ok v => rfl
    | error e => exact ⟨rfl, hd⟩
  subst hy
  exact insertGalleryAssets_keeps (l := []) hd

theorem getGalleryItem_plain : Confined Plain (getGalleryItem env galleryId) := by
  refine Confined.bind (Confined.await trivial) fun item => ?_
  rcases item with - | item
  · exact Confined.throw
  · exact Confined.bind (Confined.await trivial) fun _ => Confined.pure

theorem adminCreateGalleryItem_keeps {dto : CreateGalleryItemDto} :
    Follows protocol ends (adminCreateGalleryItem env userId dto).run { req := .adminCreateGalleryItem userId dto } := by
  refine withTransaction_keeps rfl rfl (Keeps.bind (Q := fun (galleryId : Nat) y => y =
    ({ req := .adminCreateGalleryItem userId dto } : Draft).lock (.gallery galleryId))
    (keeps_query ⟨⟨rfl, rfl⟩, rfl⟩ fun r => ?_) fun galleryId y hy => ?_)
  · cases r with
    | ok v => rfl
    | error e => exact ⟨rfl, rfl⟩
  subst hy
  refine Keeps.bind (syncGalleryAssets_keeps ⟨rfl, rfl⟩ rfl) fun _ y hy => ?_
  subst hy
  refine answer_keeps getGalleryItem_plain rfl rfl rfl ?_
  rw [lists_put]
  rfl

theorem adminUpdateGalleryItem_keeps {dto : UpdateGalleryItemDto} :
    Follows protocol ends (adminUpdateGalleryItem env userId galleryId dto).run
      { req := .adminUpdateGalleryItem userId galleryId dto } := by
  refine withTransaction_keeps rfl rfl (Keeps.bind (Q := fun (updated : Bool) y => y = if updated then
    ({ req := .adminUpdateGalleryItem userId galleryId dto } : Draft).lock (.gallery galleryId)
    else { req := .adminUpdateGalleryItem userId galleryId dto }) (keeps_query ⟨⟨rfl, rfl⟩, rfl⟩ fun r => ?_)
    fun updated y hy => ?_)
  · cases r with
    | ok updated => rfl
    | error e => exact ⟨rfl, rfl⟩
  subst hy
  cases updated with
  | false => exact Keeps.throw ⟨rfl, rfl⟩
  | true =>
    rcases hdto : dto.imageFileIds with - | imageFileIds
    · refine answer_keeps getGalleryItem_plain rfl rfl rfl ?_
      funext g
      simp [Draft.lock, wanted, hdto]
    · refine Keeps.bind (syncGalleryAssets_keeps ⟨rfl, rfl⟩ rfl) fun _ y hy => ?_
      subst hy
      refine answer_keeps getGalleryItem_plain rfl rfl rfl ?_
      rw [if_pos (by rfl), lists_put]
      funext g
      simp [Draft.put, Draft.lock, wanted, hdto]

end Gallery

section Others

/-- The statements that rewrite no list. -/
def Aside (q : Stmt) : Prop := Plain q ∨ q = .items (.shop .commit) ∨ q = .items (.shop .rollback)

/-- Whatever the statements of the items are, none rewrites a list. -/
theorem ofItems_aside {code : Items.Code α} : Confined Aside (ofItems code) := by
  refine Issues.embed (H := Aside) ?_
  generalize code.run = p
  induction p with
  | ret a => trivial
  | call q k ih =>
    refine ⟨?_, fun r => ih r⟩
    unfold Aside
    cases q with
    | shop q =>
      cases q with
      | commit => exact Or.inr (Or.inl rfl)
      | rollback => exact Or.inr (Or.inr rfl)
      | _ => exact Or.inl trivial
    | _ => exact Or.inl trivial

/-- A call that rewrites no list. -/
theorem aside_follows {req : Request} {code : Code Payload} (h : Confined Aside code) (hr : replaces req = false) :
    Follows protocol ends code.run { req } := by
  refine Follows.mono (Issues.follows h fun q r hq => ?_) fun r y hy => ?_
  · rcases hq with hq | rfl | rfl
    · exact plain_step hq r
    · refine ⟨⟨rfl, hr.symm, rfl⟩, ?_⟩
      cases r <;> rfl
    · exact ⟨trivial, rfl⟩
  · subst hy
    unfold ends
    rw [hr]
    rfl

theorem plain_aside (h : Confined Plain code) : Confined Aside code := h.mono fun _ => Or.inl

theorem createUploadIntent_plain {dto : CreateUploadIntentDto} {now : Nat} {random : String} :
    Confined Plain (createUploadIntent env userId dto now random) := by
  refine Confined.bind (Confined.await trivial) fun fileId => ?_
  split
  · exact Confined.throw
  · exact Confined.pure

theorem markUploaded_plain {fileId : Nat} {checksum : Option String} :
    Confined Plain (markUploaded userId fileId checksum) := by
  refine Confined.bind (Confined.await trivial) fun row => ?_
  rcases row with - | row
  · exact Confined.throw
  · dsimp only
    split
    · exact Confined.throw
    · exact Confined.bind (Confined.await trivial) fun _ => Confined.pure

theorem getFile_plain {user : Reads.AuthUser} {fileId : Nat} : Confined Plain (getFile env user fileId) := by
  refine Confined.bind (Confined.await trivial) fun row => ?_
  rcases row with - | row
  · exact Confined.throw
  · dsimp only
    split
    · exact Confined.throw
    · exact Confined.pure

theorem getMe_plain : Confined Plain (getMe env userId) := by
  refine Confined.bind (Confined.await trivial) fun row => ?_
  rcases row with - | row
  · exact Confined.throw
  · exact Confined.pure

theorem assertAvatarFile_plain {fileId : ℚ} : Confined Plain (assertAvatarFile userId fileId) := by
  refine Confined.bind (Confined.await trivial) fun row => ?_
  rcases row with - | file
  · exact Confined.throw
  · dsimp only
    split
    · exact Confined.throw
    · split
      · exact Confined.throw
      · exact Confined.pure

theorem updateProfile_plain {dto : UpdateProfileDto} : Confined Plain (do
    tryCatch (query (.profile (.updateProfile dto userId))) phoneTaken
    getMe env userId) := by
  refine Confined.bind (Confined.catch (Confined.await trivial) fun e => ?_) fun _ => getMe_plain
  unfold phoneTaken
  split <;> exact Confined.throw

/-- The avatar of a user, and then the other fields. -/
theorem updateAvatar_plain {dto : UpdateProfileDto} : Confined Plain (do
    match dto.avatarFileId with
    | some (some fileId) => assertAvatarFile userId fileId
    | _ => pure ()
    tryCatch (query (.profile (.updateProfile dto userId))) phoneTaken
    getMe env userId) := by
  split
  · exact Confined.bind assertAvatarFile_plain fun _ => updateProfile_plain
  · exact updateProfile_plain

theorem updateMe_plain {dto : UpdateProfileDto} : Confined Plain (updateMe env userId dto) := by
  unfold updateMe
  split
  · exact Confined.throw
  · rcases dto.phone with - | phone
    · exact updateAvatar_plain
    · refine Confined.bind (Confined.bind (Confined.await trivial) fun existing => ?_) fun _ => updateAvatar_plain
      cases existing with
      | false => exact Confined.pure
      | true => exact Confined.throw

theorem deleteAvatar_plain : Confined Plain (deleteAvatar env userId) := by
  refine Confined.bind (Confined.await trivial) fun updated => ?_
  cases updated with
  | false => exact Confined.throw
  | true => exact getMe_plain

theorem adminDeleteProduct_plain : Confined Plain (adminDeleteProduct userId productId) := by
  refine Confined.bind (Confined.await trivial) fun deleted => ?_
  cases deleted with
  | false => exact Confined.throw
  | true => exact Confined.pure

theorem adminDeleteGalleryItem_plain : Confined Plain (adminDeleteGalleryItem userId galleryId) := by
  refine Confined.bind (Confined.await trivial) fun deleted => ?_
  cases deleted with
  | false => exact Confined.throw
  | true => exact Confined.pure

end Others

variable (env) in
/-- Every call keeps to the protocol, and has committed if and only if it returns. -/
theorem code_follows (req : Request) : Follows protocol ends (req.code env).run { req } := by
  cases req with
  | createUploadIntent => exact aside_follows (plain_aside createUploadIntent_plain) rfl
  | markUploaded => exact aside_follows (plain_aside markUploaded_plain) rfl
  | getFile => exact aside_follows (plain_aside getFile_plain) rfl
  | updateMe => exact aside_follows (plain_aside updateMe_plain) rfl
  | deleteAvatar => exact aside_follows (plain_aside deleteAvatar_plain) rfl
  | createProduct => exact createProduct_keeps
  | updateProduct => exact updateProduct_keeps
  | createFault => exact aside_follows ofItems_aside rfl
  | updateFault => exact aside_follows ofItems_aside rfl
  | adminCreateProduct => exact adminCreateProduct_keeps
  | adminUpdateProduct => exact adminUpdateProduct_keeps
  | adminDeleteProduct => exact aside_follows (plain_aside adminDeleteProduct_plain) rfl
  | adminCreateGalleryItem => exact adminCreateGalleryItem_keeps
  | adminUpdateGalleryItem => exact adminUpdateGalleryItem_keeps
  | adminDeleteGalleryItem => exact aside_follows (plain_aside adminDeleteGalleryItem_plain) rfl

end Code

end Kayan.Media.Lists
