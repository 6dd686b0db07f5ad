import Kayan.Media.Drafts

/-!
# Lists of files are replaced at once

A call that creates or updates a product, a catalog product or a gallery item rewrites its lists of
files under the lock of its row, so in every run the lists change only when such a call commits, all of
its lists together, as if the calls ran one after the other in the order of their commits.
-/
namespace Kayan.Media.Lists
open Interleave RowStore Shop Products

section Effects
variable {m : Move} {now : Nat} {b c : Client} {d d' : Db} {x y : Draft} {g : Listing} {l : List Entry}

def imageEntry (r : ProductImage) : Entry := ((r.fileId : ℚ), r.sortOrder)

def assetEntry (r : ProductAsset) : Entry := ((r.fileId : ℚ), r.sortOrder)

def galleryEntry (r : GalleryAsset) : Entry := ((r.fileId : ℚ), r.sortOrder)

/-- A list as the committed rows have it. -/
def listed (d : Db) : Listing → List Entry
  | .images productId => d.images.listed (·.productId) imageEntry productId
  | .assets productId assetType => d.assets.listed (fun r => (r.productId, r.assetType)) assetEntry (productId, assetType)
  | .gallery galleryId => d.galleryAssets.listed (·.galleryItemId) galleryEntry galleryId

/-- The call has the lock of the row. -/
def Locked (c : Client) (d : Db) : Holder → Prop
  | .product productId => d.products.own c productId ≠ none
  | .catalog productId => d.catalog.own c productId ≠ none
  | .gallery galleryId => d.gallery.own c galleryId ≠ none

theorem locked_unique {h : Holder} (hb : Locked b d h) (hc : Locked c d h) : b = c := by
  cases h with
  | product | catalog | gallery => exact Table.holder_unique hb hc

/-- What the open transaction of a call has made of the lists is what its notes say. -/
structure Rewritten (c : Client) (x : Draft) (d : Db) : Prop where
  locked : ∀ h, x.holder = some h → Locked c d h
  owned : ∀ g, (x.lists g).isSome → x.holder = some g.holder
  images : d.images.Rewrites (·.productId) imageEntry c fun i => x.lists (.images i)
  assets : d.assets.Rewrites (fun r => (r.productId, r.assetType)) assetEntry c fun i => x.lists (.assets i.1 i.2)
  gallery : d.galleryAssets.Rewrites (·.galleryItemId) galleryEntry c fun i => x.lists (.gallery i)

/-- A statement of `c` that ends no transaction. -/
structure Within (c : Client) (d d' : Db) : Prop where
  products : d.products.Touches c d'.products
  catalog : d.catalog.Touches c d'.catalog
  gallery : d.gallery.Touches c d'.gallery
  images : d.images.Beside c d'.images
  assets : d.assets.Beside c d'.assets
  galleryAssets : d.galleryAssets.Beside c d'.galleryAssets

theorem Within.refl : Within c d d := ⟨.same, .same, .same, .refl, .refl, .refl⟩

theorem Within.locked {h : Holder} (hw : Within c d d') (hl : Locked c d h) : Locked c d' h := by
  cases h with
  | product => exact hw.products.held hl
  | catalog => exact hw.catalog.held hl
  | gallery => exact hw.gallery.held hl

/-- What a call has written stays while others run. -/
theorem Within.other (hw : Within b d d') (hb : c ≠ b) (h : Rewritten c x d) : Rewritten c x d' where
  locked o ho := by
    have hold := h.locked o ho
    cases o with
    | product => rwa [Locked, hw.products.own_ne hb]
    | catalog => rwa [Locked, hw.catalog.own_ne hb]
    | gallery => rwa [Locked, hw.gallery.own_ne hb]
  owned := h.owned
  images := h.images.congr (hw.images.own c hb) hw.images.committed
  assets := h.assets.congr (hw.assets.own c hb) hw.assets.committed
  gallery := h.gallery.congr (hw.galleryAssets.own c hb) hw.galleryAssets.committed

/-- The lists stay as they are until a transaction ends. -/
theorem Within.listed (hw : Within c d d') : Lists.listed d' = Lists.listed d := by
  funext g
  cases g with
  | images => exact Table.listed_congr hw.images.committed
  | assets => exact Table.listed_congr hw.assets.committed
  | gallery => exact Table.listed_congr hw.galleryAssets.committed

/-- Rows are locked and written, and no list is rewritten. -/
theorem Rewritten.within (h : Rewritten c x d) (hw : Within c d d') (hi : d'.images = d.images)
    (ha : d'.assets = d.assets) (hg : d'.galleryAssets = d.galleryAssets) : Rewritten c x d' where
  locked o ho := hw.locked (h.locked o ho)
  owned := h.owned
  images := hi ▸ h.images
  assets := ha ▸ h.assets
  gallery := hg ▸ h.gallery

/-- A row is locked before its lists are rewritten. -/
theorem Rewritten.lock {o : Holder} (h : Rewritten c x d) (hx : x.blank) (ho : Locked c d o) : Rewritten c (x.lock o) d where
  locked o' ho' := by
    cases ho'
    exact ho
  owned g hg := by
    change (x.lists g).isSome at hg
    rw [hx.2] at hg
    cases hg
  images := h.images
  assets := h.assets
  gallery := h.gallery

theorem lists_put_images {i : Nat} : (fun j => (x.put (.images i) l).lists (.images j)) =
    Function.update (fun j => x.lists (.images j)) i (some l) := by
  funext j
  simp [Draft.put, Function.update_apply]

theorem lists_put_assets {i : Nat} {ty : AssetType} :
    (fun j : Nat × AssetType => (x.put (.assets i ty) l).lists (.assets j.1 j.2)) =
      Function.update (fun j : Nat × AssetType => x.lists (.assets j.1 j.2)) (i, ty) (some l) := by
  funext j
  obtain ⟨p, t⟩ := j
  simp [Draft.put, Function.update_apply]

theorem lists_put_gallery {i : Nat} : (fun j => (x.put (.gallery i) l).lists (.gallery j)) =
    Function.update (fun j => x.lists (.gallery j)) i (some l) := by
  funext j
  simp [Draft.put, Function.update_apply]

theorem Rewritten.owned_put (h : Rewritten c x d) (hg : x.holder = some g.holder) :
    ∀ g', ((x.put g l).lists g').isSome → x.holder = some g'.holder := by
  intro g' hs
  by_cases heq : g' = g
  · rw [heq]
    exact hg
  · refine h.owned g' ?_
    have hkeep : (x.put g l).lists g' = x.lists g' := Function.update_of_ne heq ..
    rwa [hkeep] at hs

/-- The images of a product are rewritten. -/
theorem Rewritten.putImages {i : Nat} {t : Table Client ProductImage} (h : Rewritten c x d)
    (ho : x.holder = some (.product i))
    (ht : t.Rewrites (·.productId) imageEntry c (Function.update (fun j => x.lists (.images j)) i (some l))) :
    Rewritten c (x.put (.images i) l) { d with images := t } where
  locked := h.locked
  owned := h.owned_put ho
  images := by
    rw [lists_put_images]
    exact ht
  assets := by simpa [Draft.put] using h.assets
  gallery := by simpa [Draft.put] using h.gallery

theorem Rewritten.putAssets {i : Nat} {ty : AssetType} {t : Table Client ProductAsset} (h : Rewritten c x d)
    (ho : x.holder = some (.catalog i))
    (ht : t.Rewrites (fun r => (r.productId, r.assetType)) assetEntry c
      (Function.update (fun j : Nat × AssetType => x.lists (.assets j.1 j.2)) (i, ty) (some l))) :
    Rewritten c (x.put (.assets i ty) l) { d with assets := t } where
  locked := h.locked
  owned := h.owned_put ho
  images := by simpa [Draft.put] using h.images
  assets := by
    rw [lists_put_assets]
    exact ht
  gallery := by simpa [Draft.put] using h.gallery

theorem Rewritten.putGallery {i : Nat} {t : Table Client GalleryAsset} (h : Rewritten c x d)
    (ho : x.holder = some (.gallery i))
    (ht : t.Rewrites (·.galleryItemId) galleryEntry c (Function.update (fun j => x.lists (.gallery j)) i (some l))) :
    Rewritten c (x.put (.gallery i) l) { d with galleryAssets := t } where
  locked := h.locked
  owned := h.owned_put ho
  images := by simpa [Draft.put] using h.images
  assets := by simpa [Draft.put] using h.assets
  gallery := by
    rw [lists_put_gallery]
    exact ht

theorem bigint_eq {q : ℚ} {k : Int} (h : bigint q = .ok k) : q = k := by
  unfold bigint at h
  split at h
  · cases h
  · rename_i hden
    split at h
    · cases h
      exact (Rat.den_eq_one_iff q).mp (not_not.mp hden) |>.symm
    · cases h

/-- The rows of one `INSERT` fill a list. -/
theorem insertImages_rewrites {files : Table Client File} {i k : Nat} {rows : List (ℚ × String)}
    {t t' : Table Client ProductImage} {lists : Nat → Option (List Entry)}
    (h : t.Rewrites (·.productId) imageEntry c lists) (hl : lists i = some l)
    (hi : insertImages c files i k rows t = .ok t') :
    t.Beside c t' ∧
      t'.Rewrites (·.productId) imageEntry c (Function.update lists i (some (l ++ (rows.map (·.1)).zipIdx k))) := by
  induction rows generalizing k t lists l with
  | nil =>
    cases hi
    refine ⟨.refl, ?_⟩
    rw [List.map_nil, List.zipIdx_nil, List.append_nil, ← hl, Function.update_eq_self]
    exact h
  | cons row rest ih =>
    obtain ⟨q, objectKey⟩ := row
    simp only [insertImages] at hi
    split at hi
    · cases hi
    · rename_i fileId hq
      split at hi
      · cases hi
      · rename_i n hn
        obtain ⟨hcast, -⟩ := Option.filter_eq_some_iff.mp hn
        have hentry : imageEntry ⟨t.next, i, n, objectKey, k⟩ = (q, k) := by
          have hfile : fileId = (n : Int) := Int.mem_toNat?.mp hcast
          rw [imageEntry, bigint_eq hq, hfile]
          rfl
        have hinsert := h.insert (r := ⟨t.next, i, n, objectKey, k⟩) hl
        obtain ⟨hb, hrest⟩ := ih hinsert (Function.update_self ..) hi
        refine ⟨Table.beside_insert.trans hb, ?_⟩
        rw [Function.update_idem, hentry, List.append_assoc] at hrest
        exact hrest

theorem execProduct_lists {q : ProductStmt} {r : Except PgError q.Reply} (h : Rewritten c x d) (hm : x.may (.product q))
    (he : execProduct now c q d = some (r, d')) : Within c d d' ∧ Rewritten c (x.after (.product q) r) d' := by
  cases q with
  | insertProduct userId dto =>
    simp only [execProduct] at he
    split at he <;> cases he
    · exact ⟨.refl, h⟩
    · rename_i row hrow
      have hw : Within c d { d with products := d.products.insert c row } := { Within.refl with products := .insert }
      refine ⟨hw, (h.within hw rfl rfl rfl).lock hm.1 ?_⟩
      rw [Locked, Table.own_insert, if_pos rfl]
      simp
  | lockOwner productId =>
    simp only [execProduct] at he
    split at he
    · cases he
      exact ⟨.refl, h⟩
    · rename_i p hp
      have hv : d.products.view c productId = some p := (Option.filter_eq_some_iff.mp hp).1
      split at he <;> cases he
      rename_i hfree
      have hw : Within c d { d with products := d.products.lock c productId } :=
        { Within.refl with products := .write hv hfree }
      refine ⟨hw, (h.within hw rfl rfl rfl).lock hm.1 ?_⟩
      rw [Locked, Table.own_lock (Table.lt_of_view hv), if_pos rfl]
      simp
  | updateProduct dto productId =>
    simp only [execProduct] at he
    split at he
    · cases he
      exact ⟨.refl, h⟩
    · rename_i p hv
      split at he
      · cases he
        exact ⟨.refl, h⟩
      · rename_i p' hp'
        split at he <;> cases he
        rename_i hfree
        have hw : Within c d { d with products := d.products.write c productId (some p') } :=
          { Within.refl with products := .write hv hfree }
        exact ⟨hw, h.within hw rfl rfl rfl⟩
  | deleteImages productId =>
    obtain ⟨images, hdelete, heq⟩ := Option.map_eq_some_iff.mp he
    cases heq
    obtain ⟨hholder, hnone⟩ := hm
    exact ⟨{ Within.refl with images := Table.beside_deleteWhere hdelete },
      h.putImages hholder (h.images.clear hnone hdelete)⟩
  | insertImages productId rows =>
    simp only [execProduct] at he
    split at he <;> cases he
    · exact ⟨.refl, h⟩
    · rename_i images hinsert
      obtain ⟨hb, hrows⟩ := insertImages_rewrites h.images hm hinsert
      refine ⟨{ Within.refl with images := hb }, h.putImages (h.owned (.images productId) ?_) hrows⟩
      rw [show x.lists (.images productId) = some [] from hm]
      rfl
  | ownFiles productId fileIds =>
    simp only [execProduct] at he
    split at he
    · cases he
      exact ⟨.refl, h⟩
    · obtain ⟨files, -, heq⟩ := Option.map_eq_some_iff.mp he
      cases heq
      have hw : Within c d { d with files } := { Within.refl with }
      exact ⟨hw, h.within hw rfl rfl rfl⟩
  | selectImageFiles fileIds =>
    simp only [execProduct] at he
    split at he <;>
    · cases he
      exact ⟨.refl, h⟩
  | selectCategory | selectProduct | selectImages =>
    cases he
    exact ⟨.refl, h⟩

theorem execCatalog_lists {q : CatalogStmt} {r : Except PgError q.Reply} (h : Rewritten c x d) (hm : x.may (.catalog q))
    (he : execCatalog now c q d = some (r, d')) : Within c d d' ∧ Rewritten c (x.after (.catalog q) r) d' := by
  cases q with
  | insertProduct adminId dto =>
    simp only [execCatalog] at he
    split at he <;> cases he
    · exact ⟨.refl, h⟩
    · rename_i row hrow
      have hw : Within c d { d with catalog := d.catalog.insert c row } := { Within.refl with catalog := .insert }
      refine ⟨hw, (h.within hw rfl rfl rfl).lock hm.1 ?_⟩
      rw [Locked, Table.own_insert, if_pos rfl]
      simp
  | updateProduct adminId dto productId =>
    simp only [execCatalog] at he
    split at he
    · cases he
      exact ⟨.refl, h⟩
    · rename_i p hp
      have hv : d.catalog.view c productId = some p := (Option.filter_eq_some_iff.mp hp).1
      split at he
      · cases he
        exact ⟨.refl, h⟩
      · rename_i p' hp'
        split at he <;> cases he
        rename_i hfree
        have hw : Within c d { d with catalog := d.catalog.write c productId (some p') } :=
          { Within.refl with catalog := .write hv hfree }
        refine ⟨hw, (h.within hw rfl rfl rfl).lock hm.1 ?_⟩
        rw [Locked, Table.own_write (Table.lt_of_view hv), if_pos rfl]
        simp
  | deleteProduct adminId productId =>
    simp only [execCatalog] at he
    split at he
    · cases he
      exact ⟨.refl, h⟩
    · obtain ⟨z, hz, heq⟩ := Option.map_eq_some_iff.mp he
      cases heq
      have hw : Within c d { d with catalog := z.2 } := by
        refine { Within.refl with catalog := ?_ }
        unfold Items.updateRow at hz
        split at hz
        · cases hz
          exact .same
        · split at hz <;> cases hz
          rename_i hheld
          exact .store hheld
      exact ⟨hw, h.within hw rfl rfl rfl⟩
  | deleteAssets productId assetType =>
    obtain ⟨assets, hdelete, heq⟩ := Option.map_eq_some_iff.mp he
    cases heq
    obtain ⟨hholder, hnone⟩ := hm
    have hgroup : d.assets.deleteWhere c (fun r => (r.productId, r.assetType) = (productId, assetType)) = some assets := by
      rw [← hdelete]
      simp only [Prod.mk.injEq, Bool.decide_and]
    exact ⟨{ Within.refl with assets := Table.beside_deleteWhere hdelete },
      h.putAssets hholder (h.assets.clear (g := (productId, assetType)) hnone hgroup)⟩
  | insertAsset productId fileId assetType sortOrder =>
    simp only [execCatalog] at he
    split at he <;> cases he
    · exact ⟨.refl, h⟩
    · rename_i n hn
      obtain ⟨l, hl⟩ := Option.isSome_iff_exists.mp hm
      refine ⟨{ Within.refl with assets := Table.beside_insert }, ?_⟩
      have hinsert := h.assets.insert (r := ⟨d.assets.next, productId, n, assetType, sortOrder⟩) hl
      have hentry : assetEntry ⟨d.assets.next, productId, n, assetType, sortOrder⟩ = ((fileId : ℚ), sortOrder) := by
        rw [← (linked_ok hn).1]
        rfl
      rw [hentry] at hinsert
      have hput := h.putAssets (h.owned (.assets productId assetType) hm) hinsert
      change Rewritten c (x.put (.assets productId assetType) ((x.lists (.assets productId assetType)).getD [] ++ _)) _
      rw [hl]
      exact hput
  | selectProduct | selectAssets =>
    cases he
    exact ⟨.refl, h⟩

theorem execGallery_lists {q : GalleryStmt} {r : Except PgError q.Reply} (h : Rewritten c x d) (hm : x.may (.gallery q))
    (he : execGallery now c q d = some (r, d')) : Within c d d' ∧ Rewritten c (x.after (.gallery q) r) d' := by
  cases q with
  | insertItem adminId dto =>
    simp only [execGallery] at he
    split at he <;> cases he
    · exact ⟨.refl, h⟩
    · rename_i row hrow
      have hw : Within c d { d with gallery := d.gallery.insert c row } := { Within.refl with gallery := .insert }
      refine ⟨hw, (h.within hw rfl rfl rfl).lock hm.1 ?_⟩
      rw [Locked, Table.own_insert, if_pos rfl]
      simp
  | updateItem adminId dto galleryId =>
    simp only [execGallery] at he
    split at he
    · cases he
      exact ⟨.refl, h⟩
    · rename_i p hp
      have hv : d.gallery.view c galleryId = some p := (Option.filter_eq_some_iff.mp hp).1
      split at he
      · cases he
        exact ⟨.refl, h⟩
      · rename_i p' hp'
        split at he <;> cases he
        rename_i hfree
        have hw : Within c d { d with gallery := d.gallery.write c galleryId (some p') } :=
          { Within.refl with gallery := .write hv hfree }
        refine ⟨hw, (h.within hw rfl rfl rfl).lock hm.1 ?_⟩
        rw [Locked, Table.own_write (Table.lt_of_view hv), if_pos rfl]
        simp
  | deleteItem adminId galleryId =>
    simp only [execGallery] at he
    split at he
    · cases he
      exact ⟨.refl, h⟩
    · obtain ⟨z, hz, heq⟩ := Option.map_eq_some_iff.mp he
      cases heq
      have hw : Within c d { d with gallery := z.2 } := by
        refine { Within.refl with gallery := ?_ }
        unfold Items.updateRow at hz
        split at hz
        · cases hz
          exact .same
        · split at hz <;> cases hz
          rename_i hheld
          exact .store hheld
      exact ⟨hw, h.within hw rfl rfl rfl⟩
  | deleteAssets galleryId =>
    obtain ⟨galleryAssets, hdelete, heq⟩ := Option.map_eq_some_iff.mp he
    cases heq
    obtain ⟨hholder, hnone⟩ := hm
    exact ⟨{ Within.refl with galleryAssets := Table.beside_deleteWhere hdelete },
      h.putGallery hholder (h.gallery.clear hnone hdelete)⟩
  | insertAsset galleryId fileId sortOrder =>
    simp only [execGallery] at he
    split at he <;> cases he
    · exact ⟨.refl, h⟩
    · rename_i n hn
      obtain ⟨l, hl⟩ := Option.isSome_iff_exists.mp hm
      refine ⟨{ Within.refl with galleryAssets := Table.beside_insert }, ?_⟩
      have hinsert := h.gallery.insert (r := ⟨d.galleryAssets.next, galleryId, n, sortOrder⟩) hl
      have hentry : galleryEntry ⟨d.galleryAssets.next, galleryId, n, sortOrder⟩ = ((fileId : ℚ), sortOrder) := by
        rw [← (linked_ok hn).1]
        rfl
      rw [hentry] at hinsert
      have hput := h.putGallery (h.owned (.gallery galleryId) hm) hinsert
      change Rewritten c (x.put (.gallery galleryId) ((x.lists (.gallery galleryId)).getD [] ++ _)) _
      rw [hl]
      exact hput
  | selectItem | selectAssets =>
    cases he
    exact ⟨.refl, h⟩

theorem Rewritten.rest {req : Request} {done : Option Holder} (hi : ∀ i, d.images.own c i = none)
    (ha : ∀ i, d.assets.own c i = none) (hg : ∀ i, d.galleryAssets.own c i = none) : Rewritten c { req, done } d where
  locked _ h := by cases h
  owned _ h := by cases h
  images := Table.Rewrites.start hi
  assets := Table.Rewrites.start ha
  gallery := Table.Rewrites.start hg

/-- What may come of a statement. -/
inductive Outcome (c : Client) (x : Draft) (d : Db) : (q : Stmt) → Answer q → Db → Prop
  | fail {q : Stmt} {e : PgError} (hq : q ≠ .items (.shop .rollback)) : Outcome c x d q (.error e) d
  | commit : Outcome c x d (.items (.shop .commit)) (.ok ()) (d.commit c)
  | rollback : Outcome c x d (.items (.shop .rollback)) (.ok ()) (d.rollback c)
  | within {q : Stmt} {r : Answer q} {d' : Db} (hq : q ≠ .items (.shop .commit)) (hw : Within c d d')
      (hr : Rewritten c (x.after q r) d') : Outcome c x d q r d'

theorem act_outcome {q : Stmt} {r : Answer q} (h : Rewritten c x d) (hm : x.may q) (ha : act m c q d = some (r, d')) :
    Outcome c x d q r d' := by
  cases m with
  | fail e =>
    by_cases hq : q = .items (.shop .rollback)
    · subst hq
      cases ha
    · have he : r = .error e ∧ d' = d := by
        unfold act at ha
        split at ha
        · rename_i heq
          cases heq
        · rename_i heq
          cases heq
          split at ha
          · exact absurd rfl hq
          · cases ha
            exact ⟨rfl, rfl⟩
      obtain ⟨rfl, rfl⟩ := he
      exact .fail hq
  | run now =>
    cases q with
    | items q =>
      obtain ⟨z, hz, heq⟩ := Option.map_eq_some_iff.mp ha
      by_cases hc : q = .shop .commit
      · subst hc
        cases hz
        cases heq
        exact .commit
      by_cases hr : q = .shop .rollback
      · subst hr
        cases hz
        cases heq
        exact .rollback
      cases heq
      have hplain : Plain (.items q) := by
        cases q with
        | shop q =>
          cases q with
          | commit => exact absurd rfl hc
          | rollback => exact absurd rfl hr
          | _ => trivial
        | _ => trivial
      have hafter : x.after (.items q) z.1 = x := (plain_step (x := x) hplain z.1).2.symm
      have hd : afterItems c z.2 d q = d.withItems z.2 := by
        rcases afterItems_cases c z.2 d q with ⟨rfl, -⟩ | ⟨rfl, -⟩ | he
        · exact absurd rfl hc
        · exact absurd rfl hr
        · exact he
      have hw : Within c d (d.withItems z.2) := ⟨.same, .same, .same, .refl, .refl, .refl⟩
      rw [hd]
      refine .within (fun he => hc ?_) hw ?_
      · cases he
        rfl
      · rw [hafter]
        exact h.within hw rfl rfl rfl
    | file q =>
      obtain ⟨z, -, heq⟩ := Option.map_eq_some_iff.mp ha
      cases heq
      have hw : Within c d { d with files := z.2 } := { Within.refl with }
      exact .within (fun he => by cases he) hw (h.within hw rfl rfl rfl)
    | profile q =>
      obtain ⟨z, -, heq⟩ := Option.map_eq_some_iff.mp ha
      cases heq
      have hw : Within c d { d with users := z.2 } := { Within.refl with }
      exact .within (fun he => by cases he) hw (h.within hw rfl rfl rfl)
    | product q =>
      obtain ⟨hw, hr⟩ := execProduct_lists h hm ha
      exact .within (fun he => by cases he) hw hr
    | catalog q =>
      obtain ⟨hw, hr⟩ := execCatalog_lists h hm ha
      exact .within (fun he => by cases he) hw hr
    | gallery q =>
      obtain ⟨hw, hr⟩ := execGallery_lists h hm ha
      exact .within (fun he => by cases he) hw hr

theorem after_error {q : Stmt} {e : PgError} (hq : q ≠ .items (.shop .rollback)) : x.after q (.error e) = x := by
  cases q with
  | items q =>
    cases q with
    | shop q =>
      cases q with
      | rollback => exact absurd rfl hq
      | _ => rfl
    | _ => rfl
  | file q | profile q => rfl
  | product q | catalog q | gallery q => cases q <;> rfl

/-- One statement of the call, and what it has made of the lists then. -/
theorem Rewritten.own {q : Stmt} {r : Answer q} (h : Rewritten c x d) (hm : x.may q) (ha : act m c q d = some (r, d')) :
    Rewritten c (x.after q r) d' := by
  cases act_outcome h hm ha with
  | fail hq =>
    rw [after_error hq]
    exact h
  | commit =>
    exact Rewritten.rest (fun _ => Table.own_commit_self) (fun _ => Table.own_commit_self) fun _ => Table.own_commit_self
  | rollback =>
    exact Rewritten.rest (fun _ => Table.own_rollback_self) (fun _ => Table.own_rollback_self)
      fun _ => Table.own_rollback_self
  | within hq hw hr => exact hr

/-- Two open transactions rewrite no list in common. -/
theorem Rewritten.apart (h : Rewritten c x d) (h' : Rewritten b y d) (hb : c ≠ b) (hg : (x.lists g).isSome) :
    y.lists g = none := by
  by_contra hne
  have hx := h.locked _ (h.owned g hg)
  have hy := h'.locked _ (h'.owned g (Option.isSome_iff_ne_none.mpr hne))
  exact hb (locked_unique hx hy)

/-- One statement of another call. -/
theorem Rewritten.other {q : Stmt} {r : Answer q} (h : Rewritten c x d) (h' : Rewritten b y d) (hb : c ≠ b)
    (hm : y.may q) (ha : act m b q d = some (r, d')) : Rewritten c x d' := by
  cases act_outcome h' hm ha with
  | fail hq => exact h
  | within hq hw hr => exact hw.other hb h
  | commit =>
    refine ⟨fun o ho => ?_, h.owned, ?_, ?_, ?_⟩
    · have hold := h.locked o ho
      cases o with
      | product | catalog | gallery =>
        change Table.own c (Table.commit b _) _ ≠ none
        rw [Table.own_commit_ne hb]
        exact hold
    · exact h.images.commit_ne hb h'.images fun i => h.apart h' hb
    · exact h.assets.commit_ne hb h'.assets fun i => h.apart h' hb
    · exact h.gallery.commit_ne hb h'.gallery fun i => h.apart h' hb
  | rollback =>
    refine ⟨fun o ho => ?_, h.owned, ?_, ?_, ?_⟩
    · have hold := h.locked o ho
      cases o with
      | product | catalog | gallery =>
        change Table.own c (Table.rollback b _) _ ≠ none
        rw [Table.own_rollback_ne hb]
        exact hold
    · exact h.images.congr (fun _ => Table.own_rollback_ne hb) fun _ => Table.committed_rollback
    · exact h.assets.congr (fun _ => Table.own_rollback_ne hb) fun _ => Table.committed_rollback
    · exact h.gallery.congr (fun _ => Table.own_rollback_ne hb) fun _ => Table.committed_rollback

/-- A commit replaces the lists that its call has rewritten. -/
theorem Rewritten.commit (h : Rewritten c x d) (g : Listing) : listed (d.commit c) g = (x.lists g).getD (listed d g) := by
  cases g with
  | images i => exact h.images.commit i
  | assets i ty => exact h.assets.commit (i, ty)
  | gallery i => exact h.gallery.commit i

theorem listed_rollback : listed (d.rollback c) = listed d := by
  funext g
  cases g with
  | images | assets | gallery => exact Table.listed_congr fun _ => Table.committed_rollback

end Effects

section Runs
variable {env : Env} {req : Client → Request} {c : Client} {d : Db} {s t u v : State} {e : Taken} {x : Draft}
  {notes : Client → Draft} {xs ys : List Taken} {cs : List (Client × Holder)} {o : Holder}

/-- The statement is a commit, and it succeeds. -/
def commits : (q : Stmt) → Answer q → Bool
  | .items (.shop .commit), .ok _ => true
  | _, _ => false

/-- The row that a statement has created. -/
def created : (q : Stmt) → Answer q → Option Holder
  | .product (.insertProduct _ _), .ok productId => some (.product productId)
  | .catalog (.insertProduct _ _), .ok productId => some (.catalog productId)
  | .gallery (.insertItem _ _), .ok galleryId => some (.gallery galleryId)
  | _, _ => none

/-- The row whose lists a call replaces: the one that it names, or else the one that it has created. -/
def Targets (req : Client → Request) (ys : List Taken) (c : Client) (o : Holder) : Prop :=
  target (req c) = some o ∨ target (req c) = none ∧ ∃ e ∈ ys, e.client = c ∧ created e.stmt e.reply = some o

/-- The lists when a call has replaced those of its row. -/
def replaced (req : Request) (o : Holder) (lists : Listing → List Entry) : Listing → List Entry :=
  fun g => (wanted req o g).getD (lists g)

/-- The lists when some calls have replaced theirs one after the other. -/
def replacedInTurn (req : Client → Request) (cs : List (Client × Holder)) (lists : Listing → List Entry) :
    Listing → List Entry :=
  cs.foldl (fun lists x => replaced (req x.1) x.2 lists) lists

/-- The calls that have replaced their lists in a run, in the order of their commits. -/
def replacers (req : Client → Request) (ys : List Taken) : List Client :=
  (ys.filter fun e => commits e.stmt e.reply && replaces (req e.client)).map (·.client)

theorem Targets.append (h : Targets req ys c o) : Targets req (ys ++ [e]) c o := by
  refine h.imp_right ?_
  rintro ⟨hnone, e', he, hc⟩
  exact ⟨hnone, e', List.mem_append_left _ he, hc⟩

theorem replacedInTurn_append {l : Listing → List Entry} :
    replacedInTurn req (cs ++ [(c, o)]) l = replaced (req c) o (replacedInTurn req cs l) := by
  unfold replacedInTurn
  rw [List.foldl_append]
  rfl

theorem after_req (q : Stmt) (r : Answer q) : (x.after q r).req = x.req := by
  unfold Draft.after
  split <;>
  · try split
    all_goals rfl

theorem after_done {q : Stmt} {r : Answer q} (h : commits q r = false) : (x.after q r).done = x.done := by
  unfold Draft.after
  split
  · cases h
  all_goals
    try split
    all_goals rfl

/-- A call locks the row that it names, or the one that it creates. -/
theorem after_holder {q : Stmt} {r : Answer q} (hm : x.may q) (h : (x.after q r).holder = some o) :
    x.holder = some o ∨ target x.req = some o ∨ target x.req = none ∧ created q r = some o := by
  unfold Draft.after at h
  split at h
  · cases h
  · cases h
  · exact Or.inr (Or.inr ⟨hm.2, h⟩)
  · split at h
    · cases h
      exact Or.inr (Or.inl hm.2)
    · exact Or.inl h
  · exact Or.inl h
  · exact Or.inl h
  · exact Or.inr (Or.inr ⟨hm.2, h⟩)
  · split at h
    · cases h
      exact Or.inr (Or.inl hm.2)
    · exact Or.inl h
  · exact Or.inl h
  · exact Or.inl h
  · exact Or.inr (Or.inr ⟨hm.2, h⟩)
  · split at h
    · cases h
      exact Or.inr (Or.inl hm.2)
    · exact Or.inl h
  all_goals exact Or.inl h

/-- What is noted of the calls at the end of a run, and the commits that have replaced lists in it. -/
structure Noting (req : Client → Request) (d : Db) (ys : List Taken) (u : State) (x : Client → Draft)
    (cs : List (Client × Holder)) : Prop where
  follows : InPhase protocol ends x u
  same : ∀ c, (x c).req = req c
  rewritten : ∀ c, Rewritten c (x c) u.db
  target : ∀ c o, (x c).holder = some o ∨ (x c).done = some o → Targets req ys c o
  done : ∀ c o, (c, o) ∈ cs ↔ (x c).done = some o
  order : cs.map Prod.fst = replacers req ys
  once : (cs.map Prod.fst).Nodup
  lists : listed u.db = replacedInTurn req cs (listed d)

/-- A statement that is no commit changes no list. -/
theorem act_listed {m : Move} {q : Stmt} {r : Answer q} {d' : Db} (h : Rewritten c x d) (hm : x.may q)
    (ha : act m c q d = some (r, d')) :
    q = .items (.shop .commit) ∧ commits q r = true ∧ d' = d.commit c ∨ commits q r = false ∧ listed d' = listed d := by
  cases act_outcome h hm ha with
  | fail hq =>
    refine Or.inr ⟨?_, rfl⟩
    unfold commits
    split
    · rename_i hr
      cases hr
    · rfl
  | commit => exact Or.inl ⟨rfl, rfl, rfl⟩
  | rollback => exact Or.inr ⟨rfl, listed_rollback⟩
  | within hq hw hr =>
    refine Or.inr ⟨?_, hw.listed⟩
    unfold commits
    split
    · exact absurd rfl hq
    · rfl

theorem replacers_append : replacers req (ys ++ [e]) = replacers req ys ++
    if commits e.stmt e.reply && replaces (req e.client) then [e.client] else [] := by
  unfold replacers
  rw [List.filter_append, List.map_append]
  congr 1
  by_cases h : commits e.stmt e.reply && replaces (req e.client) <;> simp [h]

/-- A commit replaces all the lists that its call asks for, and no others. -/
theorem commit_listed (h : Rewritten c x d) (hx : x.settled) (ho : x.holder = some o) :
    listed (d.commit c) = replaced x.req o (listed d) := by
  funext g
  rw [h.commit g, hx.2, ho]
  rfl

theorem commit_listed_none (h : Rewritten c x d) (hx : x.settled) (ho : x.holder = none) :
    listed (d.commit c) = listed d := by
  funext g
  rw [h.commit g, hx.2, ho]
  rfl

theorem done_or {q : Stmt} {r : Answer q} (h : (x.after q r).done = some o) : x.holder = some o ∨ x.done = some o := by
  rcases hc : commits q r with - | -
  · exact Or.inr ((after_done hc).symm.trans h)
  · unfold commits at hc
    split at hc
    · exact Option.or_eq_some_iff.mp h |>.imp id And.right
    · cases hc

/-- The notes after a step, and the rows that they name. -/
theorem Noting.targets (h : Noting req d ys u notes cs) (hm : (notes e.client).may e.stmt)
    (ho : (noted Draft.after notes e c).holder = some o ∨ (noted Draft.after notes e c).done = some o) :
    Targets req (ys ++ [e]) c o := by
  rcases noted_or Draft.after notes e c with ⟨rfl, hn⟩ | ⟨-, hn⟩
  · rw [hn] at ho
    have hold : (notes e.client).holder = some o ∨ (notes e.client).done = some o → Targets req (ys ++ [e]) e.client o :=
      fun ho => (h.target _ o ho).append
    rcases ho with ho | ho
    · rcases after_holder hm ho with ho | ho | ⟨hnone, ho⟩
      · exact hold (Or.inl ho)
      · exact Or.inl (h.same _ ▸ ho)
      · exact Or.inr ⟨h.same _ ▸ hnone, e, by simp, rfl, ho⟩
    · exact hold (done_or ho)
  · rw [hn] at ho
    exact (h.target c o ho).append

/-- A step: the calls that have replaced lists are the old ones, and the one that now commits. -/
theorem Noting.step (h : Noting req d ys u notes cs) (hs : Step act u e v) :
    ∃ cs', Noting req d (ys ++ [e]) v (noted Draft.after notes e) cs' := by
  obtain ⟨hm, hfollows⟩ := h.follows.noted hs
  have hsame : ∀ c, (noted Draft.after notes e c).req = req c := by
    intro c
    rcases noted_or Draft.after notes e c with ⟨rfl, hn⟩ | ⟨-, hn⟩
    · rw [hn, after_req, h.same]
    · rw [hn, h.same]
  have hrewritten : ∀ c, Rewritten c (noted Draft.after notes e c) v.db := by
    intro c
    rcases noted_or Draft.after notes e c with ⟨rfl, hn⟩ | ⟨hc, hn⟩
    · rw [hn]
      exact (h.rewritten e.client).own hm hs.acted
    · rw [hn]
      exact (h.rewritten c).other (h.rewritten e.client) hc hm hs.acted
  -- where no list is replaced, the calls that have replaced theirs are the same
  have hold : (commits e.stmt e.reply && replaces (req e.client)) = false → listed v.db = listed u.db →
      (noted Draft.after notes e e.client).done = (notes e.client).done →
      ∃ cs', Noting req d (ys ++ [e]) v (noted Draft.after notes e) cs' := by
    intro hc hl hd
    refine ⟨cs, hfollows, hsame, hrewritten, fun c o => h.targets hm, fun c o => ?_, ?_, h.once, hl.trans h.lists⟩
    · rw [h.done]
      rcases noted_or Draft.after notes e c with ⟨rfl, -⟩ | ⟨-, hn⟩
      · rw [hd]
      · rw [hn]
    · rw [replacers_append, hc, h.order]
      simp
  rcases act_listed (h.rewritten e.client) hm hs.acted with ⟨hq, hc, hdb⟩ | ⟨hc, hl⟩
  · have hmay := hm
    rw [hq] at hmay
    obtain ⟨hdone, hsettled⟩ := hmay
    have hafter : (noted Draft.after notes e e.client).done = (notes e.client).holder := by
      rw [noted_self]
      obtain ⟨c, m, q, r⟩ := e
      obtain rfl : q = .items (.shop .commit) := hq
      cases r with
      | error => cases hc
      | ok => exact (congrArg ((notes c).holder.or) hdone).trans Option.or_none
    have hreplaces : (notes e.client).holder.isSome = replaces (req e.client) := h.same e.client ▸ hsettled.1
    rcases ho : (notes e.client).holder with - | o
    · refine hold ?_ ?_ ?_
      · rw [← hreplaces, ho, hc]
        rfl
      · rw [hdb, commit_listed_none (h.rewritten e.client) hsettled ho]
      · rw [hafter, ho, hdone]
    · have hnew : ∀ o', (e.client, o') ∉ cs := by
        intro o' ho'
        have hsome := (h.done e.client o').mp ho'
        rw [hdone] at hsome
        cases hsome
      refine ⟨cs ++ [(e.client, o)], hfollows, hsame, hrewritten, fun c o => h.targets hm, fun c o' => ?_, ?_, ?_, ?_⟩
      · rw [List.mem_append, List.mem_singleton, h.done]
        rcases noted_or Draft.after notes e c with ⟨rfl, -⟩ | ⟨hne, hn⟩
        · rw [hafter, ho, hdone]
          simp [eq_comm]
        · rw [hn]
          simp [hne]
      · rw [replacers_append, ← hreplaces, hc, ho, List.map_append, h.order]
        rfl
      · rw [List.map_append]
        refine h.once.append (List.nodup_singleton _) ?_
        intro c hc hmem
        obtain ⟨⟨c', o'⟩, hx, rfl⟩ := List.mem_map.mp hc
        obtain rfl := List.mem_singleton.mp hmem
        exact hnew o' hx
      · rw [hdb, commit_listed (h.rewritten e.client) hsettled ho, h.same, h.lists, replacedInTurn_append]
  · refine hold ?_ hl ?_
    · rw [hc]
      rfl
    · rw [noted_self, after_done hc]

theorem noting_initial (hi : d.images.Unlocked) (ha : d.assets.Unlocked) (hg : d.galleryAssets.Unlocked) :
    Noting req d [] (initial env req d) (fun c => { req := req c }) [] where
  follows c := code_follows env (req c)
  same _ := rfl
  rewritten c := Rewritten.rest (fun _ => hi.own) (fun _ => ha.own) fun _ => hg.own
  target c o h := by rcases h with h | h <;> cases h
  done c o := by simp
  order := rfl
  once := List.nodup_nil
  lists := rfl

/-- The lists of files at the end of a run. -/
structure InTurn (req : Client → Request) (d : Db) (xs : List Taken) (t : State) (cs : List (Client × Holder)) : Prop where
  /-- The calls in the order of their commits. -/
  order : cs.map Prod.fst = replacers req xs
  once : (cs.map Prod.fst).Nodup
  target : ∀ c o, (c, o) ∈ cs → Targets req xs c o
  lists : listed t.db = replacedInTurn req cs (listed d)
  /-- A call that has ended is among them if it replaces lists and has not thrown. -/
  ended : ∀ c r, t.prog c = .ret r → (c ∈ cs.map Prod.fst ↔ replaces (req c) = true ∧ r.isOk = true)

/-- Lists of files are replaced at once: in every run the images of the products, the assets of the
catalog products and those of the gallery items are what the committed calls would have left of them one
after the other in the order of their commits, each call with all the lists that its body has for its row;
and a call that throws has replaced none. -/
theorem lists_replaced_at_once (hi : d.images.Unlocked) (ha : d.assets.Unlocked) (hg : d.galleryAssets.Unlocked)
    (h : Trace.Run (Step act) (initial env req d) xs t) : ∃ cs, InTurn req d xs t cs := by
  have hnoting : ∃ notes cs, Noting req d xs t notes cs := by
    refine h.history (I := fun ys u => ∃ notes cs, Noting req d ys u notes cs) ⟨_, _, noting_initial hi ha hg⟩ ?_
    rintro ys u e v - ⟨notes, cs, hn⟩ hs
    exact ⟨_, hn.step hs⟩
  obtain ⟨notes, cs, hn⟩ := hnoting
  refine ⟨cs, hn.order, hn.once, fun c o hc => ?_, hn.lists, fun c r hc => ?_⟩
  · exact hn.target c o (Or.inr ((hn.done c o).mp hc))
  · have hends : (notes c).done.isSome = (replaces (notes c).req && r.isOk) := hn.follows.result hc
    rw [hn.same] at hends
    rw [← Bool.and_eq_true, ← hends, Option.isSome_iff_exists, List.mem_map]
    constructor
    · rintro ⟨⟨c', o⟩, hx, rfl⟩
      exact ⟨o, (hn.done _ o).mp hx⟩
    · rintro ⟨o, ho⟩
      exact ⟨(c, o), (hn.done c o).mpr ho, rfl⟩

def photo (id : Nat) : File :=
  { id, uploaderUserId := some 1, ownerType := .user, ownerId := none, purpose := .productImage,
    storageProvider := "local", bucket := some "uploads", objectKey := "user/temp/photo", originalFilename := none,
    mimeType := some "image/jpeg", fileSizeBytes := none, status := .uploaded, createdAt := 0, updatedAt := 0 }

/-- Two photos of one user. -/
def photos : Db := .ofFiles [photo 1, photo 2] []

/-- The user sells a radio, and then shows its photos the other way round. -/
def selling : Client → Request
  | 0 => .createProduct 1 { category := "electronics", name := "Radio", description := "Works", price := 10,
                            city := "Giza", addressText := "Nile Street", imageFileIds := some [1, 2] }
  | _ => .updateProduct 1 1 { imageFileIds := some [2, 1] }

theorem lists_replaced_at_once_selling : ∃ xs t cs, Trace.Run (Step act) (initial plainEnv selling photos) xs t ∧
    listed t.db (.images 1) = [(2, 0), (1, 1)] ∧ InTurn selling photos xs t cs := by
  have hplay : (play act (fun _ _ _ _ => true)
      ((List.replicate 8 0 ++ [1, 0] ++ List.replicate 10 1).map fun c => (c, Move.run 5))
        (initial plainEnv selling photos)).map (fun t => listed t.db (.images 1)) = some [(2, 0), (1, 1)] := by
    decide +kernel
  obtain ⟨xs, t, hrun, ht⟩ := play_run hplay
  have hsteps := hrun.mono fun _ _ _ h => h.1
  obtain ⟨cs, hturn⟩ := lists_replaced_at_once Table.numbered_unlocked Table.numbered_unlocked
    Table.numbered_unlocked hsteps
  exact ⟨xs, t, cs, hsteps, ht, hturn⟩

end Runs

end Kayan.Media.Lists
