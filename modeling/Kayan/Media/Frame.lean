import Kayan.Items.Images
import Kayan.Media.Service

/-!
# What a statement does to files and links

Files are inserted, become uploaded and change their owner; nothing else of them is ever written, so what
they are valid for only grows. Each link table is written by few statements.
-/
namespace Kayan.Media
open RowStore Interleave Shop

section Files

/-- The columns that decide what a file may be attached to. -/
def File.core (f : File) : Option Nat × Items.FilePurpose × Option String × Items.FileStatus :=
  (f.uploaderUserId, f.purpose, f.mimeType, f.status)

/-- `g` is a later version of the file `f`: it may have become uploaded. -/
structure File.Later (f g : File) : Prop where
  uploader : g.uploaderUserId = f.uploaderUserId
  purpose : g.purpose = f.purpose
  mimeType : g.mimeType = f.mimeType
  status : f.status = .uploaded → g.status = .uploaded

variable {f g k : File} {c : Client} {t t' t'' : Table Client File} {i : Nat}

theorem File.Later.refl : f.Later f := ⟨rfl, rfl, rfl, fun h => h⟩

theorem File.Later.trans (h : f.Later g) (h' : g.Later k) : f.Later k :=
  ⟨h'.uploader.trans h.uploader, h'.purpose.trans h.purpose, h'.mimeType.trans h.mimeType,
    fun hf => h'.status (h.status hf)⟩

theorem File.Later.of_core (h : g.core = f.core) : f.Later g := by
  simp only [File.core, Prod.mk.injEq] at h
  obtain ⟨hu, hp, hm, hs⟩ := h
  exact ⟨hu, hp, hm, fun hf => hs.trans hf⟩

theorem File.later_uploaded {now : Nat} {checksum : Option String} : f.Later (f.uploaded now checksum) :=
  ⟨rfl, rfl, rfl, fun _ => rfl⟩

theorem File.core_owned {now productId : Nat} : (f.owned now productId).core = f.core := rfl

/-- What the statements of client `c` do to the files. -/
inductive FilesStep (c : Client) : Table Client File → Table Client File → Prop
  | same {t : Table Client File} : FilesStep c t t
  | append {t : Table Client File} {f : File} : FilesStep c t (t.append f)
  | upload {t : Table Client File} {i : Nat} {f g : File} (hf : t.committed i = some f)
      (hh : (t.cell i).held = none) (hg : f.Later g) : FilesStep c t (t.store i (some g))
  | write {t : Table Client File} {i : Nat} {f g : File} (hv : t.view c i = some f) (hf : t.free c i = true)
      (hg : g.core = f.core) : FilesStep c t (t.write c i (some g))
  | commit {t : Table Client File} : FilesStep c t (t.commit c)
  | rollback {t : Table Client File} : FilesStep c t (t.rollback c)
  | trans {t t' t'' : Table Client File} (h : FilesStep c t t') (h' : FilesStep c t' t'') : FilesStep c t t''

/-- Open transactions have not changed what decides on attachments. -/
def Steady (t : Table Client File) : Prop :=
  ∀ c i v w, t.own c i = some (v, w) → ∃ f g, v = some f ∧ w = some g ∧ g.core = f.core

/-- Every committed file stays, in a later version. -/
def Grows (t t' : Table Client File) : Prop :=
  ∀ i f, t.committed i = some f → ∃ g, t'.committed i = some g ∧ f.Later g

theorem Grows.refl : Grows t t := fun _ f hf => ⟨f, hf, .refl⟩

theorem Grows.trans (h : Grows t t') (h' : Grows t' t'') : Grows t t'' := by
  intro i f hf
  obtain ⟨g, hg, hfg⟩ := h i f hf
  obtain ⟨k, hk, hgk⟩ := h' i g hg
  exact ⟨k, hk, hfg.trans hgk⟩

/-- A file that a client sees is committed, with the same deciding columns. -/
theorem Steady.view (h : Steady t) (hv : t.view c i = some f) : ∃ g, t.committed i = some g ∧ f.core = g.core := by
  rcases ho : t.own c i with _ | ⟨v, w⟩
  · rw [Table.view_of_not_own ho] at hv
    exact ⟨f, hv, rfl⟩
  · obtain ⟨g, k, rfl, rfl, hcore⟩ := h c i v w ho
    rw [Table.view_of_own ho] at hv
    cases hv
    exact ⟨g, Table.own_committed ho, hcore⟩

theorem FilesStep.steady (h : FilesStep c t t') (ht : Steady t) : Steady t' := by
  induction h with
  | same => exact ht
  | append =>
    intro b i v w ho
    rw [Table.own_append] at ho
    exact ht b i v w ho
  | upload hf hh hg =>
    intro b i v w ho
    rw [Table.own_store hh] at ho
    exact ht b i v w ho
  | @write t i f g hv hf hg =>
    intro b j v w ho
    by_cases hb : b = c
    · subst hb
      rw [Table.own_write (Table.lt_of_view hv)] at ho
      split at ho
      · cases ho
        obtain ⟨k, hk, hcore⟩ := ht.view hv
        exact ⟨k, g, hk, rfl, hg.trans hcore⟩
      · exact ht b j v w ho
    · rw [Table.own_write_ne hb hf] at ho
      exact ht b j v w ho
  | commit =>
    intro b i v w ho
    by_cases hb : b = c
    · subst hb
      rw [Table.own_commit_self] at ho
      cases ho
    · rw [Table.own_commit_ne hb] at ho
      exact ht b i v w ho
  | rollback =>
    intro b i v w ho
    by_cases hb : b = c
    · subst hb
      rw [Table.own_rollback_self] at ho
      cases ho
    · rw [Table.own_rollback_ne hb] at ho
      exact ht b i v w ho
  | trans _ _ ih ih' => exact ih' (ih ht)

theorem FilesStep.grows (h : FilesStep c t t') (ht : Steady t) : Grows t t' := by
  induction h with
  | same => exact .refl
  | append =>
    intro i f hf
    refine ⟨f, ?_, .refl⟩
    rw [Table.committed_append, if_neg (Nat.ne_of_lt (Table.lt_of_committed hf))]
    exact hf
  | @upload t i f g hf hh hg =>
    intro j k hk
    by_cases hj : j = i
    · subst hj
      rw [hf] at hk
      cases hk
      exact ⟨g, by rw [Table.committed_store (Table.lt_of_committed hf), if_pos rfl], hg⟩
    · exact ⟨k, by rw [Table.committed_store (Table.lt_of_committed hf), if_neg hj, hk], .refl⟩
  | write hv hf hg => exact fun i f hf => ⟨f, Table.committed_write.trans hf, .refl⟩
  | @commit t =>
    intro i f hf
    rcases ho : t.own c i with _ | ⟨v, w⟩
    · exact ⟨f, by rw [Table.committed_commit, ho]; exact hf, .refl⟩
    · obtain ⟨k, g, rfl, rfl, hcore⟩ := ht c i v w ho
      rw [Table.own_committed ho] at hf
      cases hf
      exact ⟨g, by rw [Table.committed_commit, ho]; rfl, .of_core hcore⟩
  | rollback => exact fun i f hf => ⟨f, Table.committed_rollback.trans hf, .refl⟩
  | trans h _ ih ih' => exact (ih ht).trans (ih' (h.steady ht))

theorem updateRow_step {now : Nat} {checksum : Option String} {x : Bool × Table Client File}
    (h : Items.updateRow i (File.uploaded now checksum) t = some x) : FilesStep c t x.2 := by
  unfold Items.updateRow at h
  split at h
  · cases h
    exact .same
  · rename_i row hrow
    split at h
    · rename_i hh
      cases h
      exact .upload hrow hh File.later_uploaded
    · cases h

/-- The files that `ownFiles` writes, one after the other. -/
theorem owned_step {now productId : Nat} {keys : List Nat} (hkeys : ∀ i ∈ keys, t.free c i = true)
    (hseen : ∀ i ∈ keys, (t.view c i).isSome = true) :
    FilesStep c t (keys.foldl (fun t i => t.write c i ((t.view c i).map (File.owned now productId))) t) := by
  induction keys generalizing t with
  | nil => exact .same
  | cons i keys ih =>
    obtain ⟨f, hf⟩ := Option.isSome_iff_exists.mp (hseen i List.mem_cons_self)
    have hlt := Table.lt_of_view hf
    rw [List.foldl_cons, hf, Option.map_some]
    refine .trans (.write hf (hkeys i List.mem_cons_self) (@File.core_owned f now productId)) (ih ?_ ?_)
    · intro j hj
      by_cases hji : j = i
      · subst hji
        refine Table.free_of_own ?_
        rw [Table.own_write hlt, if_pos rfl]
        exact Option.some_ne_none _
      · have hfree := hkeys j (List.mem_cons_of_mem _ hj)
        simpa [Table.free, Table.write, Table.set, hji] using hfree
    · intro j hj
      rw [Table.view_write hlt]
      split
      · rfl
      · exact hseen j (List.mem_cons_of_mem _ hj)

theorem ownFiles_step {now productId : Nat} {ids : List Int} (h : ownFiles now c productId ids t = some t') :
    FilesStep c t t' := by
  unfold ownFiles at h
  simp only at h
  split at h
  · rename_i hall
    cases h
    refine owned_step (List.all_eq_true.mp hall) fun i hi => ?_
    obtain ⟨f, hf, -⟩ := Table.view_of_keysWhere hi
    rw [hf]
    rfl
  · cases h

end Files

section Statements
variable {m : Move} {now : Nat} {c : Client} {d d' : Db}

theorem act_fail {e : PgError} {q : Stmt} {r : Answer q} (h : act (.fail e) c q d = some (r, d')) : d' = d := by
  unfold act at h
  simp only at h
  split at h
  · cases h
  · cases h
    rfl

theorem execFile_step {q : FileStmt} {r : Except PgError q.Reply} {files : Table Client File}
    (h : execFile now q d.files = some (r, files)) : FilesStep c d.files files := by
  cases q with
  | insertFile userId dto storageProvider bucket objectKey =>
    have hfiles : files = (insertFile now userId dto storageProvider bucket objectKey d.files).2 :=
      (congrArg Prod.snd (Option.some.inj h)).symm
    subst hfiles
    unfold insertFile
    split
    · exact .same
    · exact .same
    · split
      · exact .same
      · exact .append
  | selectUpload | selectFile =>
    cases h
    exact .same
  | markUploaded checksum fileId =>
    obtain ⟨x, hx, heq⟩ := Option.map_eq_some_iff.mp h
    cases heq
    exact updateRow_step hx

theorem execProduct_files {q : ProductStmt} {r : Except PgError q.Reply} (h : execProduct now c q d = some (r, d')) :
    FilesStep c d.files d'.files := by
  cases q with
  | insertProduct userId dto =>
    simp only [execProduct] at h
    split at h <;>
    · cases h
      exact .same
  | lockOwner productId =>
    simp only [execProduct] at h
    split at h
    · cases h
      exact .same
    · split at h
      · cases h
        exact .same
      · cases h
  | updateProduct dto productId =>
    simp only [execProduct] at h
    split at h
    · cases h
      exact .same
    · split at h
      · cases h
        exact .same
      · split at h
        · cases h
          exact .same
        · cases h
  | deleteImages productId =>
    obtain ⟨images, -, heq⟩ := Option.map_eq_some_iff.mp h
    cases heq
    exact .same
  | selectImageFiles | insertImages =>
    simp only [execProduct] at h
    split at h <;>
    · cases h
      exact .same
  | ownFiles productId fileIds =>
    simp only [execProduct] at h
    split at h
    · cases h
      exact .same
    · obtain ⟨files, hfiles, heq⟩ := Option.map_eq_some_iff.mp h
      cases heq
      exact ownFiles_step hfiles
  | selectCategory | selectProduct | selectImages =>
    cases h
    exact .same

/-- The catalog's statements write the catalog and its assets. -/
theorem execCatalog_frame {q : CatalogStmt} {r : Except PgError q.Reply} (h : execCatalog now c q d = some (r, d')) :
    d' = { d with catalog := d'.catalog, assets := d'.assets } := by
  cases q with
  | insertProduct | insertAsset =>
    simp only [execCatalog] at h
    split at h <;>
    · cases h
      rfl
  | updateProduct adminId dto productId =>
    simp only [execCatalog] at h
    split at h
    · cases h
      rfl
    · split at h
      · cases h
        rfl
      · split at h
        · cases h
          rfl
        · cases h
  | deleteProduct adminId productId =>
    simp only [execCatalog] at h
    split at h
    · cases h
      rfl
    · obtain ⟨x, -, heq⟩ := Option.map_eq_some_iff.mp h
      cases heq
      rfl
  | deleteAssets productId assetType =>
    obtain ⟨assets, -, heq⟩ := Option.map_eq_some_iff.mp h
    cases heq
    rfl
  | selectProduct | selectAssets =>
    cases h
    rfl

/-- The gallery's statements write the gallery and its assets. -/
theorem execGallery_frame {q : GalleryStmt} {r : Except PgError q.Reply} (h : execGallery now c q d = some (r, d')) :
    d' = { d with gallery := d'.gallery, galleryAssets := d'.galleryAssets } := by
  cases q with
  | insertItem | insertAsset =>
    simp only [execGallery] at h
    split at h <;>
    · cases h
      rfl
  | updateItem adminId dto galleryId =>
    simp only [execGallery] at h
    split at h
    · cases h
      rfl
    · split at h
      · cases h
        rfl
      · split at h
        · cases h
          rfl
        · cases h
  | deleteItem adminId galleryId =>
    simp only [execGallery] at h
    split at h
    · cases h
      rfl
    · obtain ⟨x, -, heq⟩ := Option.map_eq_some_iff.mp h
      cases heq
      rfl
  | deleteAssets galleryId =>
    obtain ⟨assets, -, heq⟩ := Option.map_eq_some_iff.mp h
    cases heq
    rfl
  | selectItem | selectAssets =>
    cases h
    rfl

/-- The statements on products write them, their images and the owners of files. -/
theorem execProduct_frame {q : ProductStmt} {r : Except PgError q.Reply} (h : execProduct now c q d = some (r, d')) :
    d' = { d with files := d'.files, products := d'.products, images := d'.images } := by
  cases q with
  | insertProduct | selectImageFiles | insertImages =>
    simp only [execProduct] at h
    split at h <;>
    · cases h
      rfl
  | lockOwner productId =>
    simp only [execProduct] at h
    split at h
    · cases h
      rfl
    · split at h
      · cases h
        rfl
      · cases h
  | updateProduct dto productId =>
    simp only [execProduct] at h
    split at h
    · cases h
      rfl
    · split at h
      · cases h
        rfl
      · split at h
        · cases h
          rfl
        · cases h
  | deleteImages productId =>
    obtain ⟨images, -, heq⟩ := Option.map_eq_some_iff.mp h
    cases heq
    rfl
  | ownFiles productId fileIds =>
    simp only [execProduct] at h
    split at h
    · cases h
      rfl
    · obtain ⟨files, -, heq⟩ := Option.map_eq_some_iff.mp h
      cases heq
      rfl
  | selectCategory | selectProduct | selectImages =>
    cases h
    rfl

/-- Where a statement of the items leads: to the end of its transaction, or to other fault tables. -/
theorem afterItems_cases (c : Client) (i : Items.Db) (d : Db) (q : Items.Stmt) :
    (q = .shop .commit ∧ afterItems c i d q = d.commit c) ∨
    (q = .shop .rollback ∧ afterItems c i d q = d.rollback c) ∨ afterItems c i d q = d.withItems i := by
  unfold afterItems
  split
  · exact Or.inl ⟨rfl, rfl⟩
  · exact Or.inr (Or.inl ⟨rfl, rfl⟩)
  · exact Or.inr (Or.inr rfl)

/-- What becomes of the store: nothing, the end of a transaction, or what the statement's service writes. -/
inductive Acted (c : Client) (d : Db) : Stmt → Db → Prop
  | fail {q : Stmt} : Acted c d q d
  | commit {q : Stmt} : Acted c d q (d.commit c)
  | rollback {q : Stmt} : Acted c d q (d.rollback c)
  | items {now : Nat} {q : Items.Stmt} {x : Items.Answer q × Items.Db} (hx : Items.exec now c q (d.items c) = some x) :
      Acted c d (.items q) (d.withItems x.2)
  | file {now : Nat} {q : FileStmt} {x : Except PgError q.Reply × Table Client File}
      (hx : execFile now q d.files = some x) : Acted c d (.file q) { d with files := x.2 }
  | profile {now : Nat} {q : ProfileStmt} {x : Except PgError q.Reply × Table Client Profile}
      (hx : execProfile now d.files d.userRatings q d.users = some x) : Acted c d (.profile q) { d with users := x.2 }
  | product {now : Nat} {q : ProductStmt} {r : Except PgError q.Reply} {d' : Db}
      (hx : execProduct now c q d = some (r, d')) : Acted c d (.product q) d'
  | catalog {now : Nat} {q : CatalogStmt} {r : Except PgError q.Reply} {d' : Db}
      (hx : execCatalog now c q d = some (r, d')) : Acted c d (.catalog q) d'
  | gallery {now : Nat} {q : GalleryStmt} {r : Except PgError q.Reply} {d' : Db}
      (hx : execGallery now c q d = some (r, d')) : Acted c d (.gallery q) d'

theorem act_cases {q : Stmt} {r : Answer q} (h : act m c q d = some (r, d')) : Acted c d q d' := by
  cases m with
  | fail e =>
    rw [act_fail h]
    exact .fail
  | run now =>
    cases q with
    | items q =>
      obtain ⟨x, hx, heq⟩ := Option.map_eq_some_iff.mp h
      cases heq
      rcases afterItems_cases c x.2 d q with ⟨-, he⟩ | ⟨-, he⟩ | he
      · rw [he]
        exact .commit
      · rw [he]
        exact .rollback
      · rw [he]
        exact .items hx
    | file q =>
      obtain ⟨x, hx, heq⟩ := Option.map_eq_some_iff.mp h
      cases heq
      exact .file hx
    | profile q =>
      obtain ⟨x, hx, heq⟩ := Option.map_eq_some_iff.mp h
      cases heq
      exact .profile hx
    | product q => exact .product h
    | catalog q => exact .catalog h
    | gallery q => exact .gallery h

theorem act_files {q : Stmt} {r : Answer q} (h : act m c q d = some (r, d')) : FilesStep c d.files d'.files := by
  cases act_cases h with
  | fail | items | profile => exact .same
  | commit => exact .commit
  | rollback => exact .rollback
  | file hx => exact execFile_step hx
  | product hx => exact execProduct_files hx
  | catalog hx =>
    rw [execCatalog_frame hx]
    exact .same
  | gallery hx =>
    rw [execGallery_frame hx]
    exact .same

end Statements

section Links
open Products
variable {m : Move} {now : Nat} {c : Client} {d d' : Db} {q : Stmt} {r : Answer q}

/-- The `fault_assets` rows that a statement may insert. -/
def Stmt.insertsFaultAsset (x : Items.FaultAsset) : Stmt → Prop
  | .items (.insertFaultAsset faultId fileId sortOrder) =>
    x.faultId = faultId ∧ (x.fileId : Int) = fileId ∧ x.sortOrder = sortOrder
  | _ => False

/-- The avatars that a statement may set. -/
def Stmt.setsAvatar (userId fileId : Nat) : Stmt → Prop
  | .profile (.updateProfile dto i) => i = userId ∧ dto.avatarFileId = some (some (fileId : ℚ))
  | _ => False

/-- The `product_assets` rows that a statement may insert. -/
def Stmt.insertsAsset (x : ProductAsset) : Stmt → Prop
  | .catalog (.insertAsset productId fileId assetType sortOrder) =>
    x.productId = productId ∧ (x.fileId : Int) = fileId ∧ x.assetType = assetType ∧ x.sortOrder = sortOrder
  | _ => False

/-- The `gallery_assets` rows that a statement may insert. -/
def Stmt.insertsGalleryAsset (x : GalleryAsset) : Stmt → Prop
  | .gallery (.insertAsset galleryId fileId sortOrder) =>
    x.galleryItemId = galleryId ∧ (x.fileId : Int) = fileId ∧ x.sortOrder = sortOrder
  | _ => False

theorem items_faultAssets {P : Nat → Items.FaultAsset → Prop} {q : Items.Stmt} {r : Items.Answer q} {i i' : Items.Db}
    (h : Items.exec now c q i = some (r, i')) (ht : i.faultAssets.Every P)
    (hq : ∀ k x, (Stmt.items q).insertsFaultAsset x → P k x) : i'.faultAssets.Every P := by
  cases q with
  | shop q =>
    obtain ⟨x, -, heq⟩ := Option.map_eq_some_iff.mp h
    cases heq
    unfold Items.afterShop
    split
    · exact ht.commit
    · exact ht.rollback
    · exact ht
  | deleteFaultAssets faultId =>
    obtain ⟨t, hdelete, heq⟩ := Option.map_eq_some_iff.mp h
    cases heq
    exact Table.Every.deleteWhere ht hdelete
  | insertFaultAsset faultId fileId sortOrder =>
    simp only [Items.exec] at h
    split at h
    · cases h
      exact ht
    · split at h
      · cases h
        exact ht
      · rename_i n hn
        cases h
        obtain ⟨hn, -⟩ := Option.filter_eq_some_iff.mp hn
        exact ht.insert (hq _ _ ⟨rfl, (Int.mem_toNat?.mp hn).symm, rfl⟩)
  | updateFault dto faultId =>
    simp only [Items.exec] at h
    split at h
    · cases h
      exact ht
    · split at h
      · cases h
        exact ht
      · cases h
  | updateDeliveryAddress | cancelFaultRow | updateFaultStatus | updateService | cancelServiceRow
  | updateServiceStatus =>
    obtain ⟨x, -, heq⟩ := Option.map_eq_some_iff.mp h
    cases heq
    exact ht
  | insertFaultHistory ex =>
    cases ex <;>
    · cases h
      exact ht
  | insertFault | selectOwnFaultStatus | selectFaultStatus | selectFiles | selectFault | selectFaultAssets
  | insertService | selectServiceStatus | insertServiceHistory | selectService =>
    cases h
    exact ht

theorem act_faultAssets {P : Nat → Items.FaultAsset → Prop} (h : act m c q d = some (r, d'))
    (ht : d.faultAssets.Every P) (hq : ∀ k x, q.insertsFaultAsset x → P k x) : d'.faultAssets.Every P := by
  cases act_cases h with
  | fail | file | profile => exact ht
  | commit => exact ht.commit
  | rollback => exact ht.rollback
  | items hx => exact items_faultAssets hx ht hq
  | product hx =>
    rw [execProduct_frame hx]
    exact ht
  | catalog hx =>
    rw [execCatalog_frame hx]
    exact ht
  | gallery hx =>
    rw [execGallery_frame hx]
    exact ht

theorem updateProfile_avatar {dto : UpdateProfileDto} {files : Table Client File} {avatar : Option (Option Nat)}
    (h : dto.avatar files = .ok avatar) :
    avatar = none ∨ avatar = some none ∨ ∃ n : Nat, avatar = some (some n) ∧ dto.avatarFileId = some (some (n : ℚ)) := by
  unfold UpdateProfileDto.avatar at h
  split at h
  · cases h
    exact Or.inl rfl
  · cases h
    exact Or.inr (Or.inl rfl)
  · rename_i q hq
    split at h
    · cases h
    · rename_i i hi
      split at h
      · cases h
      · rename_i n hn
        cases h
        obtain ⟨hn, -⟩ := Option.filter_eq_some_iff.mp hn
        refine Or.inr (Or.inr ⟨n, rfl, ?_⟩)
        rw [hq]
        unfold bigint at hi
        split at hi
        · cases hi
        · rename_i hden
          split at hi
          · cases hi
            have hnum : q.num = n := Int.mem_toNat?.mp hn
            have hcast : q = (n : ℚ) := by
              rw [← Rat.num_div_den q, hnum, not_not.mp hden]
              simp
            rw [hcast]
          · cases hi

theorem execProfile_users {P : Nat → Option Nat → Prop} {q : ProfileStmt} {r : Except PgError q.Reply}
    {files : Table Client File} {ratings : Nat → List Nat} {users users' : Table Client Profile}
    (h : execProfile now files ratings q users = some (r, users')) (ht : users.Every fun i u => P i u.avatarFileId)
    (hnone : ∀ i, P i none) (hq : ∀ i n, (Stmt.profile q).setsAvatar i n → P i (some n)) :
    users'.Every fun i u => P i u.avatarFileId := by
  cases q with
  | selectPhone | selectAvatarFile | selectMe =>
    cases h
    exact ht
  | clearAvatar userId =>
    simp only [execProfile] at h
    split at h
    · cases h
      exact ht
    · obtain ⟨x, hx, heq⟩ := Option.map_eq_some_iff.mp h
      cases heq
      exact Items.updateRow_every hx ht fun u _ => hnone userId
  | updateProfile dto userId =>
    simp only [execProfile, updateProfile] at h
    split at h
    · cases h
      exact ht
    · split at h
      · cases h
        exact ht
      · rename_i avatar havatar
        split at h
        · cases h
          exact ht
        · obtain ⟨x, hx, heq⟩ := Option.map_eq_some_iff.mp h
          cases heq
          refine Items.updateRow_every hx ht fun u hu => ?_
          rcases updateProfile_avatar havatar with rfl | rfl | ⟨n, rfl, hn⟩
          · exact hu
          · exact hnone userId
          · exact hq userId n ⟨rfl, hn⟩

/-- The avatars of all versions of users: they were there, cleared, or set by the statement. -/
theorem act_users {P : Nat → Option Nat → Prop} (h : act m c q d = some (r, d'))
    (ht : d.users.Every fun i u => P i u.avatarFileId) (hnone : ∀ i, P i none)
    (hq : ∀ i n, q.setsAvatar i n → P i (some n)) : d'.users.Every fun i u => P i u.avatarFileId := by
  cases act_cases h with
  | fail | items | file => exact ht
  | commit => exact ht.commit
  | rollback => exact ht.rollback
  | profile hx => exact execProfile_users hx ht hnone hq
  | product hx =>
    rw [execProduct_frame hx]
    exact ht
  | catalog hx =>
    rw [execCatalog_frame hx]
    exact ht
  | gallery hx =>
    rw [execGallery_frame hx]
    exact ht

theorem linked_ok {files : Table Client File} {taken : List Nat} {fileId : Int} {n : Nat}
    (h : linked c files taken fileId = .ok n) :
    (n : Int) = fileId ∧ n ∉ taken ∧ (files.view c n).isSome = true := by
  unfold linked at h
  split at h
  · cases h
  · split at h
    · cases h
    · rename_i hnew
      split at h
      · cases h
      · rename_i k hk
        cases h
        obtain ⟨hk, hfile⟩ := Option.filter_eq_some_iff.mp hk
        have hcast : (n : Int) = fileId := (Int.mem_toNat?.mp hk).symm
        refine ⟨hcast, fun hmem => hnew ?_, hfile⟩
        exact List.any_eq_true.mpr ⟨n, hmem, decide_eq_true hcast⟩

theorem execCatalog_assets {P : Nat → ProductAsset → Prop} {q : CatalogStmt} {r : Except PgError q.Reply}
    (h : execCatalog now c q d = some (r, d')) (ht : d.assets.Every P)
    (hq : ∀ k x, (Stmt.catalog q).insertsAsset x → P k x) : d'.assets.Every P := by
  cases q with
  | insertProduct adminId dto =>
    simp only [execCatalog] at h
    split at h <;>
    · cases h
      exact ht
  | insertAsset productId fileId assetType sortOrder =>
    simp only [execCatalog] at h
    split at h
    · cases h
      exact ht
    · rename_i n hn
      cases h
      exact ht.insert (hq _ _ ⟨rfl, (linked_ok hn).1, rfl, rfl⟩)
  | updateProduct adminId dto productId =>
    simp only [execCatalog] at h
    split at h
    · cases h
      exact ht
    · split at h
      · cases h
        exact ht
      · split at h
        · cases h
          exact ht
        · cases h
  | deleteProduct adminId productId =>
    simp only [execCatalog] at h
    split at h
    · cases h
      exact ht
    · obtain ⟨x, -, heq⟩ := Option.map_eq_some_iff.mp h
      cases heq
      exact ht
  | deleteAssets productId assetType =>
    obtain ⟨t, hdelete, heq⟩ := Option.map_eq_some_iff.mp h
    cases heq
    exact ht.deleteWhere hdelete
  | selectProduct | selectAssets =>
    cases h
    exact ht

theorem act_assets {P : Nat → ProductAsset → Prop} (h : act m c q d = some (r, d')) (ht : d.assets.Every P)
    (hq : ∀ k x, q.insertsAsset x → P k x) : d'.assets.Every P := by
  cases act_cases h with
  | fail | items | file | profile => exact ht
  | commit => exact ht.commit
  | rollback => exact ht.rollback
  | product hx =>
    rw [execProduct_frame hx]
    exact ht
  | catalog hx => exact execCatalog_assets hx ht hq
  | gallery hx =>
    rw [execGallery_frame hx]
    exact ht

theorem execGallery_assets {P : Nat → GalleryAsset → Prop} {q : GalleryStmt} {r : Except PgError q.Reply}
    (h : execGallery now c q d = some (r, d')) (ht : d.galleryAssets.Every P)
    (hq : ∀ k x, (Stmt.gallery q).insertsGalleryAsset x → P k x) : d'.galleryAssets.Every P := by
  cases q with
  | insertItem adminId dto =>
    simp only [execGallery] at h
    split at h <;>
    · cases h
      exact ht
  | insertAsset galleryId fileId sortOrder =>
    simp only [execGallery] at h
    split at h
    · cases h
      exact ht
    · rename_i n hn
      cases h
      exact ht.insert (hq _ _ ⟨rfl, (linked_ok hn).1, rfl⟩)
  | updateItem adminId dto galleryId =>
    simp only [execGallery] at h
    split at h
    · cases h
      exact ht
    · split at h
      · cases h
        exact ht
      · split at h
        · cases h
          exact ht
        · cases h
  | deleteItem adminId galleryId =>
    simp only [execGallery] at h
    split at h
    · cases h
      exact ht
    · obtain ⟨x, -, heq⟩ := Option.map_eq_some_iff.mp h
      cases heq
      exact ht
  | deleteAssets galleryId =>
    obtain ⟨t, hdelete, heq⟩ := Option.map_eq_some_iff.mp h
    cases heq
    exact ht.deleteWhere hdelete
  | selectItem | selectAssets =>
    cases h
    exact ht

theorem act_galleryAssets {P : Nat → GalleryAsset → Prop} (h : act m c q d = some (r, d'))
    (ht : d.galleryAssets.Every P) (hq : ∀ k x, q.insertsGalleryAsset x → P k x) : d'.galleryAssets.Every P := by
  cases act_cases h with
  | fail | items | file | profile => exact ht
  | commit => exact ht.commit
  | rollback => exact ht.rollback
  | product hx =>
    rw [execProduct_frame hx]
    exact ht
  | catalog hx =>
    rw [execCatalog_frame hx]
    exact ht
  | gallery hx => exact execGallery_assets hx ht hq

end Links

end Kayan.Media
