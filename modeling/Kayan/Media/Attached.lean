import Kayan.Lib.Confined
import Kayan.Media.Frame

/-!
# Attached files stay valid

A file is validated in one statement and attached in a later one. What a call has seen of files is its
phase; files only grow more valid, so what was seen stays true while the others run.
-/
namespace Kayan.Media
open RowStore Interleave Shop Products
open Reads (AuthUser)

section Valid
variable {files files' : Table Client File} {i n : Nat} {f g : File}

/-- File `n` is an uploaded image for products. -/
def ImageFile (files : Table Client File) (n : Nat) : Prop :=
  ∃ f, files.committed n = some f ∧ Items.ValidImage f.toStoredFile

/-- File `n` is an avatar that user `i` has uploaded. -/
def AvatarFile (files : Table Client File) (i n : Nat) : Prop :=
  ∃ f, files.committed n = some f ∧ f.status = .uploaded ∧ f.purpose = .avatar ∧ f.uploaderUserId = some i

theorem File.Later.validImage (h : f.Later g) (hf : Items.ValidImage f.toStoredFile) :
    Items.ValidImage g.toStoredFile where
  status := h.status hf.status
  purpose := h.purpose.trans hf.purpose
  mimeType := by
    rw [h.mimeType]
    exact hf.mimeType

theorem ImageFile.grows (h : ImageFile files n) (hg : Grows files files') : ImageFile files' n := by
  obtain ⟨f, hf, hvalid⟩ := h
  obtain ⟨g, hcommitted, hlater⟩ := hg n f hf
  exact ⟨g, hcommitted, hlater.validImage hvalid⟩

theorem AvatarFile.grows (h : AvatarFile files i n) (hg : Grows files files') : AvatarFile files' i n := by
  obtain ⟨f, hf, hstatus, hpurpose, huploader⟩ := h
  obtain ⟨g, hcommitted, hlater⟩ := hg n f hf
  exact ⟨g, hcommitted, hlater.status hstatus, hlater.purpose.trans hpurpose, hlater.uploader.trans huploader⟩

end Valid

/-- Every image of a fault and every avatar is a file that is valid for it, also in the rows that open
transactions have written. -/
structure Attached (d : Db) : Prop where
  steady : Steady d.files
  images : d.faultAssets.Every fun _ r => ImageFile d.files r.fileId
  avatars : d.users.Every fun i u => ∀ n, u.avatarFileId = some n → AvatarFile d.files i n

/-- What a call has seen of files: the ids of images, and the avatars of users. -/
structure Seen where
  images : Set Nat := ∅
  avatars : Set (Nat × Nat) := ∅

/-- The images among the rows of `selectFiles`. -/
def imagesIn (rows : List (Nat × Items.StoredFile)) : Set Nat := {n | ∃ f, (n, f) ∈ rows ∧ Items.ValidImage f}

/-- The users whose avatar the row of `selectAvatarFile` may be. -/
def avatarsIn (fileId : ℚ) (f : Option File) : Set (Nat × Nat) :=
  {p | fileId = p.2 ∧ ∃ g, f = some g ∧ g.status = .uploaded ∧ g.purpose = .avatar ∧ g.uploaderUserId = some p.1}

/-- The images that the reply of a statement shows. -/
def shownImages : (q : Stmt) → Answer q → Set Nat
  | .items (.selectFiles _), .ok rows => imagesIn rows
  | _, _ => ∅

/-- The avatars that the reply of a statement shows. -/
def shownAvatars : (q : Stmt) → Answer q → Set (Nat × Nat)
  | .profile (.selectAvatarFile fileId), .ok f => avatarsIn fileId f
  | _, _ => ∅

/-- A call attaches only files that it has seen to be valid. -/
def checked : Protocol Stmt Answer Seen := fun x q r y =>
  (∀ row, q.insertsFaultAsset row → row.fileId ∈ x.images) ∧ (∀ i n, q.setsAvatar i n → (i, n) ∈ x.avatars) ∧
    y.images ⊆ x.images ∪ shownImages q r ∧ y.avatars ⊆ x.avatars ∪ shownAvatars q r

/-- What was seen is true of the files. -/
structure Seen.Holds (files : Table Client File) (x : Seen) : Prop where
  images : ∀ n ∈ x.images, ImageFile files n
  avatars : ∀ p ∈ x.avatars, AvatarFile files p.1 p.2

section Store
variable {m : Move} {now : Nat} {c : Client} {d d' : Db} {q : Stmt} {r : Answer q} {x y : Seen}

theorem Seen.Holds.grows {files files' : Table Client File} (h : x.Holds files) (hg : Grows files files') :
    x.Holds files' :=
  ⟨fun n hn => (h.images n hn).grows hg, fun p hp => (h.avatars p hp).grows hg⟩

/-- A file that a statement shows to be an image is one. -/
theorem shownImages_valid (h : act m c q d = some (r, d')) (hs : Steady d.files) {n : Nat} (hn : n ∈ shownImages q r) :
    ImageFile d.files n := by
  unfold shownImages at hn
  split at hn
  · rename_i fileIds rows
    obtain ⟨file, hrow, hvalid⟩ := hn
    cases m with
    | fail e => cases h
    | run now =>
      have hexec : some (Items.selectFiles (d.items c).files fileIds, d.withItems (d.items c)) = some (.ok rows, d') := h
      have hrows := congrArg Prod.fst (Option.some.inj hexec)
      rw [Items.selectFiles_ok hrows] at hrow
      obtain ⟨k, -, hk⟩ := List.mem_filterMap.mp hrow
      obtain ⟨file, hfile, hpair⟩ := Option.map_eq_some_iff.mp hk
      cases hpair
      obtain ⟨f, hf, rfl⟩ := Option.map_eq_some_iff.mp hfile
      obtain ⟨g, hg, hcore⟩ := hs.view hf
      exact ⟨g, hg, (File.Later.of_core hcore.symm).validImage hvalid⟩
  · cases hn

theorem bigint_natCast {n : Nat} {k : Int} (h : bigint (n : ℚ) = .ok k) : k = n := by
  unfold bigint at h
  split at h
  · cases h
  · split at h
    · exact (Except.ok.inj h).symm
    · cases h

/-- A file that a statement shows to be an avatar of a user is one. -/
theorem shownAvatars_valid (h : act m c q d = some (r, d')) {i n : Nat} (hn : (i, n) ∈ shownAvatars q r) :
    AvatarFile d.files i n := by
  unfold shownAvatars at hn
  split at hn
  · rename_i fileId row
    obtain ⟨hid, f, rfl, hstatus, hpurpose, huploader⟩ := hn
    cases m with
    | fail e => cases h
    | run now =>
      have hexec : some ((bigint fileId).map (rowAt d.files.committed), d) = some (.ok (some f), d') := h
      have hfile : (bigint fileId).map (rowAt d.files.committed) = .ok (some f) :=
        congrArg Prod.fst (Option.some.inj hexec)
      refine ⟨f, ?_, hstatus, hpurpose, huploader⟩
      have hcast : fileId = (n : ℚ) := hid
      rcases hb : bigint fileId with e | k
      · rw [hb] at hfile
        cases hfile
      · rw [hb] at hfile
        have hk : k = n := bigint_natCast (hcast ▸ hb)
        rw [hk] at hfile
        exact Except.ok.inj hfile
  · cases hn

/-- A statement that attaches only what its call has seen keeps the attached files valid, and what the call has
seen after it is true. -/
theorem Attached.act (h : Attached d) (hx : x.Holds d.files) (hp : checked x q r y)
    (ha : Media.act m c q d = some (r, d')) : Attached d' ∧ y.Holds d'.files := by
  have hstep := act_files ha
  have hgrows : Grows d.files d'.files := hstep.grows h.steady
  obtain ⟨himage, havatar, hyi, hya⟩ := hp
  constructor
  · refine ⟨hstep.steady h.steady, ?_, ?_⟩
    · refine (act_faultAssets ha h.images fun k row hrow => ?_).mono fun k row hrow => hrow.grows hgrows
      exact hx.images _ (himage row hrow)
    · refine (act_users (P := fun i o => ∀ n, o = some n → AvatarFile d.files i n) ha h.avatars ?_ ?_).mono
        fun i u hu n hn => (hu n hn).grows hgrows
      · intro i n hn
        cases hn
      · intro i n hset k hk
        cases hk
        exact hx.avatars _ (havatar i n hset)
  · refine Seen.Holds.grows ⟨fun n hn => ?_, fun p hp => ?_⟩ hgrows
    · rcases hyi hn with hn | hn
      · exact hx.images n hn
      · exact shownImages_valid ha h.steady hn
    · rcases hya hp with hp | hp
      · exact hx.avatars p hp
      · exact shownAvatars_valid ha hp

end Store

section Calls
variable {α : Type} {x : Seen} {env : Env} {drv : Driver} {userId i : Nat}

/-- The statement attaches no file to a fault or a user. -/
def Stmt.Harmless (q : Stmt) : Prop := (∀ row, ¬ q.insertsFaultAsset row) ∧ ∀ i n, ¬ q.setsAvatar i n

theorem checked_harmless (q : Stmt) (r : Answer q) (h : q.Harmless) : checked x q r x :=
  ⟨fun row hrow => absurd hrow (h.1 row), fun i n hset => absurd hset (h.2 i n), Set.subset_union_left,
    Set.subset_union_left⟩

/-- The protocol of the items' statements. -/
def itemsChecked : Protocol Items.Stmt Items.Answer Seen := fun x q r y => checked x (.items q) r y

/-- The code attaches only what it has seen, from any phase. -/
abbrev Checks (x : Seen) (code : Code α) : Prop := Keeps checked x code (fun _ _ => True) fun _ => True

theorem Checks.of_confined {code : Code α} (h : Confined Stmt.Harmless code) : Checks x code :=
  (h.still checked_harmless).keeps (fun _ => trivial) trivial

section Faults
variable {fileIds : List Int} {faultId k : Nat}

theorem still_items {q : Items.Stmt} (h : (Stmt.items q).Harmless) : Still itemsChecked x (Items.query q) :=
  Still.await fun r => checked_harmless (.items q) r h

theorem harmless_getFault {ex : Executor} {allowAdmin : Bool} : Confined (fun q => (Stmt.items q).Harmless)
    (Items.getFaultForUserWithExecutor drv ex userId faultId allowAdmin) := by
  refine Confined.bind (Confined.await ⟨fun _ => id, fun _ _ => id⟩) fun row => ?_
  rcases row with - | row
  · exact Confined.throw
  · dsimp only
    split
    · exact Confined.throw
    · exact Confined.bind (Confined.await ⟨fun _ => id, fun _ _ => id⟩) fun _ => Confined.pure

theorem getFault_checks {ex : Executor} {allowAdmin : Bool} :
    Keeps itemsChecked x (Items.getFaultForUserWithExecutor drv ex userId faultId allowAdmin) (fun _ _ => True)
      fun _ => True :=
  (harmless_getFault.still fun q r h => checked_harmless (.items q) r h).keeps (fun _ => trivial) trivial

/-- After it every file of the list has been seen to be an image. -/
theorem assertValidFaultImageFiles_checks : Keeps itemsChecked x (Items.assertValidFaultImageFiles fileIds)
    (fun _ y => ∀ i ∈ fileIds, ∃ n : Nat, i = n ∧ n ∈ y.images) fun _ => True := by
  unfold Items.assertValidFaultImageFiles
  split
  · rename_i hempty
    rw [List.isEmpty_iff.mp hempty]
    exact Keeps.pure fun i hi => absurd hi List.not_mem_nil
  · refine Keeps.bind (Q := fun rows y => imagesIn rows ⊆ y.images) (Keeps.await fun r => ?_) fun rows y hy => ?_
    · cases r with
      | error e => exact ⟨x, checked_harmless _ _ ⟨fun _ => id, fun _ _ => id⟩, trivial⟩
      | ok rows =>
        refine ⟨⟨x.images ∪ imagesIn rows, x.avatars⟩, ⟨fun _ => False.elim, fun _ _ => False.elim, ?_, ?_⟩, ?_⟩
        · exact Set.Subset.rfl
        · exact Set.subset_union_left
        · exact Set.subset_union_right
    · split
      · exact Keeps.throw trivial
      · rename_i hnone
        refine Keeps.pure fun i hi => ?_
        obtain ⟨row, hrow, hkey, hvalid⟩ :=
          Items.imageFileFault_none (List.findSome?_eq_none_iff.mp hnone i (List.mem_eraseDups.mpr hi))
        exact ⟨row.1, hkey.symm, hy ⟨row.2, hrow, hvalid⟩⟩

theorem insertFaultAssets_checks (h : ∀ i ∈ fileIds, ∃ n : Nat, i = n ∧ n ∈ x.images) :
    Keeps itemsChecked x (Items.insertFaultAssets faultId k fileIds) (fun _ _ => True) fun _ => True := by
  induction fileIds generalizing k with
  | nil => exact Keeps.pure trivial
  | cons i fileIds ih =>
    obtain ⟨n, rfl, hn⟩ := h i List.mem_cons_self
    have hinsert : Still itemsChecked x (Items.query (.insertFaultAsset faultId n k)) := by
      refine Still.await fun r => ⟨fun row hrow => ?_, fun _ _ => False.elim, Set.subset_union_left, Set.subset_union_left⟩
      rw [Int.natCast_inj.mp hrow.2.1]
      exact hn
    exact Keeps.after hinsert (fun _ => ih fun j hj => h j (List.mem_cons_of_mem _ hj)) trivial

theorem syncFaultAssets_checks :
    Keeps itemsChecked x (Items.syncFaultAssets faultId fileIds) (fun _ _ => True) fun _ => True := by
  refine Keeps.bind assertValidFaultImageFiles_checks fun _ y hy => ?_
  exact Keeps.after (still_items ⟨fun _ => id, fun _ _ => id⟩) (fun _ => insertFaultAssets_checks hy) trivial

/-- A transaction on the items whose code attaches only what it has seen. -/
theorem withTransaction_checks {code : Items.Code α}
    (h : Keeps itemsChecked x code (fun _ _ => True) fun _ => True) :
    Keeps itemsChecked x (Items.withTransaction code) (fun _ _ => True) fun _ => True := by
  have hend (q : Items.Stmt) (hq : (Stmt.items q).Harmless) (y : Seen) (r : Items.Answer q) :
      ∃ z, itemsChecked y q r z ∧ outcome (fun _ _ => True) (fun _ => True) r z := by
    refine ⟨y, checked_harmless (.items q) r hq, ?_⟩
    cases r <;> trivial
  refine Keeps.transaction (fun r => ?_) h (fun _ y _ => hend (.shop .commit) ⟨fun _ => id, fun _ _ => id⟩ y)
    fun y _ r => ?_
  · refine ⟨x, checked_harmless (.items (.shop .begin)) r ⟨fun _ => id, fun _ _ => id⟩, ?_⟩
    cases r <;> trivial
  · exact ⟨y, checked_harmless (.items (.shop .rollback)) r ⟨fun _ => id, fun _ _ => id⟩, trivial⟩

theorem createFault_checks {dto : Items.CreateFaultDto} :
    Keeps itemsChecked x (Items.createFault drv userId dto) (fun _ _ => True) fun _ => True := by
  refine withTransaction_checks ?_
  refine Keeps.after (still_items ⟨fun _ => id, fun _ _ => id⟩) (fun faultId => ?_) trivial
  refine Keeps.bind syncFaultAssets_checks fun _ y _ => ?_
  refine Keeps.after (still_items ⟨fun _ => id, fun _ _ => id⟩) (fun _ => ?_) trivial
  exact getFault_checks

theorem updateFault_checks {dto : Items.UpdateFaultDto} :
    Keeps itemsChecked x (Items.updateFault drv userId faultId dto) (fun _ _ => True) fun _ => True := by
  refine withTransaction_checks ?_
  refine Keeps.after (still_items ⟨fun _ => id, fun _ _ => id⟩) (fun status => ?_) trivial
  rcases status with - | status
  · exact Keeps.throw trivial
  · dsimp only
    split
    · exact Keeps.throw trivial
    · refine Keeps.after (still_items ⟨fun _ => id, fun _ _ => id⟩) (fun _ => ?_) trivial
      split
      · exact Keeps.bind syncFaultAssets_checks fun _ y _ => getFault_checks
      · exact getFault_checks

end Faults

section Profiles

theorem harmless_getMe : Confined Stmt.Harmless (getMe env userId) := by
  refine Confined.bind (Confined.await ⟨fun _ => id, fun _ _ => id⟩) fun row => ?_
  rcases row with - | row
  · exact Confined.throw
  · exact Confined.pure

theorem harmless_assertPhone {phone : Option String} : Confined Stmt.Harmless (assertPhone userId phone) := by
  refine Confined.bind (Confined.await ⟨fun _ => id, fun _ _ => id⟩) fun existing => ?_
  cases existing with
  | false => exact Confined.pure
  | true => exact Confined.throw

/-- After it the file has been seen to be an avatar of the user. -/
theorem assertAvatarFile_checks {fileId : ℚ} : Keeps checked x (assertAvatarFile userId fileId)
    (fun _ y => ∀ n : Nat, fileId = n → (userId, n) ∈ y.avatars) fun _ => True := by
  refine Keeps.bind (Q := fun row y => avatarsIn fileId row ⊆ y.avatars) (Keeps.await fun r => ?_) fun row y hy => ?_
  · cases r with
    | error e => exact ⟨x, checked_harmless _ _ ⟨fun _ => id, fun _ _ => id⟩, trivial⟩
    | ok row =>
      refine ⟨⟨x.images, x.avatars ∪ avatarsIn fileId row⟩, ⟨fun _ => False.elim, fun _ _ => False.elim, ?_, ?_⟩, ?_⟩
      · exact Set.subset_union_left
      · exact Set.Subset.rfl
      · exact Set.subset_union_right
  · rcases row with - | file
    · exact Keeps.throw trivial
    · dsimp only
      split
      · exact Keeps.throw trivial
      · rename_i huploader
        split
        · exact Keeps.throw trivial
        · rename_i hvalid
          rw [not_or, not_not, not_not] at hvalid
          refine Keeps.pure fun n hn => hy ⟨hn, file, rfl, hvalid.1, hvalid.2, ?_⟩
          exact (Option.filter_eq_some_iff.mp (not_not.mp huploader)).1

/-- The columns of a profile are updated where its avatar has been seen. -/
theorem updateProfile_checks {dto : UpdateProfileDto}
    (h : ∀ n : Nat, dto.avatarFileId = some (some (n : ℚ)) → (userId, n) ∈ x.avatars) :
    Checks x (do
      tryCatch (query (.profile (.updateProfile dto userId))) phoneTaken
      getMe env userId) := by
  have hupdate : Still checked x (query (.profile (.updateProfile dto userId))) := by
    refine Still.await fun r => ⟨fun _ => False.elim, fun i n hset => ?_, Set.subset_union_left, Set.subset_union_left⟩
    obtain ⟨rfl, havatar⟩ := hset
    exact h n havatar
  have hcatch : Still checked x (tryCatch (query (.profile (.updateProfile dto userId))) phoneTaken) := by
    refine Still.catch hupdate fun e => ?_
    unfold phoneTaken
    split <;> exact Still.throw
  exact Keeps.after hcatch (fun _ => Checks.of_confined harmless_getMe) trivial

/-- The avatar is checked before it is written. -/
theorem updateAvatar_checks {dto : UpdateProfileDto} : Checks x (do
    match dto.avatarFileId with
    | some (some fileId) => assertAvatarFile userId fileId
    | _ => pure ()
    tryCatch (query (.profile (.updateProfile dto userId))) phoneTaken
    getMe env userId) := by
  split
  · rename_i fileId hfile
    refine Keeps.bind assertAvatarFile_checks fun _ z hz => updateProfile_checks fun n hn => ?_
    rw [hfile] at hn
    exact hz n (Option.some.inj (Option.some.inj hn))
  · rename_i hnone
    exact updateProfile_checks fun n hn => absurd hn (hnone n)

theorem updateMe_checks {dto : UpdateProfileDto} : Checks x (updateMe env userId dto) := by
  unfold updateMe
  split
  · exact Keeps.throw trivial
  · rcases dto.phone with - | phone
    · exact updateAvatar_checks
    · exact Keeps.after (harmless_assertPhone.still checked_harmless) (fun _ => updateAvatar_checks) trivial

theorem harmless_deleteAvatar : Confined Stmt.Harmless (deleteAvatar env userId) := by
  refine Confined.bind (Confined.await ⟨fun _ => id, fun _ _ => id⟩) fun updated => ?_
  cases updated with
  | false => exact Confined.throw
  | true => exact harmless_getMe

end Profiles

section Uploads

theorem harmless_createUploadIntent {dto : CreateUploadIntentDto} {now : Nat} {random : String} :
    Confined Stmt.Harmless (createUploadIntent env userId dto now random) := by
  refine Confined.bind (Confined.await ⟨fun _ => id, fun _ _ => id⟩) fun fileId => ?_
  split
  · exact Confined.throw
  · exact Confined.pure

theorem harmless_markUploaded {fileId : Nat} {checksum : Option String} :
    Confined Stmt.Harmless (markUploaded userId fileId checksum) := by
  refine Confined.bind (Confined.await ⟨fun _ => id, fun _ _ => id⟩) fun row => ?_
  rcases row with - | row
  · exact Confined.throw
  · dsimp only
    split
    · exact Confined.throw
    · exact Confined.bind (Confined.await ⟨fun _ => id, fun _ _ => id⟩) fun _ => Confined.pure

theorem harmless_getFile {user : AuthUser} {fileId : Nat} : Confined Stmt.Harmless (getFile env user fileId) := by
  refine Confined.bind (Confined.await ⟨fun _ => id, fun _ _ => id⟩) fun row => ?_
  rcases row with - | row
  · exact Confined.throw
  · dsimp only
    split
    · exact Confined.throw
    · exact Confined.pure

end Uploads

section Listings
variable {productId : Nat}

theorem harmless_withTransaction {code : Code α} (h : Confined Stmt.Harmless code) :
    Confined Stmt.Harmless (withTransaction code) :=
  Confined.transaction ⟨fun _ => id, fun _ _ => id⟩ ⟨fun _ => id, fun _ _ => id⟩ ⟨fun _ => id, fun _ _ => id⟩ h

theorem harmless_assertCategoryPair {category : String} {subcategory : Option String} {allowAll : Bool} :
    Confined Stmt.Harmless (assertCategoryPair category subcategory allowAll) := by
  unfold assertCategoryPair
  split
  · exact Confined.throw
  · split
    · exact Confined.pure
    · split
      · exact Confined.throw
      · split
        · exact Confined.throw
        · exact Confined.pure

theorem harmless_syncProductImages {imageFileIds : List ℚ} :
    Confined Stmt.Harmless (syncProductImages env userId productId imageFileIds) := by
  refine Confined.bind (Confined.await ⟨fun _ => id, fun _ _ => id⟩) fun _ => ?_
  split
  · exact Confined.pure
  · refine Confined.bind (Confined.await ⟨fun _ => id, fun _ _ => id⟩) fun files => ?_
    split
    · exact Confined.throw
    · refine Confined.bind (Confined.await ⟨fun _ => id, fun _ _ => id⟩) fun _ => ?_
      exact Confined.await ⟨fun _ => id, fun _ _ => id⟩

theorem harmless_product : Confined Stmt.Harmless (do
    let product ← fetchProductWithImages env productId
    pure (Payload.obj [("product", product)])) := by
  refine Confined.bind ?_ fun _ => Confined.pure
  refine Confined.bind (Confined.await ⟨fun _ => id, fun _ _ => id⟩) fun product => ?_
  rcases product with - | p
  · exact Confined.pure
  · exact Confined.bind (Confined.await ⟨fun _ => id, fun _ _ => id⟩) fun _ => Confined.pure

theorem harmless_createProduct {dto : CreateProductDto} : Confined Stmt.Harmless (createProduct env userId dto) := by
  refine harmless_withTransaction (Confined.bind harmless_assertCategoryPair fun _ => ?_)
  refine Confined.bind (Confined.await ⟨fun _ => id, fun _ _ => id⟩) fun productId => ?_
  rcases dto.imageFileIds with - | imageFileIds
  · exact harmless_product
  · dsimp only
    split
    · exact harmless_product
    · exact Confined.bind harmless_syncProductImages fun _ => harmless_product

theorem harmless_updateOwnProduct {dto : UpdateProductDto} :
    Confined Stmt.Harmless (updateOwnProduct env userId productId dto) := by
  refine Confined.bind (Confined.await ⟨fun _ => id, fun _ _ => id⟩) fun current => ?_
  rcases current with - | ⟨category, subcategory⟩
  · exact Confined.throw
  · refine Confined.bind harmless_assertCategoryPair fun _ => ?_
    refine Confined.bind (Confined.await ⟨fun _ => id, fun _ _ => id⟩) fun _ => ?_
    rcases dto.imageFileIds with - | imageFileIds
    · exact harmless_product
    · exact Confined.bind harmless_syncProductImages fun _ => harmless_product

theorem harmless_updateProduct {dto : UpdateProductDto} :
    Confined Stmt.Harmless (updateProduct env userId productId dto) := by
  refine harmless_withTransaction (Confined.bind (Confined.await ⟨fun _ => id, fun _ _ => id⟩) fun ownerId => ?_)
  rcases ownerId with - | ownerId
  · exact Confined.throw
  · dsimp only
    split
    · exact Confined.throw
    · exact harmless_updateOwnProduct

end Listings

section Catalog
variable {productId galleryId k : Nat} {fileIds : List Int}

theorem harmless_insertAssets {assetType : AssetType} :
    Confined Stmt.Harmless (insertAssets productId assetType k fileIds) := by
  induction fileIds generalizing k with
  | nil => exact Confined.pure
  | cons i fileIds ih => exact Confined.bind (Confined.await ⟨fun _ => id, fun _ _ => id⟩) fun _ => ih

theorem harmless_syncProductAssets {assetType : AssetType} :
    Confined Stmt.Harmless (syncProductAssets productId fileIds assetType) :=
  Confined.bind (Confined.await ⟨fun _ => id, fun _ _ => id⟩) fun _ => harmless_insertAssets

theorem harmless_getProductWithAssets : Confined Stmt.Harmless (getProductWithAssets env productId) := by
  refine Confined.bind (Confined.await ⟨fun _ => id, fun _ _ => id⟩) fun product => ?_
  rcases product with - | ⟨product, values⟩
  · exact Confined.throw
  · exact Confined.bind (Confined.await ⟨fun _ => id, fun _ _ => id⟩) fun _ => Confined.pure

theorem harmless_adminCreateProduct {dto : Products.AdminCreateProductDto} :
    Confined Stmt.Harmless (adminCreateProduct env userId dto) := by
  refine harmless_withTransaction (Confined.bind (Confined.await ⟨fun _ => id, fun _ _ => id⟩) fun productId => ?_)
  exact Confined.bind harmless_syncProductAssets fun _ => Confined.bind harmless_syncProductAssets fun _ =>
    harmless_getProductWithAssets

/-- The files of a product, and then the product. -/
theorem harmless_updateFiles {dto : AdminUpdateProductDto} : Confined Stmt.Harmless (do
    match dto.fileIds with
    | some fileIds => syncProductAssets productId fileIds .file
    | none => pure ()
    getProductWithAssets env productId) := by
  split
  · exact Confined.bind harmless_syncProductAssets fun _ => harmless_getProductWithAssets
  · exact harmless_getProductWithAssets

theorem harmless_adminUpdateProduct {dto : AdminUpdateProductDto} :
    Confined Stmt.Harmless (adminUpdateProduct env userId productId dto) := by
  refine harmless_withTransaction (Confined.bind (Confined.await ⟨fun _ => id, fun _ _ => id⟩) fun updated => ?_)
  cases updated with
  | false => exact Confined.throw
  | true =>
    rcases dto.imageFileIds with - | imageFileIds
    · exact harmless_updateFiles
    · exact Confined.bind harmless_syncProductAssets fun _ => harmless_updateFiles

theorem harmless_adminDeleteProduct : Confined Stmt.Harmless (adminDeleteProduct userId productId) := by
  refine Confined.bind (Confined.await ⟨fun _ => id, fun _ _ => id⟩) fun deleted => ?_
  cases deleted with
  | false => exact Confined.throw
  | true => exact Confined.pure

theorem harmless_syncGalleryAssets : Confined Stmt.Harmless (syncGalleryAssets galleryId fileIds) := by
  have hinsert : Confined Stmt.Harmless (insertGalleryAssets galleryId 0 fileIds) := by
    generalize 0 = k
    induction fileIds generalizing k with
    | nil => exact Confined.pure
    | cons i fileIds ih => exact Confined.bind (Confined.await ⟨fun _ => id, fun _ _ => id⟩) fun _ => ih (k + 1)
  exact Confined.bind (Confined.await ⟨fun _ => id, fun _ _ => id⟩) fun _ => hinsert

theorem harmless_getGalleryItem : Confined Stmt.Harmless (getGalleryItem env galleryId) := by
  refine Confined.bind (Confined.await ⟨fun _ => id, fun _ _ => id⟩) fun item => ?_
  rcases item with - | item
  · exact Confined.throw
  · exact Confined.bind (Confined.await ⟨fun _ => id, fun _ _ => id⟩) fun _ => Confined.pure

theorem harmless_adminCreateGalleryItem {dto : CreateGalleryItemDto} :
    Confined Stmt.Harmless (adminCreateGalleryItem env userId dto) := by
  refine harmless_withTransaction (Confined.bind (Confined.await ⟨fun _ => id, fun _ _ => id⟩) fun id => ?_)
  exact Confined.bind harmless_syncGalleryAssets fun _ => harmless_getGalleryItem

theorem harmless_adminUpdateGalleryItem {dto : UpdateGalleryItemDto} :
    Confined Stmt.Harmless (adminUpdateGalleryItem env userId galleryId dto) := by
  refine harmless_withTransaction (Confined.bind (Confined.await ⟨fun _ => id, fun _ _ => id⟩) fun updated => ?_)
  cases updated with
  | false => exact Confined.throw
  | true =>
    rcases dto.imageFileIds with - | imageFileIds
    · exact harmless_getGalleryItem
    · exact Confined.bind harmless_syncGalleryAssets fun _ => harmless_getGalleryItem

theorem harmless_adminDeleteGalleryItem : Confined Stmt.Harmless (adminDeleteGalleryItem userId galleryId) := by
  refine Confined.bind (Confined.await ⟨fun _ => id, fun _ _ => id⟩) fun deleted => ?_
  cases deleted with
  | false => exact Confined.throw
  | true => exact Confined.pure

end Catalog

variable (env) in
/-- Every call attaches only what it has seen. -/
theorem Request.checks (req : Request) : Checks {} (req.code env) := by
  cases req with
  | createUploadIntent => exact Checks.of_confined harmless_createUploadIntent
  | markUploaded => exact Checks.of_confined harmless_markUploaded
  | getFile => exact Checks.of_confined harmless_getFile
  | updateMe => exact updateMe_checks
  | deleteAvatar => exact Checks.of_confined harmless_deleteAvatar
  | createProduct => exact Checks.of_confined harmless_createProduct
  | updateProduct => exact Checks.of_confined harmless_updateProduct
  | createFault => exact Follows.embed createFault_checks
  | updateFault => exact Follows.embed updateFault_checks
  | adminCreateProduct => exact Checks.of_confined harmless_adminCreateProduct
  | adminUpdateProduct => exact Checks.of_confined harmless_adminUpdateProduct
  | adminDeleteProduct => exact Checks.of_confined harmless_adminDeleteProduct
  | adminCreateGalleryItem => exact Checks.of_confined harmless_adminCreateGalleryItem
  | adminUpdateGalleryItem => exact Checks.of_confined harmless_adminUpdateGalleryItem
  | adminDeleteGalleryItem => exact Checks.of_confined harmless_adminDeleteGalleryItem

end Calls

section Runs
variable {env : Env} {req : Client → Request} {d : Db} {s t : State} {e : Taken} {xs : List Taken}

/-- The attached files are valid, and every call has seen what its phase says. -/
def Intact (s : State) : Prop :=
  Attached s.db ∧ ∃ ph : Client → Seen, InPhase checked (outcome (fun _ _ => True) fun _ => True) ph s ∧
    ∀ c, (ph c).Holds s.db.files

theorem intact_step (hs : Step act s e t) (h : Intact s) : Intact t := by
  obtain ⟨hattached, ph, hph, hseen⟩ := h
  obtain ⟨y, hy, hnext⟩ := hph.step hs
  have hgrows := (act_files hs.acted).grows hattached.steady
  obtain ⟨hattached', hy'⟩ := hattached.act (hseen e.client) hy hs.acted
  refine ⟨hattached', _, hnext, fun c => ?_⟩
  by_cases hc : c = e.client
  · rw [hc, Function.update_self]
    exact hy'
  · rw [Function.update_of_ne hc]
    exact (hseen c).grows hgrows

theorem intact_initial (hd : Attached d) : Intact (initial env req d) :=
  ⟨hd, fun _ => {}, fun c => (req c).checks env, fun _ => ⟨fun _ => False.elim, fun _ => False.elim⟩⟩

/-- Whatever calls run, in every order of their statements, attached files stay valid. -/
theorem attached_run (hd : Attached d) (h : Trace.Run (Step act) (initial env req d) xs t) : Attached t.db :=
  (h.preserves (fun _ _ _ hs hi => intact_step hs hi) (intact_initial hd)).1

/-- A photo and an avatar of one user. -/
def pictures : Db := .ofFiles
  [{ id := 1, uploaderUserId := some 1, ownerType := .user, ownerId := none, purpose := .productImage,
     storageProvider := "local", bucket := some "uploads", objectKey := "user/temp/1-leak",
     originalFilename := some "leak.jpg", mimeType := some "image/jpeg", fileSizeBytes := none, status := .uploaded,
     createdAt := 0, updatedAt := 0 },
   { id := 2, uploaderUserId := some 1, ownerType := .user, ownerId := none, purpose := .avatar,
     storageProvider := "local", bucket := some "uploads", objectKey := "user/temp/2-me",
     originalFilename := some "me.png", mimeType := some "image/png", fileSizeBytes := none, status := .uploaded,
     createdAt := 0, updatedAt := 0 }]
  [{ id := 1, name := "Mona", phone := none, email := none, status := "active", contactInfo := none, address := none,
     avatarFileId := none, deletedAt := none, updatedAt := 0 }]

theorem attached_pictures : Attached pictures where
  steady c i v w h := by
    have hnone : pictures.files.own c i = none := Table.numbered_unlocked.own
    rw [hnone] at h
    cases h
  images := Table.numbered_every fun _ h => by cases h
  avatars := Table.numbered_every fun u hu i n hn => by
    rw [List.mem_singleton.mp hu] at hn
    cases hn

/-- The user reports a fault with the photo, and takes the avatar. -/
def attaching : Client → Request
  | 0 => .createFault 1 { title := "Leak", description := "Kitchen", severity := .high, address := "Giza",
                          imageFileIds := some [1] }
  | _ => .updateMe 1 { avatarFileId := some (some 2) }

theorem attached_run_pictures : ∃ xs t, Trace.Run (Step act) (initial plainEnv attaching pictures) xs t ∧
    t.db.faultAssets.committedRows = [⟨1, 1, 1, 0⟩] ∧
    t.db.users.committedRows.map (·.avatarFileId) = [some 2] ∧ Attached t.db := by
  have hplay : (play act (fun _ _ _ _ => true)
      ([0, 0, 1, 0, 0, 0, 1, 0, 0, 0, 0].map fun c => (c, Move.run 5)) (initial plainEnv attaching pictures)).map
        (fun t => (t.db.faultAssets.committedRows, t.db.users.committedRows.map (·.avatarFileId))) =
      some ([⟨1, 1, 1, 0⟩], [some 2]) := by decide +kernel
  obtain ⟨xs, t, hrun, ht⟩ := play_run hplay
  have hsteps := hrun.mono fun _ _ _ h => h.1
  exact ⟨xs, t, hsteps, congrArg Prod.fst ht, congrArg Prod.snd ht, attached_run attached_pictures hsteps⟩

end Runs

end Kayan.Media
