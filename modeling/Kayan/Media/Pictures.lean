import Kayan.Media.Frame

/-!
# Images of the catalog and the gallery

`syncProductAssets` and `syncGalleryAssets` insert the ids that they are given; no statement before them
looks at the files. What the rows refer to is as good as what the admins name.
-/
namespace Kayan.Media
open RowStore Interleave Shop Products

section Images
variable {files files' : Table Client File} {n : Nat} {d d' : Db}

/-- File `n` is an uploaded image. -/
def Picture (files : Table Client File) (n : Nat) : Prop :=
  ∃ f, files.committed n = some f ∧ f.status = .uploaded ∧
    (f.mimeType.any fun m => "image/".toList.isPrefixOf m.toList) = true

theorem Picture.grows (h : Picture files n) (hg : Grows files files') : Picture files' n := by
  obtain ⟨f, hf, hstatus, hmime⟩ := h
  obtain ⟨g, hcommitted, hlater⟩ := hg n f hf
  refine ⟨g, hcommitted, hlater.status hstatus, ?_⟩
  rw [hlater.mimeType]
  exact hmime

/-- A `product_assets` row of type image refers to an image. -/
def ProductPicture (files : Table Client File) (row : ProductAsset) : Prop :=
  row.assetType = .image → Picture files row.fileId

/-- The images of products and of the gallery are uploaded images. -/
def RealImages (d : Db) : Prop :=
  (∀ row ∈ d.assets.committedRows, ProductPicture d.files row) ∧
    ∀ row ∈ d.galleryAssets.committedRows, Picture d.files row.fileId

/-- The same of all versions of the rows, those of open transactions too. -/
structure Pictured (d : Db) : Prop where
  steady : Steady d.files
  assets : d.assets.Every fun _ row => ProductPicture d.files row
  gallery : d.galleryAssets.Every fun _ row => Picture d.files row.fileId

theorem Pictured.realImages (h : Pictured d) : RealImages d := by
  constructor
  · intro row hrow
    obtain ⟨i, hi⟩ := Table.mem_committedRows.mp hrow
    exact h.assets.committed hi
  · intro row hrow
    obtain ⟨i, hi⟩ := Table.mem_committedRows.mp hrow
    exact h.gallery.committed hi

end Images

section Runs
variable {env : Env} {req : Client → Request} {d : Db} {s t : State} {e : Taken} {xs : List Taken}

/-- A step that inserts an image of a product or of the gallery names an uploaded image. -/
def NamesPicture (s : State) (e : Taken) : Prop :=
  (∀ row, e.stmt.insertsAsset row → ProductPicture s.db.files row) ∧
    ∀ row, e.stmt.insertsGalleryAsset row → Picture s.db.files row.fileId

theorem pictured_step (hs : Step act s e t) (he : NamesPicture s e) (h : Pictured s.db) : Pictured t.db := by
  have hact := hs.acted
  have hgrows := (act_files hact).grows h.steady
  obtain ⟨hasset, hgallery⟩ := he
  refine ⟨(act_files hact).steady h.steady, ?_, ?_⟩
  · refine (act_assets hact h.assets fun k row hrow => hasset row hrow).mono fun k row hrow himage => ?_
    exact (hrow himage).grows hgrows
  · refine (act_galleryAssets hact h.gallery fun k row hrow => hgallery row hrow).mono fun k row hrow => ?_
    exact hrow.grows hgrows

/-- While the steps that insert images name uploaded images, all of them are. -/
theorem realImages_run (hd : Pictured d)
    (h : Trace.Run (fun s e t => Step act s e t ∧ NamesPicture s e) (initial env req d) xs t) : RealImages t.db :=
  (h.preserves (I := fun s => Pictured s.db) (fun _ _ _ hs hi => pictured_step hs.1 hs.2 hi) hd).realImages

/-- Whether a step names a picture, from its statement and the committed files. -/
def namesPicture (s : State) (e : Taken) : Bool :=
  let picture (fileId : Int) := (rowAt s.db.files.committed fileId).any fun f =>
    f.status = .uploaded && f.mimeType.any fun m => "image/".toList.isPrefixOf m.toList
  match e.stmt with
  | .catalog (.insertAsset _ fileId .image _) => picture fileId
  | .gallery (.insertAsset _ fileId _) => picture fileId
  | _ => true

theorem picture_of_rowAt {files : Table Client File} {n : Nat}
    (h : ((rowAt files.committed n).any fun f =>
      f.status = .uploaded && f.mimeType.any fun m => "image/".toList.isPrefixOf m.toList) = true) :
    Picture files n := by
  have hkey : rowAt files.committed n = files.committed n := rfl
  rw [hkey] at h
  rcases hf : files.committed n with - | f
  · rw [hf] at h
    cases h
  · rw [hf, Option.any_some, Bool.and_eq_true, decide_eq_true_eq] at h
    exact ⟨f, hf, h⟩

theorem namesPicture_sound (h : namesPicture s e = true) : NamesPicture s e := by
  obtain ⟨c, m, q, r⟩ := e
  cases q with
  | catalog q =>
    refine ⟨fun row hrow himage => ?_, fun _ => False.elim⟩
    cases q with
    | insertAsset productId fileId assetType sortOrder =>
      obtain ⟨-, rfl, rfl, -⟩ := hrow
      simp only [namesPicture, himage] at h
      exact picture_of_rowAt h
    | insertProduct | updateProduct | deleteProduct | deleteAssets | selectProduct | selectAssets => exact hrow.elim
  | gallery q =>
    refine ⟨fun _ => False.elim, fun row hrow => ?_⟩
    cases q with
    | insertAsset galleryId fileId sortOrder =>
      obtain ⟨-, rfl, -⟩ := hrow
      exact picture_of_rowAt h
    | insertItem | updateItem | deleteItem | deleteAssets | selectItem | selectAssets => exact hrow.elim
  | items | file | profile | product => exact ⟨fun _ => False.elim, fun _ => False.elim⟩

/-- One file, an image or a document, of some status. -/
def library (mimeType : String) (status : Items.FileStatus) : Db := .ofFiles
  [{ id := 1, uploaderUserId := some 1, ownerType := .user, ownerId := none, purpose := .document,
     storageProvider := "local", bucket := some "uploads", objectKey := "user/temp/1-file",
     originalFilename := some "file", mimeType := some mimeType, fileSizeBytes := none, status := status,
     createdAt := 0, updatedAt := 0 }] []

theorem library_pictured (mimeType : String) (status : Items.FileStatus) : Pictured (library mimeType status) where
  steady c i v w h := by
    have hnone : (library mimeType status).files.own c i = none := Table.numbered_unlocked.own
    rw [hnone] at h
    cases h
  assets := Table.numbered_every fun _ h => by cases h
  gallery := Table.numbered_every fun _ h => by cases h

/-- A product with file 1 as its image. -/
def listing : Client → Request := fun _ =>
  .adminCreateProduct 9 { title := "Lamp", description := "Brass", amount := 1, price := (10 : ℚ), imageFileIds := some [1] }

theorem realImages_run_listing : ∃ xs t,
    Trace.Run (fun s e t => Step act s e t ∧ NamesPicture s e) (initial plainEnv listing (library "image/png" .uploaded)) xs t ∧
      t.db.assets.committedRows = [⟨1, 1, 1, .image, 0⟩] ∧ RealImages t.db := by
  have hplay : (replay act namesPicture (List.replicate 8 (0, Move.run 5))
      (initial plainEnv listing (library "image/png" .uploaded))).map (fun t => t.db.assets.committedRows) =
        some [⟨1, 1, 1, .image, 0⟩] := by decide +kernel
  obtain ⟨xs, t, hrun, ht⟩ := replay_run hplay
  have hsteps : Trace.Run (fun s e t => Step act s e t ∧ NamesPicture s e)
      (initial plainEnv listing (library "image/png" .uploaded)) xs t :=
    hrun.mono fun _ _ _ h => ⟨h.1, namesPicture_sound h.2⟩
  exact ⟨xs, t, hsteps, ht, realImages_run (library_pictured _ _) hsteps⟩

/-- File 1 is a document, and still pending. -/
theorem pending_document_listed : ¬ ∀ (env : Env) (req : Client → Request) (d : Db) (xs : List Taken) (t : State),
    Pictured d → Trace.Run (Step act) (initial env req d) xs t → RealImages t.db := by
  intro h
  have hplay : (play act (fun _ _ _ _ => true) (List.replicate 8 (0, Move.run 5))
      (initial plainEnv listing (library "application/pdf" .pending))).map
        (fun t => (t.db.assets.committedRows, (t.db.files.committed 1).map (·.status))) =
      some ([⟨1, 1, 1, .image, 0⟩], some .pending) := by decide +kernel
  obtain ⟨xs, t, hrun, ht⟩ := play_run hplay
  have hreal := h _ _ _ xs t (library_pictured _ _) (hrun.mono fun _ _ _ h => h.1)
  have hrow : (⟨1, 1, 1, .image, 0⟩ : ProductAsset) ∈ t.db.assets.committedRows := by
    have hrows := congrArg Prod.fst ht
    simp only at hrows
    rw [hrows]
    exact List.mem_singleton_self _
  obtain ⟨f, hf, hstatus, -⟩ := hreal.1 _ hrow rfl
  have hpending := congrArg Prod.snd ht
  simp only [hf, Option.map_some, hstatus] at hpending
  cases hpending

end Runs

end Kayan.Media
