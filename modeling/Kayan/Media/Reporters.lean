import Kayan.Fk.Coverage
import Kayan.Media.Alone

/-!
# Whose files fault images are

`assertValidFaultImageFiles` does not look at the uploader of a file, and a response shows the files of a
fault whoever has uploaded them, while `getFile` refuses them to other users.
-/
namespace Kayan.Media
open RowStore Interleave Shop Fk
open Reads (AuthUser faultAssetPayload)

section Responses
variable {drv : Driver} {n : Nat} {response : Payload} {row : Items.FaultRow} {assets : List Reads.FaultAssetRow}

/-- A response shows file `n`: as an image of its fault, with object key and name, or among the ids that
foreign key expansion replaces by the file with its link. -/
def Reveals (response : Payload) (n : Nat) : Prop :=
  (∃ fs images entry, response.field "fault" = some (.obj fs) ∧ Fields.get "images" fs = some (.arr images) ∧
    entry ∈ images ∧ entry.field "file_id" = some (.num n)) ∨ (EntityType.file, n) ∈ collectIds response

/-- The foreign keys that refer to files. -/
def fileKeys : List String := ["avatar_file_id", "file_id", "product_image_file_id"]

theorem file_rules : ∀ x ∈ fkRules, x.2.entity = some .file → x.1 ∈ fileKeys := by
  decide +kernel

theorem key_of_file {node : Fields} {key : String} {value : Payload} (h : entryId node key value = some (.file, n)) :
    key ∈ fileKeys ∧ Fk.toPositiveInt value = some n := by
  obtain ⟨rule, hrule, hentity, hid⟩ := entryId_eq_some h
  refine ⟨?_, hid⟩
  obtain ⟨own, hown⟩ := Option.ne_none_iff_exists'.mp (own_of_entity hrule hentity)
  rw [ruleFor_own hown] at hrule
  split at hrule
  · cases hrule
    exact file_rules _ (Entries.mem_of_lookup hown) hentity
  · cases hrule

/-- An entry that is no foreign key of a file, with a value that holds no ids. -/
def Plain (y : String × Payload) : Prop := y.1 ∉ fileKeys ∧ collectIds y.2 = []

theorem plain {key : String} {value : Payload} (hkey : key ∉ fileKeys) (hvalue : collectIds value = []) :
    Plain (key, value) := ⟨hkey, hvalue⟩

theorem Plain.not_collected {node : Fields} {y : String × Payload} (hy : Plain y)
    (h : entryId node y.1 y.2 = some (.file, n) ∨ (EntityType.file, n) ∈ collectIds y.2) : False := by
  rcases h with h | h
  · exact hy.1 (key_of_file h).1
  · rw [hy.2] at h
    cases h

/-- An image refers to its file only. -/
theorem collectIds_asset {asset : Reads.FaultAssetRow} (h : (EntityType.file, n) ∈ collectIds (faultAssetPayload asset)) :
    asset.fileId = n := by
  obtain ⟨y, hy, h⟩ := mem_collectFields_iff.mp h
  rcases List.mem_cons.mp hy with rfl | hy
  · rcases h with h | h
    · have hid := (key_of_file h).2
      simp only [Fk.toPositiveInt, Rat.den_natCast, Rat.num_natCast] at hid
      split at hid
      · exact Option.some.inj hid
      · cases hid
    · cases h
  · have hplain : ∀ y ∈ [("sort_order", Payload.num asset.sortOrder), ("object_key", .ofText asset.objectKey),
        ("original_filename", .ofText asset.originalFilename), ("mime_type", .ofText asset.mimeType),
        ("status", .ofText asset.status)], Plain y := by
      simp only [List.forall_mem_cons, List.not_mem_nil, false_imp_iff, implies_true, and_true]
      exact ⟨plain (by decide) rfl, plain (by decide) (collectIds_ofText _), plain (by decide) (collectIds_ofText _),
        plain (by decide) (collectIds_ofText _), plain (by decide) (collectIds_ofText _)⟩
    exact ((hplain y hy).not_collected h).elim

/-- The columns of a fault refer to no file. -/
theorem plain_faultRowFields : ∀ y ∈ Items.faultRowFields drv row, Plain y := by
  simp only [Items.faultRowFields, List.forall_mem_cons, List.not_mem_nil, false_imp_iff, implies_true, and_true]
  exact ⟨plain (by decide) rfl, plain (by decide) rfl, plain (by decide) rfl, plain (by decide) rfl,
    plain (by decide) rfl, plain (by decide) rfl, plain (by decide) rfl, plain (by decide) (collectIds_ofText _),
    plain (by decide) rfl, plain (by decide) rfl, plain (by decide) rfl⟩

/-- A response shows the files of the fault's images. -/
theorem reveals_fault : Reveals (.obj [("fault", Items.faultPayload drv assets row)]) n ↔
    ∃ asset ∈ assets, asset.faultId = row.fault.id ∧ asset.fileId = n := by
  let images := (assets.filter fun asset => asset.faultId = row.fault.id).map faultAssetPayload
  constructor
  · rintro (⟨fs, shown, entry, hfault, hshown, hentry, hid⟩ | h)
    · obtain rfl : Fields.put "images" (.arr images) (Items.faultRowFields drv row) = fs :=
        Payload.obj.inj (Option.some.inj hfault)
      rw [Fields.get_put] at hshown
      cases hshown
      obtain ⟨asset, hasset, rfl⟩ := List.mem_map.mp hentry
      obtain ⟨hmem, hfaultId⟩ := List.mem_filter.mp hasset
      have hcast : (asset.fileId : ℚ) = n := Payload.num.inj (Option.some.inj hid)
      exact ⟨asset, hmem, of_decide_eq_true hfaultId, Nat.cast_injective hcast⟩
    · obtain ⟨y, hy, h⟩ := mem_collectFields_iff.mp h
      rw [List.mem_singleton] at hy
      subst hy
      have hfault : "fault" ∉ fileKeys := by decide
      have himages : "images" ∉ fileKeys := by decide
      rcases h with h | h
      · exact absurd (key_of_file h).1 hfault
      · obtain ⟨y, hy, h⟩ := mem_collectFields_iff.mp h
        rcases Fields.mem_put hy with rfl | hy
        · rcases h with h | h
          · exact absurd (key_of_file h).1 himages
          · obtain ⟨p, hp, h⟩ := mem_collectItems.mp h
            obtain ⟨asset, hasset, rfl⟩ := List.mem_map.mp hp
            obtain ⟨hmem, hfaultId⟩ := List.mem_filter.mp hasset
            exact ⟨asset, hmem, of_decide_eq_true hfaultId, collectIds_asset h⟩
        · exact ((plain_faultRowFields y hy).not_collected h).elim
  · rintro ⟨asset, hmem, hfaultId, rfl⟩
    refine Or.inl ⟨_, images, faultAssetPayload asset, rfl, Fields.get_put .., ?_, rfl⟩
    exact List.mem_map_of_mem (List.mem_filter.mpr ⟨hmem, decide_eq_true hfaultId⟩)

end Responses

section Files
variable {env : Env} {clock : Clock} {c : Client} {d : Db} {userId n : Nat}

/-- The id is that of a file that the user has uploaded. -/
def UploadedBy (d : Db) (userId : Nat) (i : Int) : Prop :=
  ∃ n : Nat, ∃ f, i = n ∧ d.files.committed n = some f ∧ f.uploaderUserId = some userId

/-- `getFile` refuses file `n` to the user. -/
def Refused (env : Env) (clock : Clock) (c : Client) (d : Db) (user : AuthUser) (n : Nat) : Prop :=
  ∃ e d', alone clock c (getFile env user n) d = some (.error e, d')

theorem refused_iff (hu : 0 < userId) : Refused env clock c d ⟨userId, false⟩ n ↔ ¬ UploadedBy d userId n := by
  have hselect : exec (clock (.file (.selectFile n)) d) c (.file (.selectFile n)) d =
      some (.ok (d.files.committed n), d) := rfl
  rcases hfile : d.files.committed n with - | f
  · rw [hfile] at hselect
    refine iff_of_true ⟨_, d, (query_alone hselect).trans rfl⟩ ?_
    rintro ⟨k, f, hk, hf, -⟩
    rw [← Int.natCast_inj.mp hk, hfile] at hf
    cases hf
  · rw [hfile] at hselect
    by_cases huploader : f.uploaderUserId = some userId
    · have hshown : alone clock c (getFile env ⟨userId, false⟩ n) d = some (.ok (filePayload env f), d) := by
        refine (query_alone hselect).trans ?_
        simp only [huploader, toPositiveInt, Option.filter_some, hu, decide_true, if_true]
        rw [if_neg (by simp)]
        rfl
      refine iff_of_false ?_ fun hno => hno ⟨n, f, rfl, hfile, huploader⟩
      rintro ⟨e, d', herror⟩
      rw [hshown] at herror
      cases herror
    · have hother : toPositiveInt f.uploaderUserId ≠ some userId := fun he =>
        huploader (Option.filter_eq_some_iff.mp he).1
      refine iff_of_true ⟨.forbidden "Not allowed", d, (query_alone hselect).trans ?_⟩ ?_
      · simp only [hother, ne_eq, not_false_eq_true, decide_true, Bool.not_false, Bool.and_self, if_true]
        rfl
      · rintro ⟨k, g, hk, hg, hg'⟩
        rw [← Int.natCast_inj.mp hk, hfile] at hg
        cases hg
        exact huploader hg'

end Files

section Calls
variable (env : Env) (clock : Clock) (c : Client)

/-- A call that reports a fault or changes a reported one. -/
inductive Report where
  | create (dto : Items.CreateFaultDto)
  | update (faultId : Nat) (dto : Items.UpdateFaultDto)

def Report.code (userId : Nat) : Report → Code Payload
  | .create dto => ofItems (Items.createFault env.reader.toDriver userId dto)
  | .update faultId dto => ofItems (Items.updateFault env.reader.toDriver userId faultId dto)

/-- The files that the call refers to. -/
def Report.fileIds : Report → List Int
  | .create dto => dto.imageFileIds.getD []
  | .update _ dto => dto.imageFileIds.getD []

/-- The columns take the texts of the call. -/
def Report.Storable : Report → Prop
  | .create dto => (Payload.textStorable dto.title && Payload.textStorable dto.description &&
      Payload.textStorable dto.address) = true
  | .update _ dto => (dto.title.all Payload.textStorable && dto.description.all Payload.textStorable &&
      dto.address.all Payload.textStorable) = true

/-- The list is accepted and repeats no file. -/
def Accepted (d : Db) (ids : List Int) : Prop := Items.verdict (d.items c).files ids = .ok () ∧ ids.Nodup

/-- The call is one that goes through, and these are then the images of its fault. -/
def Report.Leads (d : Db) (userId : Nat) : Report → List Int → Prop
  | .create dto, ids => ids = dto.imageFileIds.getD [] ∧ Accepted c d ids
  | .update faultId dto, ids =>
    (∃ row, d.faults.committed faultId = some row ∧ row.userId = userId ∧ row.status = .received) ∧
      match dto.imageFileIds with
      | some listed => ids = listed ∧ Accepted c d ids
      | none => ids = (d.items c).imageFileIds faultId

/-- The call succeeds only with files of the caller, and shows none that `getFile` refuses to him. -/
def BelongsToReporter (d : Db) (userId : Nat) (x : Report) : Prop :=
  ∀ response d', alone clock c (x.code env userId) d = some (.ok response, d') →
    (∀ i ∈ x.fileIds, UploadedBy d userId i) ∧ ∀ n, Reveals response n → ¬ Refused env clock c d' ⟨userId, false⟩ n

variable {env clock c} {d : Db} {userId : Nat} {x : Report} {ids : List Int}

theorem still_items_of (hd : Unlocked d) (hid : ∀ i r, d.faults.committed i = some r → r.id = i) :
    Items.Still (d.items c) where
  unlocked :=
    { shop := hd.shop
      faults := hd.faults
      faultHistory := hd.faultHistory
      faultAssets := hd.faultAssets
      services := hd.services
      serviceHistory := hd.serviceHistory }
  faultId := hid

theorem mem_faultAssetRows {files : Nat → Option Items.StoredFile} {rows : List Items.FaultAsset} {faultIds : List Nat}
    {asset : Reads.FaultAssetRow} (h : asset ∈ Items.faultAssetRows files rows faultIds) : asset.faultId ∈ faultIds := by
  obtain ⟨r, hr, rfl⟩ := List.mem_map.mp h
  rw [List.mem_insertionSort, List.mem_filter] at hr
  exact of_decide_eq_true hr.2

/-- What a response shows of the images that its fault has. -/
theorem reveals_shown {i : Items.Db} {faultId n : Nat} {response : Payload}
    (h : Items.Shown env.reader.toDriver i faultId response) :
    Reveals response n ↔ (n : Int) ∈ i.imageFileIds faultId := by
  obtain ⟨row, rated, -, hid, rfl⟩ := h
  rw [reveals_fault, Items.Db.imageFileIds, List.mem_map]
  constructor
  · rintro ⟨asset, hasset, -, rfl⟩
    exact ⟨asset, hasset, rfl⟩
  · rintro ⟨asset, hasset, hn⟩
    exact ⟨asset, hasset, (List.mem_singleton.mp (mem_faultAssetRows hasset)).trans hid.symm, Int.natCast_inj.mp hn⟩

/-- A call that goes through shows the images of its fault. -/
theorem Report.alone_ok (hd : Unlocked d) (hid : ∀ i r, d.faults.committed i = some r → r.id = i)
    (hx : x.Leads c d userId ids) : ∃ response i, alone clock c (x.code env userId) d = some (.ok response, d.withItems i) ∧
      ∀ n : Nat, Reveals response n ↔ (n : Int) ∈ ids := by
  have hstill : Items.Still (d.items c) := still_items_of hd hid
  cases x with
  | create dto =>
    obtain ⟨rfl, haccepted⟩ := hx
    obtain ⟨response, i, halone, -, hshown, himages⟩ := @Items.createFault_alone env.reader.toDriver (itemsClock clock d) c
      (d.items c) userId dto hstill haccepted.1 haccepted.2
    refine ⟨response, i, items_alone hd halone, fun n => ?_⟩
    rw [reveals_shown hshown, himages]
  | update faultId dto =>
    obtain ⟨⟨row, hrow, huser, hstatus⟩, hlist⟩ := hx
    rcases hgiven : dto.imageFileIds with - | listed
    · rw [hgiven] at hlist
      obtain ⟨response, i, halone, -, hshown, himages⟩ := @Items.updateFault_alone_absent env.reader.toDriver
        (itemsClock clock d) c (d.items c) faultId userId dto row hstill hrow huser hstatus hgiven
      refine ⟨response, i, items_alone hd halone, fun n => ?_⟩
      rw [reveals_shown hshown, himages, hlist]
    · rw [hgiven] at hlist
      obtain ⟨rfl, haccepted⟩ := hlist
      obtain ⟨response, i, halone, -, hshown, himages⟩ := @Items.updateFault_alone_listed env.reader.toDriver
        (itemsClock clock d) c (d.items c) ids faultId userId dto row hstill hrow huser hstatus hgiven haccepted.1
        haccepted.2
      refine ⟨response, i, items_alone hd halone, fun n => ?_⟩
      rw [reveals_shown hshown, himages]

/-- Other calls fail. -/
theorem Report.alone_error (hd : Unlocked d) (hid : ∀ i r, d.faults.committed i = some r → r.id = i)
    (hx : ∀ ids, ¬ x.Leads c d userId ids) : ∃ e d', alone clock c (x.code env userId) d = some (.error e, d') := by
  have hstill : Items.Still (d.items c) := still_items_of hd hid
  cases x with
  | create dto =>
    obtain ⟨e, i, halone, -⟩ := @Items.createFault_alone_error env.reader.toDriver (itemsClock clock d) c (d.items c) userId
      dto hstill fun hv hnodup => hx _ ⟨rfl, hv, hnodup⟩
    exact ⟨e, _, items_alone hd halone⟩
  | update faultId dto =>
    by_cases howned : ∃ row, d.faults.committed faultId = some row ∧ row.userId = userId ∧ row.status = .received
    · rcases hgiven : dto.imageFileIds with - | listed
      · exact absurd ⟨howned, by rw [hgiven]⟩ (hx ((d.items c).imageFileIds faultId))
      · obtain ⟨row, hrow, huser, hstatus⟩ := howned
        obtain ⟨e, i, halone, -⟩ := @Items.updateFault_alone_error env.reader.toDriver (itemsClock clock d) c (d.items c)
          listed faultId userId dto row hstill hrow huser hstatus hgiven fun hv hnodup =>
            hx listed ⟨⟨row, hrow, huser, hstatus⟩, by rw [hgiven]; exact ⟨rfl, hv, hnodup⟩⟩
        exact ⟨e, _, items_alone hd halone⟩
    · obtain ⟨e, i, halone⟩ := @Items.updateFault_alone_refused env.reader.toDriver (itemsClock clock d) c (d.items c)
        faultId userId dto hstill fun row hrow huser hstatus => howned ⟨row, hrow, huser, hstatus⟩
      exact ⟨e, _, items_alone hd halone⟩

theorem Report.Leads.natural (hx : x.Leads c d userId ids) {i : Int} (hi : i ∈ ids) : ∃ n : Nat, i = n := by
  have haccepted (h : Accepted c d ids) : ∃ n : Nat, i = n := by
    obtain ⟨n, -, hn, -⟩ := Items.verdict_ok h.1 hi
    exact ⟨n, hn⟩
  cases x with
  | create dto => exact haccepted hx.2
  | update faultId dto =>
    obtain ⟨-, hlist⟩ := hx
    rcases hgiven : dto.imageFileIds with - | listed
    · rw [hgiven] at hlist
      rw [hlist] at hi
      obtain ⟨asset, -, rfl⟩ := List.mem_map.mp hi
      exact ⟨asset.fileId, rfl⟩
    · rw [hgiven] at hlist
      exact haccepted hlist.2

theorem Report.Leads.listed (hx : x.Leads c d userId ids) {i : Int} (hi : i ∈ x.fileIds) : i ∈ ids := by
  cases x with
  | create dto =>
    rw [hx.1]
    exact hi
  | update faultId dto =>
    obtain ⟨-, hlist⟩ := hx
    change i ∈ dto.imageFileIds.getD [] at hi
    rcases hgiven : dto.imageFileIds with - | listed
    · rw [hgiven] at hi
      cases hi
    · rw [hgiven] at hlist hi
      rw [hlist.1]
      exact hi

/-- A call by a user, with texts that the columns take. -/
structure Report.Valid (userId : Nat) (x : Report) : Prop where
  user : 0 < userId
  texts : x.Storable

/-- The images belong to the reporter exactly where all that the call would leave his fault with are his files. -/
theorem reporter_images_iff (hd : Unlocked d) (hid : ∀ i r, d.faults.committed i = some r → r.id = i)
    (hx : x.Valid userId) : BelongsToReporter env clock c d userId x ↔
      ∀ ids, x.Leads c d userId ids → ∀ i ∈ ids, UploadedBy d userId i := by
  constructor
  · intro h ids hleads i hi
    obtain ⟨response, i', halone, hreveals⟩ := @Report.alone_ok env clock c d userId x ids hd hid hleads
    obtain ⟨-, hshown⟩ := h response _ halone
    obtain ⟨n, rfl⟩ := hleads.natural hi
    by_contra hother
    exact hshown n ((hreveals n).mpr hi) ((refused_iff hx.user).mpr hother)
  · intro h response d' halone
    by_cases hleads : ∃ ids, x.Leads c d userId ids
    · obtain ⟨ids, hleads⟩ := hleads
      obtain ⟨response', i', halone', hreveals⟩ := @Report.alone_ok env clock c d userId x ids hd hid hleads
      rw [halone'] at halone
      cases halone
      refine ⟨fun i hi => h ids hleads i (hleads.listed hi), fun n hn hrefused => ?_⟩
      exact (refused_iff hx.user).mp hrefused (h ids hleads n ((hreveals n).mp hn))
    · obtain ⟨e, d'', herror⟩ := @Report.alone_error env clock c d userId x hd hid fun ids hids => hleads ⟨ids, hids⟩
      rw [herror] at halone
      cases halone

/-- A picture that user 1 has uploaded. -/
def picture : Db := .ofFiles
  [{ id := 1, uploaderUserId := some 1, ownerType := .user, ownerId := none, purpose := .productImage,
     storageProvider := "local", bucket := some "uploads", objectKey := "tap.png", originalFilename := some "tap.png",
     mimeType := some "image/png", fileSizeBytes := none, status := .uploaded, createdAt := 0, updatedAt := 0 }] []

theorem picture_no_fault {i : Nat} {r : Reads.FaultReport} (h : picture.faults.committed i = some r) : r.id = i := by
  have hnone : picture.faults.committed i = none := ite_self none
  rw [hnone] at h
  cases h

/-- A fault is reported with the picture. -/
def leakingTap : Report :=
  .create { title := "Tap", description := "Leaks", severity := .normal, address := "Here", imageFileIds := some [1] }

theorem leakingTap_leads : leakingTap.Leads 0 picture userId [1] :=
  ⟨rfl, rfl, List.nodup_singleton _⟩

theorem reporter_images_own : BelongsToReporter plainEnv (fun _ _ => 0) 0 picture 1 leakingTap ↔
    ∀ ids, leakingTap.Leads 0 picture 1 ids → ∀ i ∈ ids, UploadedBy picture 1 i := by
  have htexts : (Payload.textStorable "Tap" && Payload.textStorable "Leaks" && Payload.textStorable "Here") = true := by
    decide
  exact reporter_images_iff ofFiles_unlocked (fun _ _ h => picture_no_fault h) ⟨by decide, htexts⟩

/-- Another user reports it with the picture. -/
theorem foreign_picture_fails : ¬ BelongsToReporter plainEnv (fun _ _ => 0) 0 picture 2 leakingTap := by
  intro h
  obtain ⟨response, i, halone, -⟩ := @Report.alone_ok plainEnv (fun _ _ => 0) 0 picture 2 leakingTap [1] ofFiles_unlocked
    (fun _ _ h => picture_no_fault h) leakingTap_leads
  obtain ⟨hfiles, -⟩ := h response _ halone
  obtain ⟨n, f, hn, hfile, huploader⟩ := hfiles 1 List.mem_cons_self
  obtain rfl : 1 = n := Int.natCast_inj.mp hn
  cases hfile
  cases huploader

end Calls

end Kayan.Media
