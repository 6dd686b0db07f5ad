import Kayan.Items.Alone
import Kayan.Jsonb
import Kayan.Shop.Stock

/-!
# Fault images

`assertValidFaultImageFiles` looks at the distinct ids of a list, `syncFaultAssets` inserts one row for
each of its entries, and a fault has a file at most once.
-/
namespace Kayan.Items
open RowStore Interleave Shop Reads

section Verdict
variable {clock : Clock} {c : Client} {d : Db} {files : Nat → Option StoredFile} {fileIds : List Int} {i : Int}

/-- An uploaded file of purpose `product_image` with an image type. -/
structure ValidImage (file : StoredFile) : Prop where
  status : file.status = .uploaded
  purpose : file.purpose = .productImage
  mimeType : (file.mimeType.any fun m => "image/".toList.isPrefixOf m.toList) = true

/-- What `assertValidFaultImageFiles` makes of a list. -/
def verdict (files : Nat → Option StoredFile) (fileIds : List Int) : Except Failure Unit :=
  if fileIds.isEmpty then .ok ()
  else
    match selectFiles files fileIds.eraseDups with
    | .error e => .error (.database e)
    | .ok rows =>
      match fileIds.eraseDups.findSome? (imageFileFault rows) with
      | some message => .error (.badRequest message)
      | none => .ok ()

theorem assertValidFaultImageFiles_alone :
    alone clock c (assertValidFaultImageFiles fileIds) d = some (verdict d.files fileIds, d) := by
  unfold assertValidFaultImageFiles verdict
  split
  · rfl
  · have hselect : exec (clock (.selectFiles fileIds.eraseDups) d) c (.selectFiles fileIds.eraseDups) d =
        some (selectFiles d.files fileIds.eraseDups, d) := rfl
    cases hrows : selectFiles d.files fileIds.eraseDups with
    | error e =>
      rw [hrows] at hselect
      exact query_alone_error hselect
    | ok rows =>
      rw [hrows] at hselect
      refine (query_alone hselect).trans ?_
      simp only
      cases fileIds.eraseDups.findSome? (imageFileFault rows) <;> rfl

theorem selectFiles_ok {rows : List (Nat × StoredFile)} (h : selectFiles files fileIds = .ok rows) :
    rows = (fileIds.filterMap Int.toNat?).filterMap fun i => (files i).map fun f => (i, f) := by
  unfold selectFiles at h
  split at h
  · cases h
  · split at h
    · exact (Except.ok.inj h).symm
    · cases h

/-- A file without fault is a valid image. -/
theorem imageFileFault_none {rows : List (Nat × StoredFile)} (h : imageFileFault rows i = none) :
    ∃ row ∈ rows, (row.1 : Int) = i ∧ ValidImage row.2 := by
  unfold imageFileFault at h
  rcases hfind : rows.find? fun row => (row.1 : Int) = i with _ | row
  · rw [hfind] at h
    cases h
  · have hrow := List.find?_some hfind
    rw [hfind] at h
    simp only [Option.map_some] at h
    refine ⟨row, List.mem_of_find?_eq_some hfind, by simpa using hrow, ?_⟩
    split at h
    · cases h
    · rename_i hstatus
      split at h
      · cases h
      · rename_i hpurpose
        split at h
        · rename_i hmime
          exact ⟨not_not.mp hstatus, not_not.mp hpurpose, hmime⟩
        · cases h

/-- Every file of an accepted list is a valid image. -/
theorem verdict_ok (h : verdict files fileIds = .ok ()) (hi : i ∈ fileIds) :
    ∃ n : Nat, ∃ file, i = n ∧ files n = some file ∧ ValidImage file := by
  unfold verdict at h
  split at h
  · rename_i hempty
    rw [List.isEmpty_iff.mp hempty] at hi
    cases hi
  · split at h
    · cases h
    · rename_i rows hrows
      split at h
      · cases h
      · rename_i hnone
        obtain ⟨row, hrow, hkey, hvalid⟩ :=
          imageFileFault_none (List.findSome?_eq_none_iff.mp hnone i (List.mem_eraseDups.mpr hi))
        rw [selectFiles_ok hrows] at hrow
        obtain ⟨n, -, hn⟩ := List.mem_filterMap.mp hrow
        obtain ⟨file, hfile, rfl⟩ := Option.map_eq_some_iff.mp hn
        exact ⟨n, file, hkey.symm, hfile, hvalid⟩

/-- The ids of an accepted list are those of files. -/
theorem verdict_ids (h : verdict files fileIds = .ok ()) :
    ∃ ids : List Nat, fileIds = ids.map (↑) ∧ ∀ n ∈ ids, (files n).isSome = true := by
  refine ⟨fileIds.map Int.toNat, ?_, ?_⟩
  · rw [List.map_map]
    refine (List.map_id _).symm.trans (List.map_congr_left fun i hi => ?_)
    obtain ⟨n, -, rfl, -, -⟩ := verdict_ok h hi
    rfl
  · intro n hn
    obtain ⟨i, hi, rfl⟩ := List.mem_map.mp hn
    obtain ⟨n, file, rfl, hfile, -⟩ := verdict_ok h hi
    simp [hfile]

end Verdict

section Writing
variable {clock : Clock} {c : Client} {d : Db} {faultId i k : Nat} {ids : List Nat}

/-- The rows that the loop of `syncFaultAssets` inserts, from index `i` and key `k`. -/
def assetsFrom (faultId : Nat) : Nat → Nat → List Nat → List FaultAsset
  | _, _, [] => []
  | i, k, fileId :: rest => ⟨k, faultId, fileId, i⟩ :: assetsFrom faultId (i + 1) (k + 1) rest

theorem map_fileId_assetsFrom : (assetsFrom faultId i k ids).map (·.fileId) = ids := by
  induction ids generalizing i k with
  | nil => rfl
  | cons n ids ih => exact congrArg (n :: ·) ih

theorem mem_assetsFrom {r : FaultAsset} (h : r ∈ assetsFrom faultId i k ids) :
    r.faultId = faultId ∧ i ≤ r.sortOrder := by
  induction ids generalizing i k with
  | nil => cases h
  | cons n ids ih =>
    rcases List.mem_cons.mp h with rfl | h
    · exact ⟨rfl, Nat.le_refl i⟩
    · obtain ⟨hf, hs⟩ := ih h
      exact ⟨hf, by omega⟩

/-- The inserted rows are in the order of the asset query. -/
theorem pairwise_assetsFrom : (assetsFrom faultId i k ids).Pairwise
    (orderedBy (·.faultId) .asc (orderedBy (·.sortOrder) .asc fun a b => a.id ≤ b.id)) := by
  induction ids generalizing i k with
  | nil => exact .nil
  | cons n ids ih =>
    refine List.Pairwise.cons (fun r hr => ?_) ih
    obtain ⟨hf, hs⟩ := mem_assetsFrom hr
    refine Or.inr ⟨hf.symm, Or.inl ?_⟩
    exact Nat.lt_of_succ_le hs

theorem deleteFaultAssets_alone (hs : d.faultAssets.Sole c) :
    ∃ t, exec (clock (.deleteFaultAssets faultId) d) c (.deleteFaultAssets faultId) d =
        some (.ok (), { d with faultAssets := t }) ∧ t.Sole c ∧ (∀ i, t.committed i = d.faultAssets.committed i) ∧
      t.rows c = (d.faultAssets.rows c).filter fun r => !decide (r.faultId = faultId) := by
  obtain ⟨t, ht, hsole, -, hsame, hrows⟩ := hs.deleteWhere (p := fun r => decide (r.faultId = faultId))
  refine ⟨t, ?_, hsole, hsame, hrows⟩
  have hdelete : deleteFaultAssets c faultId d.faultAssets = some t := ht
  simp only [exec, hdelete, Option.map_some]

theorem insertFaultAsset_alone {n : Nat} (hfile : (d.files n).isSome = true)
    (hnew : ∀ r ∈ d.faultAssets.rows c, r.faultId = faultId → r.fileId ≠ n) :
    exec (clock (.insertFaultAsset faultId n i) d) c (.insertFaultAsset faultId n i) d =
      some (.ok (), { d with faultAssets := d.faultAssets.insert c ⟨d.faultAssets.next, faultId, n, i⟩ }) := by
  have hrows : ((d.faultAssets.rows c).any fun r => r.faultId = faultId ∧ (r.fileId : Int) = n) = false := by
    rw [List.any_eq_false]
    intro r hr
    have := hnew r hr
    simp only [decide_eq_true_eq, not_and, Int.natCast_inj]
    exact this
  have hn : ((n : Int).toNat?.filter fun i => (d.files i).isSome) = some n := by
    change ((some n).filter _) = _
    rw [Option.filter_some, if_pos hfile]
  simp only [exec, hrows, hn, Bool.false_eq_true, if_false]

theorem insertFaultAsset_alone_error {n : Nat} {r : FaultAsset} (hr : r ∈ d.faultAssets.rows c)
    (hf : r.faultId = faultId) (hn : r.fileId = n) :
    exec (clock (.insertFaultAsset faultId n i) d) c (.insertFaultAsset faultId n i) d =
      some (.error .uniqueViolation, d) := by
  have hrows : ((d.faultAssets.rows c).any fun r => r.faultId = faultId ∧ (r.fileId : Int) = n) = true := by
    rw [List.any_eq_true]
    exact ⟨r, hr, by simp [hf, hn]⟩
  simp only [exec, hrows, if_true]

/-- The loop, over distinct files that the fault does not have. -/
theorem insertFaultAssets_alone (hs : d.faultAssets.Sole c) (hfiles : ∀ n ∈ ids, (d.files n).isSome = true)
    (hnew : ∀ r ∈ d.faultAssets.rows c, r.faultId = faultId → r.fileId ∉ ids) (hnodup : ids.Nodup) :
    ∃ t, alone clock c (insertFaultAssets faultId i (ids.map (↑))) d = some (.ok (), { d with faultAssets := t }) ∧
      t.Sole c ∧ t.rows c = d.faultAssets.rows c ++ assetsFrom faultId i d.faultAssets.next ids := by
  induction ids generalizing d i with
  | nil => exact ⟨d.faultAssets, rfl, hs, (List.append_nil _).symm⟩
  | cons n ids ih =>
    obtain ⟨hn, hnodup⟩ := List.nodup_cons.mp hnodup
    have hstep := @insertFaultAsset_alone clock c d faultId i n (hfiles n List.mem_cons_self) fun r hr hf he =>
      hnew r hr hf (he ▸ List.mem_cons_self)
    have hclear : ∀ r ∈ (d.faultAssets.insert c ⟨d.faultAssets.next, faultId, n, i⟩).rows c,
        r.faultId = faultId → r.fileId ∉ ids := by
      intro r hr hf
      rw [Table.rows_insert] at hr
      rcases List.mem_append.mp hr with hr | hr
      · exact fun hmem => hnew r hr hf (List.mem_cons_of_mem _ hmem)
      · rw [List.mem_singleton.mp hr]
        exact hn
    obtain ⟨t, ht, hsole, hrows⟩ :=
      @ih { d with faultAssets := d.faultAssets.insert c ⟨d.faultAssets.next, faultId, n, i⟩ } (i + 1)
        hs.insert (fun m hm => hfiles m (List.mem_cons_of_mem _ hm)) hclear hnodup
    refine ⟨t, (query_alone hstep).trans ht, hsole, hrows.trans ?_⟩
    rw [Table.rows_insert, List.append_assoc]
    rfl

/-- Over files that repeat, or one that the fault has, it ends in a unique violation. -/
theorem insertFaultAssets_alone_error (hs : d.faultAssets.Sole c) (hfiles : ∀ n ∈ ids, (d.files n).isSome = true)
    (hold : (∃ r ∈ d.faultAssets.rows c, r.faultId = faultId ∧ r.fileId ∈ ids) ∨ ¬ ids.Nodup) :
    ∃ t, alone clock c (insertFaultAssets faultId i (ids.map (↑))) d =
        some (.error (.database .uniqueViolation), { d with faultAssets := t }) ∧ t.Sole c ∧
      ∀ j, t.committed j = d.faultAssets.committed j := by
  induction ids generalizing d i with
  | nil =>
    rcases hold with ⟨r, -, -, hmem⟩ | hnodup
    · cases hmem
    · exact absurd List.nodup_nil hnodup
  | cons n ids ih =>
    by_cases hclash : ∃ r ∈ d.faultAssets.rows c, r.faultId = faultId ∧ r.fileId = n
    · obtain ⟨r, hr, hf, hn⟩ := hclash
      have hstep := @insertFaultAsset_alone_error clock c d faultId i n r hr hf hn
      exact ⟨d.faultAssets, query_alone_error hstep, hs, fun _ => rfl⟩
    · have hstep := @insertFaultAsset_alone clock c d faultId i n (hfiles n List.mem_cons_self) fun r hr hf he =>
        hclash ⟨r, hr, hf, he⟩
      have hrest : (∃ r ∈ (d.faultAssets.insert c ⟨d.faultAssets.next, faultId, n, i⟩).rows c,
          r.faultId = faultId ∧ r.fileId ∈ ids) ∨ ¬ ids.Nodup := by
        rw [Table.rows_insert]
        by_cases hn : n ∈ ids
        · exact Or.inl ⟨⟨d.faultAssets.next, faultId, n, i⟩, by simp, rfl, hn⟩
        · rcases hold with ⟨r, hr, hf, hmem⟩ | hnodup
          · have hids : r.fileId ∈ ids := by
              rcases List.mem_cons.mp hmem with he | hmem
              · exact absurd ⟨r, hr, hf, he⟩ hclash
              · exact hmem
            exact Or.inl ⟨r, List.mem_append_left _ hr, hf, hids⟩
          · exact Or.inr fun h => hnodup (List.nodup_cons.mpr ⟨hn, h⟩)
      obtain ⟨t, ht, hsole, hsame⟩ :=
        @ih { d with faultAssets := d.faultAssets.insert c ⟨d.faultAssets.next, faultId, n, i⟩ } (i + 1)
          hs.insert (fun m hm => hfiles m (List.mem_cons_of_mem _ hm)) hrest
      exact ⟨t, (query_alone hstep).trans ht, hsole, fun j => (hsame j).trans Table.committed_insert⟩

/-- The images of a fault, after the rows of the loop have taken the place of its rows. -/
theorem images_replaced {files : Nat → Option StoredFile} {old : List FaultAsset} :
    (faultAssetRows files ((old.filter fun r => !decide (r.faultId = faultId)) ++ assetsFrom faultId i k ids)
      [faultId]).map (·.fileId) = ids := by
  have hrows : ((old.filter fun r => !decide (r.faultId = faultId)) ++ assetsFrom faultId i k ids).filter
      (fun r => r.faultId ∈ [faultId]) = assetsFrom faultId i k ids := by
    rw [List.filter_append]
    have hnone : (old.filter fun r => !decide (r.faultId = faultId)).filter (fun r => r.faultId ∈ [faultId]) = [] := by
      simp
    have hall : (assetsFrom faultId i k ids).filter (fun r => r.faultId ∈ [faultId]) = assetsFrom faultId i k ids := by
      rw [List.filter_eq_self]
      intro r hr
      simp [(mem_assetsFrom hr).1]
    rw [hnone, hall, List.nil_append]
  unfold faultAssetRows
  rw [hrows, List.map_map, pairwise_assetsFrom.insertionSort_eq]
  exact map_fileId_assetsFrom

end Writing

section Calls
variable (drv : Driver) (clock : Clock) (c : Client)

/-- The files of a fault's images, in the order of the asset query. -/
def Db.imageFileIds (d : Db) (faultId : Nat) : List Int :=
  (faultAssetRows d.files d.faultAssets.committedRows [faultId]).map fun r => (r.fileId : Int)

/-- A call that attaches images to a fault, less their ids. -/
inductive Attachment where
  | create (userId : Nat) (dto : CreateFaultDto)
  | update (userId faultId : Nat) (dto : UpdateFaultDto)

def Attachment.code (fileIds : List Int) : Attachment → Code Payload
  | .create userId dto => createFault drv userId { dto with imageFileIds := some fileIds }
  | .update userId faultId dto => updateFault drv userId faultId { dto with imageFileIds := some fileIds }

/-- The fault of a call. -/
def Attachment.faultId (d : Db) : Attachment → Nat
  | .create _ _ => d.faults.next
  | .update _ faultId _ => faultId

/-- The columns take the texts of the call, and the fault that it updates is in its first status
and belongs to the caller. -/
def Attachment.Ready (d : Db) : Attachment → Prop
  | .create _ dto => (Payload.textStorable dto.title && Payload.textStorable dto.description && Payload.textStorable dto.address) = true
  | .update userId faultId dto =>
    (dto.title.all Payload.textStorable && dto.description.all Payload.textStorable && dto.address.all Payload.textStorable) = true ∧
      ∃ row, d.faults.committed faultId = some row ∧ row.userId = userId ∧ row.status = .received

/-- `assertValidFaultImageFiles` accepts the list. -/
def Accepts (fileIds : List Int) (d : Db) : Prop :=
  alone clock c (assertValidFaultImageFiles fileIds) d = some (.ok (), d)

/-- Of an accepted list the distinct files become the images, in order of first occurrence; a rejected
one leaves the fault and its images as they are. -/
def StoredAsGiven (x : Attachment) (fileIds : List Int) (d : Db) : Prop :=
  (Accepts clock c fileIds d → ∃ response d', alone clock c (x.code drv fileIds) d = some (.ok response, d') ∧
    d'.imageFileIds (x.faultId d) = fileIds.eraseDups) ∧
  (¬ Accepts clock c fileIds d → ∃ e d', alone clock c (x.code drv fileIds) d = some (.error e, d') ∧ Same d d')

variable {drv clock c} {d : Db} {fileIds : List Int} {faultId : Nat}

theorem accepts_iff : Accepts clock c fileIds d ↔ verdict d.files fileIds = .ok () := by
  unfold Accepts
  rw [assertValidFaultImageFiles_alone]
  simp

/-- Distinct accepted files take the place of the images that the fault has. -/
theorem syncFaultAssets_alone (hs : d.faultAssets.Sole c) (h : verdict d.files fileIds = .ok ())
    (hnodup : fileIds.Nodup) :
    ∃ t, alone clock c (syncFaultAssets faultId fileIds) d = some (.ok (), { d with faultAssets := t }) ∧
      t.Sole c ∧ (faultAssetRows d.files (t.rows c) [faultId]).map (fun r => (r.fileId : Int)) = fileIds := by
  obtain ⟨ids, rfl, hfiles⟩ := verdict_ids h
  have hcheck := @assertValidFaultImageFiles_alone clock c d (ids.map (↑))
  rw [h] at hcheck
  obtain ⟨t, hdelete, hsole, -, hrows⟩ := @deleteFaultAssets_alone clock c d faultId hs
  have hclear : ∀ r ∈ t.rows c, r.faultId = faultId → r.fileId ∉ ids := by
    intro r hr hf
    rw [hrows, List.mem_filter] at hr
    simp [hf] at hr
  obtain ⟨t', ht', hsole', hrows'⟩ := @insertFaultAssets_alone clock c { d with faultAssets := t } faultId 0 ids
    hsole hfiles hclear (List.Nodup.of_map _ hnodup)
  refine ⟨t', (bind_alone hcheck).trans ((query_alone hdelete).trans ht'), hsole', ?_⟩
  have himages := @images_replaced faultId 0 t.next ids d.files (d.faultAssets.rows c)
  rw [hrows', hrows]
  have hcast := congrArg (List.map fun n : Nat => (n : Int)) himages
  rwa [List.map_map] at hcast

theorem syncFaultAssets_alone_error (hs : d.faultAssets.Sole c)
    (h : verdict d.files fileIds = .ok () → ¬ fileIds.Nodup) :
    ∃ e t, alone clock c (syncFaultAssets faultId fileIds) d = some (.error e, { d with faultAssets := t }) ∧
      ∀ i, t.committed i = d.faultAssets.committed i := by
  have hcheck := @assertValidFaultImageFiles_alone clock c d fileIds
  rcases hv : verdict d.files fileIds with e | u
  · rw [hv] at hcheck
    exact ⟨e, d.faultAssets, bind_alone_error hcheck, fun _ => rfl⟩
  · rw [hv] at hcheck
    obtain ⟨ids, rfl, hfiles⟩ := verdict_ids hv
    have hrepeat : ¬ ids.Nodup := fun hnodup => h hv (hnodup.map Nat.cast_injective)
    obtain ⟨t, hdelete, hsole, hsame, -⟩ := @deleteFaultAssets_alone clock c d faultId hs
    obtain ⟨t', ht', -, hsame'⟩ := @insertFaultAssets_alone_error clock c { d with faultAssets := t } faultId 0 ids
      hsole hfiles (Or.inr hrepeat)
    exact ⟨_, t', (bind_alone hcheck).trans ((query_alone hdelete).trans ht'), fun i => (hsame' i).trans (hsame i)⟩

/-- A response with the fault and its images as they are in the store. -/
def Shown (drv : Driver) (d : Db) (faultId : Nat) (response : Payload) : Prop :=
  ∃ row rated, d.faults.committed faultId = some row ∧ row.id = faultId ∧
    response = .obj [("fault", faultPayload drv (faultAssetRows d.files d.faultAssets.committedRows [faultId])
      ⟨row, rated⟩)]

/-- What a transaction reads of its fault at the end is what its commit publishes. -/
theorem getFault_shown {userId : Nat} {row : FaultReport} (hrow : d.faults.view c faultId = some row)
    (hid : row.id = faultId) : ∃ response,
      alone clock c (getFaultForUserWithExecutor drv .client userId faultId true) d = some (.ok response, d) ∧
        Shown drv (d.commit c) faultId response := by
  obtain ⟨rated, hget⟩ := @getFault_alone c d clock drv userId faultId row hrow hid
  refine ⟨_, hget, row, rated, Table.committed_commit_eq_view.trans hrow, hid, ?_⟩
  have hrows : (d.commit c).faultAssets.committedRows = d.faultAssets.rows c := Table.committedRows_commit_eq_rows
  rw [hrows]
  rfl

theorem imageFileIds_commit {t : Table Client FaultAsset}
    (h : (faultAssetRows d.files (t.rows c) [faultId]).map (fun r => (r.fileId : Int)) = fileIds) :
    (({ d with faultAssets := t } : Db).commit c).imageFileIds faultId = fileIds := by
  have hrows : (({ d with faultAssets := t } : Db).commit c).faultAssets.committedRows = t.rows c :=
    Table.committedRows_commit_eq_rows
  rw [Db.imageFileIds, hrows]
  exact h

theorem createFault_alone {userId : Nat} {dto : CreateFaultDto} (hd : Still d)
    (hv : verdict d.files (dto.imageFileIds.getD []) = .ok ()) (hnodup : (dto.imageFileIds.getD []).Nodup) :
    ∃ response d', alone clock c (createFault drv userId dto) d = some (.ok response, d') ∧ d'.files = d.files ∧
      Shown drv d' d.faults.next response ∧ d'.imageFileIds d.faults.next = dto.imageFileIds.getD [] := by
  let now := clock (.insertFault userId dto) d
  let row : FaultReport :=
    { id := d.faults.next, userId, title := dto.title, description := dto.description, severity := dto.severity,
      address := dto.address, createdAt := now, updatedAt := now }
  let inserted : Db := { d with faults := d.faults.insert c row }
  have hinsert : exec now c (.insertFault userId dto) d = some (.ok d.faults.next, inserted) := rfl
  obtain ⟨t, hsync, -, himages⟩ := @syncFaultAssets_alone clock c inserted (dto.imageFileIds.getD [])
    d.faults.next hd.unlocked.faultAssets.sole hv hnodup
  let noted : Db := { inserted with faultAssets := t, faultHistory := d.faultHistory.insert c ⟨d.faults.next, .received, userId⟩ }
  have hnote : exec (clock (.insertFaultHistory .client d.faults.next .received userId) { inserted with faultAssets := t })
      c (.insertFaultHistory .client d.faults.next .received userId) { inserted with faultAssets := t } =
        some (.ok (), noted) := rfl
  have hview : noted.faults.view c d.faults.next = some row := by
    change (d.faults.insert c row).view c d.faults.next = some row
    rw [Table.view_insert, if_pos rfl]
  obtain ⟨response, hget, hshown⟩ := @getFault_shown drv clock c noted d.faults.next userId row hview rfl
  refine ⟨response, noted.commit c, withTransaction_alone ?_, rfl, hshown, ?_⟩
  · exact (query_alone hinsert).trans ((bind_alone hsync).trans ((query_alone hnote).trans hget))
  · exact @imageFileIds_commit c noted (dto.imageFileIds.getD []) d.faults.next t himages

/-- A list that is rejected or repeats a file: nothing is created. -/
theorem createFault_alone_error {userId : Nat} {dto : CreateFaultDto} (hd : Still d)
    (h : verdict d.files (dto.imageFileIds.getD []) = .ok () → ¬ (dto.imageFileIds.getD []).Nodup) :
    ∃ e d', alone clock c (createFault drv userId dto) d = some (.error e, d') ∧ Same d d' := by
  let now := clock (.insertFault userId dto) d
  let row : FaultReport :=
    { id := d.faults.next, userId, title := dto.title, description := dto.description, severity := dto.severity,
      address := dto.address, createdAt := now, updatedAt := now }
  let inserted : Db := { d with faults := d.faults.insert c row }
  have hinsert : exec now c (.insertFault userId dto) d = some (.ok d.faults.next, inserted) := rfl
  obtain ⟨e, t, hsync, hsame⟩ := @syncFaultAssets_alone_error clock c inserted (dto.imageFileIds.getD [])
    d.faults.next hd.unlocked.faultAssets.sole h
  refine ⟨e, _, withTransaction_alone_error ((query_alone hinsert).trans (bind_alone_error hsync)), ?_⟩
  have hwritten : Same d { inserted with faultAssets := t } :=
    { Same.refl with faults := fun _ => Table.committed_insert, faultAssets := hsame }
  exact hwritten.trans same_rollback

section Update
variable {userId : Nat} {dto : UpdateFaultDto} {row : FaultReport}

/-- The first statements of `updateFault`: the check of the status, and the update of the row. -/
theorem updateFault_alone (hd : Still d) (hrow : d.faults.committed faultId = some row) (hu : row.userId = userId)
    (hstatus : row.status = .received) {f : Code Payload} {now : Nat}
    (hnow : now = clock (.updateFault dto faultId) d) :
    alone clock c (do
        let status : Option FaultStatus ← query (.selectOwnFaultStatus .client faultId userId)
        match status with
        | none => notFound "Fault not found"
        | some status =>
          if status ≠ .received then badRequest "Fault can only be updated before processing starts"
          else
            query (.updateFault dto faultId)
            f) d =
      alone clock c f { d with faults := d.faults.write c faultId (some (dto.apply now row)) } := by
  have hview : d.faults.view c faultId = some row := hd.unlocked.faults.view.trans hrow
  have hselect : exec (clock (.selectOwnFaultStatus .client faultId userId) d) c
      (.selectOwnFaultStatus .client faultId userId) d = some (.ok (some .received), d) := by
    simp [exec, rowFor, hview, Option.filter, hu, hstatus]
  have hupdate : exec now c (.updateFault dto faultId) d =
      some (.ok (), { d with faults := d.faults.write c faultId (some (dto.apply now row)) }) := by
    simp only [exec, hview, hd.unlocked.faults.sole faultId, if_true]
  subst hnow
  refine (query_alone hselect).trans ?_
  simp only [ne_eq, not_true, if_false]
  exact query_alone hupdate

/-- An update that gives no list keeps the images. -/
theorem updateFault_alone_absent (hd : Still d) (hrow : d.faults.committed faultId = some row)
    (hu : row.userId = userId) (hstatus : row.status = .received) (hlist : dto.imageFileIds = none) :
    ∃ response d', alone clock c (updateFault drv userId faultId dto) d = some (.ok response, d') ∧
      d'.files = d.files ∧ Shown drv d' faultId response ∧ d'.imageFileIds faultId = d.imageFileIds faultId := by
  have hid : row.id = faultId := hd.faultId faultId row hrow
  let now := clock (.updateFault dto faultId) d
  let written : Db := { d with faults := d.faults.write c faultId (some (dto.apply now row)) }
  have hview : written.faults.view c faultId = some (dto.apply now row) := by
    refine (Table.view_write (Table.lt_of_committed hrow)).trans ?_
    rw [if_pos rfl]
  obtain ⟨response, hget, hshown⟩ := @getFault_shown drv clock c written faultId userId _ hview hid
  refine ⟨response, written.commit c, withTransaction_alone ?_, rfl, hshown, ?_⟩
  · refine (updateFault_alone hd hrow hu hstatus rfl).trans ?_
    rw [hlist]
    exact hget
  · refine @imageFileIds_commit c written (d.imageFileIds faultId) faultId d.faultAssets ?_
    rw [hd.unlocked.faultAssets.rows]
    rfl

theorem updateFault_alone_listed (hd : Still d) (hrow : d.faults.committed faultId = some row)
    (hu : row.userId = userId) (hstatus : row.status = .received) (hlist : dto.imageFileIds = some fileIds)
    (hv : verdict d.files fileIds = .ok ()) (hnodup : fileIds.Nodup) :
    ∃ response d', alone clock c (updateFault drv userId faultId dto) d = some (.ok response, d') ∧
      d'.files = d.files ∧ Shown drv d' faultId response ∧ d'.imageFileIds faultId = fileIds := by
  have hid : row.id = faultId := hd.faultId faultId row hrow
  let now := clock (.updateFault dto faultId) d
  let written : Db := { d with faults := d.faults.write c faultId (some (dto.apply now row)) }
  obtain ⟨t, hsync, -, himages⟩ := @syncFaultAssets_alone clock c written fileIds faultId
    hd.unlocked.faultAssets.sole hv hnodup
  let synced : Db := { written with faultAssets := t }
  have hview : synced.faults.view c faultId = some (dto.apply now row) := by
    refine (Table.view_write (Table.lt_of_committed hrow)).trans ?_
    rw [if_pos rfl]
  obtain ⟨response, hget, hshown⟩ := @getFault_shown drv clock c synced faultId userId _ hview hid
  refine ⟨response, synced.commit c, withTransaction_alone ?_, rfl, hshown, ?_⟩
  · refine (updateFault_alone hd hrow hu hstatus rfl).trans ?_
    rw [hlist]
    exact (bind_alone hsync).trans hget
  · exact @imageFileIds_commit c written fileIds faultId t himages

theorem updateFault_alone_error (hd : Still d) (hrow : d.faults.committed faultId = some row)
    (hu : row.userId = userId) (hstatus : row.status = .received) (hlist : dto.imageFileIds = some fileIds)
    (h : verdict d.files fileIds = .ok () → ¬ fileIds.Nodup) :
    ∃ e d', alone clock c (updateFault drv userId faultId dto) d = some (.error e, d') ∧ Same d d' := by
  let now := clock (.updateFault dto faultId) d
  let written : Db := { d with faults := d.faults.write c faultId (some (dto.apply now row)) }
  obtain ⟨e, t, hsync, hsame⟩ := @syncFaultAssets_alone_error clock c written fileIds faultId
    hd.unlocked.faultAssets.sole h
  have hwritten : Same d { written with faultAssets := t } :=
    { Same.refl with faults := fun _ => Table.committed_write, faultAssets := hsame }
  refine ⟨e, _, withTransaction_alone_error ?_, hwritten.trans same_rollback⟩
  refine (updateFault_alone hd hrow hu hstatus rfl).trans ?_
  rw [hlist]
  exact bind_alone_error hsync

end Update

/-- A fault that is not the caller's, or no longer in its first status, is not updated. -/
theorem updateFault_alone_refused {userId : Nat} {dto : UpdateFaultDto} (hd : Still d)
    (h : ∀ row, d.faults.committed faultId = some row → row.userId = userId → row.status ≠ .received) :
    ∃ e d', alone clock c (updateFault drv userId faultId dto) d = some (.error e, d') := by
  have hselect : exec (clock (.selectOwnFaultStatus .client faultId userId) d) c
      (.selectOwnFaultStatus .client faultId userId) d =
        some (.ok (((d.faults.committed faultId).filter fun r => r.userId = userId).map (·.status)), d) := by
    simp only [exec, rowFor, hd.unlocked.faults.view]
  rcases hown : (d.faults.committed faultId).filter fun r => r.userId = userId with - | row
  · rw [hown] at hselect
    exact ⟨_, _, withTransaction_alone_error ((query_alone hselect).trans rfl)⟩
  · obtain ⟨hrow, huser⟩ := Option.filter_eq_some_iff.mp hown
    rw [hown] at hselect
    refine ⟨.badRequest "Fault can only be updated before processing starts", d.rollback c,
      withTransaction_alone_error ((query_alone hselect).trans ?_)⟩
    simp only [Option.map_some, ne_eq, h row hrow (of_decide_eq_true huser), not_false_eq_true, if_true]
    rfl

variable {x : Attachment}

theorem Attachment.alone_ok (hd : Still d) (hx : x.Ready d) (hv : verdict d.files fileIds = .ok ())
    (hnodup : fileIds.Nodup) : ∃ response d', alone clock c (x.code drv fileIds) d = some (.ok response, d') ∧
      d'.imageFileIds (x.faultId d) = fileIds := by
  cases x with
  | create userId dto =>
    obtain ⟨response, d', halone, -, -, himages⟩ := @createFault_alone drv clock c d userId
      { dto with imageFileIds := some fileIds } hd hv hnodup
    exact ⟨response, d', halone, himages⟩
  | update userId faultId dto =>
    obtain ⟨-, row, hrow, hu, hstatus⟩ := hx
    obtain ⟨response, d', halone, -, -, himages⟩ := @updateFault_alone_listed drv clock c d fileIds faultId userId
      { dto with imageFileIds := some fileIds } row hd hrow hu hstatus rfl hv hnodup
    exact ⟨response, d', halone, himages⟩

theorem Attachment.alone_error (hd : Still d) (hx : x.Ready d)
    (h : verdict d.files fileIds = .ok () → ¬ fileIds.Nodup) :
    ∃ e d', alone clock c (x.code drv fileIds) d = some (.error e, d') ∧ Same d d' := by
  cases x with
  | create userId dto => exact createFault_alone_error hd h
  | update userId faultId dto =>
    obtain ⟨-, row, hrow, hu, hstatus⟩ := hx
    exact updateFault_alone_error hd hrow hu hstatus rfl h

theorem eraseDups_of_nodup (h : fileIds.Nodup) : fileIds.eraseDups = fileIds := by
  induction fileIds with
  | nil => rfl
  | cons i fileIds ih =>
    obtain ⟨hi, hrest⟩ := List.nodup_cons.mp h
    have hfilter : fileIds.filter (fun j => !j == i) = fileIds := by
      rw [List.filter_eq_self]
      intro j hj
      have hne : j ≠ i := fun he => hi (he ▸ hj)
      simp [hne]
    rw [List.eraseDups_cons, hfilter, ih hrest]

/-- The images are stored as given exactly where an accepted list has no repetition. -/
theorem images_stored_iff (hd : Still d) (hx : x.Ready d) :
    StoredAsGiven drv clock c x fileIds d ↔ (Accepts clock c fileIds d → fileIds.Nodup) := by
  constructor
  · rintro ⟨hstored, -⟩ haccepts
    by_contra hnodup
    obtain ⟨response, d', halone, -⟩ := hstored haccepts
    obtain ⟨e, d'', herror, -⟩ := @Attachment.alone_error drv clock c d fileIds x hd hx fun _ => hnodup
    rw [halone] at herror
    cases herror
  · intro h
    constructor
    · intro haccepts
      have hnodup := h haccepts
      obtain ⟨response, d', halone, himages⟩ := @Attachment.alone_ok drv clock c d fileIds x hd hx
        (accepts_iff.mp haccepts) hnodup
      exact ⟨response, d', halone, himages.trans (eraseDups_of_nodup hnodup).symm⟩
    · intro hrejects
      exact Attachment.alone_error hd hx fun hv => absurd (accepts_iff.mpr hv) hrejects

/-- No fault yet; file 1 is an uploaded photo. -/
def photographed : Db where
  shop := stocked []
  faults := ⟨1, fun _ => {}, fun _ _ => rfl⟩
  faultHistory := .ofRows []
  faultAssets := .ofRows []
  services := .ofRows []
  serviceHistory := .ofRows []
  files i := if i = 1 then some ⟨.productImage, "product/temp/1-photo", some "photo.jpg", some "image/jpeg", .uploaded⟩ else none
  ratings := []

theorem photographed_still : Still photographed where
  unlocked :=
    { shop := ⟨fun _ => rfl, fun _ => rfl, fun _ => rfl, fun _ => rfl, fun _ => rfl⟩
      faults := fun _ => rfl
      faultHistory := fun _ => rfl
      faultAssets := fun _ => rfl
      services := fun _ => rfl
      serviceHistory := fun _ => rfl }
  faultId _ _ h := by cases h

def leak : Attachment := .create 7 { title := "Leak", description := "Kitchen", severity := .high, address := "Giza" }

theorem leak_ready : leak.Ready photographed := rfl

theorem images_stored_leak :
    StoredAsGiven plainDriver (fun _ _ => 0) 0 leak [1] photographed ↔
      (Accepts (fun _ _ => 0) 0 [1] photographed → [(1 : Int)].Nodup) :=
  images_stored_iff photographed_still leak_ready

/-- File 1 twice: the list is accepted, and the report fails. -/
theorem images_repeated_fail : ¬ StoredAsGiven plainDriver (fun _ _ => 0) 0 leak [1, 1] photographed := by
  rintro ⟨hstored, -⟩
  have haccepts : Accepts (fun _ _ => 0) 0 [1, 1] photographed := accepts_iff.mpr (by decide)
  obtain ⟨response, d', halone, -⟩ := hstored haccepts
  obtain ⟨e, d'', herror, -⟩ := @Attachment.alone_error plainDriver (fun _ _ => 0) 0 photographed [1, 1] leak
    photographed_still leak_ready fun _ => by decide
  rw [halone] at herror
  cases herror

end Calls

end Kayan.Items
