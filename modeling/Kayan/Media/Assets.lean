import Kayan.Lib.Paging
import Kayan.Media.Alone

/-!
# Replacing the assets of a product

`adminUpdateProduct` replaces the images, then the files. Both kinds share one unique key, so a file of
one kind cannot be given to the other while the old row stands.
-/
namespace Kayan.Media
open RowStore Interleave Shop Reads Products
open Paging (filter_insertionSort)

section Rows
variable {files : Nat → Option File} {rows : List ProductAsset} {productId i k : Nat} {kind kind' : AssetType}
  {ids : List Nat} {n : Int}

/-- The order of the asset query: by type, sort order and id. -/
def AssetOrder : ProductAsset → ProductAsset → Prop :=
  orderedBy (rank ·.assetType) .asc (orderedBy (·.sortOrder) .asc fun a b => a.id ≤ b.id)

instance : DecidableRel AssetOrder :=
  inferInstanceAs (DecidableRel (orderedBy (rank ·.assetType) .asc
    (orderedBy (·.sortOrder) .asc fun a b : ProductAsset => a.id ≤ b.id)))

/-- The files of one kind of a product's assets, in the order of the asset query. -/
def fileIdsOf (rows : List ProductAsset) (productId : Nat) (kind : AssetType) : List Int :=
  ((rows.filter fun pa => pa.productId = productId && pa.assetType = kind).insertionSort AssetOrder).map fun pa =>
    (pa.fileId : Int)

theorem mem_fileIdsOf : n ∈ fileIdsOf rows productId kind ↔
    ∃ pa ∈ rows, pa.productId = productId ∧ pa.assetType = kind ∧ (pa.fileId : Int) = n := by
  simp only [fileIdsOf, List.mem_map, List.mem_insertionSort, List.mem_filter, Bool.and_eq_true, decide_eq_true_eq]
  constructor
  · rintro ⟨pa, ⟨hrow, hproduct, hkind⟩, hn⟩
    exact ⟨pa, hrow, hproduct, hkind, hn⟩
  · rintro ⟨pa, hrow, hproduct, hkind, hn⟩
    exact ⟨pa, ⟨hrow, hproduct, hkind⟩, hn⟩

/-- What `attachProductAssets` collects of one kind. -/
theorem bucket_assetRows : (bucket kind (assetRows files rows productId)).map (fun row => (row.fileId : Int)) =
    fileIdsOf rows productId kind := by
  have htotal (a b : ProductAsset) : AssetOrder a b ∨ AssetOrder b a :=
    orderedBy_total (orderedBy_total fun a b => le_total a.id b.id) a b
  have htrans (a b c : ProductAsset) : AssetOrder a b → AssetOrder b c → AssetOrder a c :=
    orderedBy_trans fun a b c => orderedBy_trans fun a b c => le_trans
  have hsort : ((rows.filter fun pa => pa.productId = productId).insertionSort AssetOrder).filter
      (fun pa => decide (pa.assetType = kind)) = _ := filter_insertionSort htotal htrans
  have hboth : (fun pa : ProductAsset => pa.assetType = kind && decide (pa.productId = productId)) =
      fun pa => pa.productId = productId && decide (pa.assetType = kind) := funext fun pa => Bool.and_comm ..
  rw [List.filter_filter, hboth] at hsort
  unfold bucket assetRows fileIdsOf
  rw [List.filter_map, List.map_map, List.map_map, ← hsort]
  rfl

/-- The rows that `syncProductAssets` inserts, from index `i` and key `k`. -/
def assetsFrom (productId : Nat) (kind : AssetType) : Nat → Nat → List Nat → List ProductAsset
  | _, _, [] => []
  | i, k, fileId :: rest => ⟨k, productId, fileId, kind, i⟩ :: assetsFrom productId kind (i + 1) (k + 1) rest

theorem map_fileId_assetsFrom :
    (assetsFrom productId kind i k ids).map (fun pa => (pa.fileId : Int)) = ids.map (↑) := by
  induction ids generalizing i k with
  | nil => rfl
  | cons n ids ih => exact congrArg ((n : Int) :: ·) ih

theorem mem_assetsFrom {pa : ProductAsset} (h : pa ∈ assetsFrom productId kind i k ids) :
    pa.productId = productId ∧ pa.assetType = kind ∧ i ≤ pa.sortOrder := by
  induction ids generalizing i k with
  | nil => cases h
  | cons n ids ih =>
    rcases List.mem_cons.mp h with rfl | h
    · exact ⟨rfl, rfl, Nat.le_refl i⟩
    · obtain ⟨hproduct, hkind, hi⟩ := ih h
      exact ⟨hproduct, hkind, by omega⟩

/-- The inserted rows are in the order of the asset query. -/
theorem pairwise_assetsFrom : (assetsFrom productId kind i k ids).Pairwise AssetOrder := by
  induction ids generalizing i k with
  | nil => exact .nil
  | cons n ids ih =>
    refine List.Pairwise.cons (fun pa hpa => ?_) ih
    obtain ⟨-, hkind, hi⟩ := mem_assetsFrom hpa
    refine Or.inr ⟨congrArg rank hkind.symm, Or.inl ?_⟩
    exact Nat.lt_of_succ_le hi

/-- The rows of one kind of a product, replaced by new ones. -/
def replaced (rows : List ProductAsset) (productId : Nat) (kind : AssetType) (k : Nat) (ids : List Nat) :
    List ProductAsset :=
  (rows.filter fun pa => !(pa.productId = productId && pa.assetType = kind)) ++ assetsFrom productId kind 0 k ids

theorem fileIdsOf_replaced : fileIdsOf (replaced rows productId kind k ids) productId kind = ids.map (↑) := by
  have hrows : (replaced rows productId kind k ids).filter
      (fun pa => pa.productId = productId && pa.assetType = kind) = assetsFrom productId kind 0 k ids := by
    have hnone : (rows.filter fun pa => !(pa.productId = productId && pa.assetType = kind)).filter
        (fun pa => pa.productId = productId && pa.assetType = kind) = [] := by
      rw [List.filter_filter, List.filter_eq_nil_iff]
      intro pa _
      simp
    have hall : (assetsFrom productId kind 0 k ids).filter
        (fun pa => pa.productId = productId && pa.assetType = kind) = assetsFrom productId kind 0 k ids := by
      rw [List.filter_eq_self]
      intro pa hpa
      obtain ⟨hproduct, hkind, -⟩ := mem_assetsFrom hpa
      simp [hproduct, hkind]
    rw [replaced, List.filter_append, hnone, hall, List.nil_append]
  rw [fileIdsOf, hrows, pairwise_assetsFrom.insertionSort_eq, map_fileId_assetsFrom]

theorem fileIdsOf_replaced_other (h : kind' ≠ kind) :
    fileIdsOf (replaced rows productId kind k ids) productId kind' = fileIdsOf rows productId kind' := by
  have hrows : (replaced rows productId kind k ids).filter
      (fun pa => pa.productId = productId && pa.assetType = kind') =
        rows.filter fun pa => pa.productId = productId && pa.assetType = kind' := by
    have hnone : (assetsFrom productId kind 0 k ids).filter
        (fun pa => pa.productId = productId && pa.assetType = kind') = [] := by
      rw [List.filter_eq_nil_iff]
      intro pa hpa
      simp [(mem_assetsFrom hpa).2.1, h.symm]
    rw [replaced, List.filter_append, hnone, List.append_nil, List.filter_filter]
    refine List.filter_congr fun pa _ => ?_
    by_cases hkind : pa.assetType = kind'
    · simp [hkind, h]
    · simp [hkind]
  rw [fileIdsOf, hrows, fileIdsOf]

end Rows

section Statements
variable {clock : Clock} {c : Client} {d : Db} {productId i : Nat} {kind : AssetType} {ids : List Nat} {n : Nat}

/-- File `n` is stored, with a key that fits its column. -/
def Stored (d : Db) (n : Nat) : Prop := Items.isBigint n = true ∧ (d.files.committed n).isSome = true

theorem deleteAssets_alone (hs : d.assets.Sole c) : ∃ t,
    exec (clock (.catalog (.deleteAssets productId kind)) d) c (.catalog (.deleteAssets productId kind)) d =
        some (.ok (), { d with assets := t }) ∧ t.Sole c ∧
      t.rows c = (d.assets.rows c).filter fun pa => !(pa.productId = productId && pa.assetType = kind) := by
  obtain ⟨t, ht, hsole, -, -, hrows⟩ := hs.deleteWhere (p := fun pa => pa.productId = productId && pa.assetType = kind)
  refine ⟨t, ?_, hsole, hrows⟩
  simp only [exec, execCatalog, ht, Option.map_some]
  rfl

theorem linked_new {files : Table Client File} {taken : List Nat} (hbig : Items.isBigint n = true)
    (hfile : (files.view c n).isSome = true) (hnew : n ∉ taken) : linked c files taken n = .ok n := by
  have hfree : (taken.any fun k => (k : Int) = n) = false := by
    rw [List.any_eq_false]
    intro k hk he
    exact hnew (Int.natCast_inj.mp (of_decide_eq_true he) ▸ hk)
  have hkey : ((n : Int).toNat?.filter fun k => (files.view c k).isSome) = some n := by
    change ((some n).filter _) = _
    rw [Option.filter_some, if_pos hfile]
  simp only [linked, hbig, hfree, hkey, Bool.not_true, Bool.false_eq_true, if_false]

theorem linked_taken {files : Table Client File} {taken : List Nat} (hbig : Items.isBigint n = true) (hn : n ∈ taken) :
    linked c files taken n = .error .uniqueViolation := by
  have htaken : (taken.any fun k => (k : Int) = n) = true := List.any_eq_true.mpr ⟨n, hn, decide_eq_true rfl⟩
  simp only [linked, hbig, htaken, Bool.not_true, Bool.false_eq_true, if_false, if_true]

theorem insertAsset_alone (hf : d.files.Unlocked) (hn : Stored d n)
    (hnew : ∀ pa ∈ d.assets.rows c, pa.productId = productId → pa.fileId ≠ n) :
    exec (clock (.catalog (.insertAsset productId n kind i)) d) c (.catalog (.insertAsset productId n kind i)) d =
      some (.ok (), { d with assets := d.assets.insert c ⟨d.assets.next, productId, n, kind, i⟩ }) := by
  obtain ⟨hbig, hfile⟩ := hn
  rw [← hf.view (c := c)] at hfile
  have hmem : n ∉ ((d.assets.rows c).filter fun pa => pa.productId = productId).map (·.fileId) := by
    intro hmem
    obtain ⟨pa, hpa, he⟩ := List.mem_map.mp hmem
    obtain ⟨hrow, hproduct⟩ := List.mem_filter.mp hpa
    exact hnew pa hrow (of_decide_eq_true hproduct) he
  have hlinked := linked_new hbig hfile hmem
  simp only [exec, execCatalog, hlinked]
  rfl

theorem insertAsset_alone_error (hn : Stored d n) {pa : ProductAsset} (hpa : pa ∈ d.assets.rows c)
    (hproduct : pa.productId = productId) (hfile : pa.fileId = n) :
    exec (clock (.catalog (.insertAsset productId n kind i)) d) c (.catalog (.insertAsset productId n kind i)) d =
      some (.error .uniqueViolation, d) := by
  have hmem : n ∈ ((d.assets.rows c).filter fun pa => pa.productId = productId).map (·.fileId) :=
    List.mem_map.mpr ⟨pa, List.mem_filter.mpr ⟨hpa, decide_eq_true hproduct⟩, hfile⟩
  have hlinked : linked c d.files _ n = .error .uniqueViolation := linked_taken hn.1 hmem
  simp only [exec, execCatalog, hlinked]
  rfl

/-- The loop, over distinct files that the product does not have. -/
theorem insertAssets_alone (hs : d.assets.Sole c) (hf : d.files.Unlocked) (hids : ∀ n ∈ ids, Stored d n)
    (hnew : ∀ pa ∈ d.assets.rows c, pa.productId = productId → pa.fileId ∉ ids) (hnodup : ids.Nodup) :
    ∃ t, alone clock c (insertAssets productId kind i (ids.map (↑))) d = some (.ok (), { d with assets := t }) ∧
      t.Sole c ∧ t.rows c = d.assets.rows c ++ assetsFrom productId kind i d.assets.next ids := by
  induction ids generalizing d i with
  | nil => exact ⟨d.assets, rfl, hs, (List.append_nil _).symm⟩
  | cons n ids ih =>
    obtain ⟨hn, hnodup⟩ := List.nodup_cons.mp hnodup
    have hstep := @insertAsset_alone clock c d productId i kind n hf (hids n List.mem_cons_self) fun pa hpa hproduct he =>
      hnew pa hpa hproduct (he ▸ List.mem_cons_self)
    have hclear : ∀ pa ∈ (d.assets.insert c ⟨d.assets.next, productId, n, kind, i⟩).rows c,
        pa.productId = productId → pa.fileId ∉ ids := by
      intro pa hpa hproduct
      rw [Table.rows_insert] at hpa
      rcases List.mem_append.mp hpa with hpa | hpa
      · exact fun hmem => hnew pa hpa hproduct (List.mem_cons_of_mem _ hmem)
      · rw [List.mem_singleton.mp hpa]
        exact hn
    obtain ⟨t, ht, hsole, hrows⟩ :=
      @ih { d with assets := d.assets.insert c ⟨d.assets.next, productId, n, kind, i⟩ } (i + 1)
        hs.insert hf (fun m hm => hids m (List.mem_cons_of_mem _ hm)) hclear hnodup
    refine ⟨t, (query_alone hstep).trans ht, hsole, hrows.trans ?_⟩
    rw [Table.rows_insert, List.append_assoc]
    rfl

/-- Over a file that the product has, it ends in a unique violation. -/
theorem insertAssets_alone_error (hf : d.files.Unlocked) (hids : ∀ n ∈ ids, Stored d n)
    (hold : ∃ pa ∈ d.assets.rows c, pa.productId = productId ∧ pa.fileId ∈ ids) :
    ∃ d', alone clock c (insertAssets productId kind i (ids.map (↑))) d =
      some (.error (.database .uniqueViolation), d') := by
  induction ids generalizing d i with
  | nil =>
    obtain ⟨pa, -, -, hmem⟩ := hold
    cases hmem
  | cons n ids ih =>
    by_cases hclash : ∃ pa ∈ d.assets.rows c, pa.productId = productId ∧ pa.fileId = n
    · obtain ⟨pa, hpa, hproduct, hfile⟩ := hclash
      have hstep := @insertAsset_alone_error clock c d productId i kind n (hids n List.mem_cons_self) pa hpa hproduct hfile
      exact ⟨d, query_alone_error hstep⟩
    · have hstep := @insertAsset_alone clock c d productId i kind n hf (hids n List.mem_cons_self)
        fun pa hpa hproduct he => hclash ⟨pa, hpa, hproduct, he⟩
      obtain ⟨pa, hpa, hproduct, hmem⟩ := hold
      have hrest : pa.fileId ∈ ids := by
        rcases List.mem_cons.mp hmem with he | hmem
        · exact absurd ⟨pa, hpa, hproduct, he⟩ hclash
        · exact hmem
      have hkept : pa ∈ (d.assets.insert c ⟨d.assets.next, productId, n, kind, i⟩).rows c := by
        rw [Table.rows_insert]
        exact List.mem_append_left _ hpa
      obtain ⟨d', hd'⟩ := @ih { d with assets := d.assets.insert c ⟨d.assets.next, productId, n, kind, i⟩ } (i + 1)
        hf (fun m hm => hids m (List.mem_cons_of_mem _ hm)) ⟨pa, hkept, hproduct, hrest⟩
      exact ⟨d', (query_alone hstep).trans hd'⟩

/-- The loop runs to its end over files that the product has of no other kind. -/
theorem syncProductAssets_alone (hs : d.assets.Sole c) (hf : d.files.Unlocked) (hids : ∀ n ∈ ids, Stored d n)
    (hnew : ∀ pa ∈ d.assets.rows c, pa.productId = productId → pa.assetType ≠ kind → pa.fileId ∉ ids)
    (hnodup : ids.Nodup) :
    ∃ t k, alone clock c (syncProductAssets productId (ids.map (↑)) kind) d = some (.ok (), { d with assets := t }) ∧
      t.Sole c ∧ t.rows c = replaced (d.assets.rows c) productId kind k ids := by
  obtain ⟨t, hdelete, hsole, hrows⟩ := @deleteAssets_alone clock c d productId kind hs
  have hclear : ∀ pa ∈ t.rows c, pa.productId = productId → pa.fileId ∉ ids := by
    intro pa hpa hproduct
    rw [hrows] at hpa
    obtain ⟨hrow, hother⟩ := List.mem_filter.mp hpa
    refine hnew pa hrow hproduct fun hkind => ?_
    simp [hproduct, hkind] at hother
  obtain ⟨t', ht', hsole', hrows'⟩ := @insertAssets_alone clock c { d with assets := t } productId 0 kind ids hsole hf
    hids hclear hnodup
  refine ⟨t', t.next, (query_alone hdelete).trans ht', hsole', hrows'.trans ?_⟩
  rw [hrows]
  rfl

theorem syncProductAssets_alone_error (hs : d.assets.Sole c) (hf : d.files.Unlocked) (hids : ∀ n ∈ ids, Stored d n)
    (hold : ∃ pa ∈ d.assets.rows c, pa.productId = productId ∧ pa.assetType ≠ kind ∧ pa.fileId ∈ ids) :
    ∃ d', alone clock c (syncProductAssets productId (ids.map (↑)) kind) d =
      some (.error (.database .uniqueViolation), d') := by
  obtain ⟨t, hdelete, -, hrows⟩ := @deleteAssets_alone clock c d productId kind hs
  obtain ⟨pa, hpa, hproduct, hkind, hmem⟩ := hold
  have hkept : pa ∈ t.rows c := by
    rw [hrows]
    exact List.mem_filter.mpr ⟨hpa, by simp [hkind]⟩
  obtain ⟨d', hd'⟩ := @insertAssets_alone_error clock c { d with assets := t } productId 0 kind ids hf hids
    ⟨pa, hkept, hproduct, hmem⟩
  exact ⟨d', (query_alone hdelete).trans hd'⟩

end Statements

section Steps
variable {clock : Clock} {c : Client} {d : Db} {productId : Nat} {kind : AssetType} {ids : List Int} {given : Option (List Int)}

/-- The ids are those of stored files. -/
def Existing (d : Db) (ids : List Int) : Prop := ∀ i ∈ ids, ∃ n : Nat, i = n ∧ Stored d n

theorem Existing.keys (h : Existing d ids) : ∃ ns : List Nat, ids = ns.map (↑) ∧ ∀ n ∈ ns, Stored d n := by
  refine ⟨ids.map Int.toNat, ?_, ?_⟩
  · rw [List.map_map]
    refine (List.map_id _).symm.trans (List.map_congr_left fun i hi => ?_)
    obtain ⟨n, rfl, -⟩ := h i hi
    rfl
  · intro n hn
    obtain ⟨i, hi, rfl⟩ := List.mem_map.mp hn
    obtain ⟨n, rfl, hstored⟩ := h i hi
    exact hstored

/-- No file of the list is one of another kind of the product. -/
def Free (c : Client) (d : Db) (productId : Nat) (kind : AssetType) (ids : List Int) : Prop :=
  ∀ i ∈ ids, ∀ other ≠ kind, i ∉ fileIdsOf (d.assets.rows c) productId other

/-- One kind is replaced where its list is given, and the other kinds stay. -/
theorem sync_given (hs : d.assets.Sole c) (hf : d.files.Unlocked) (hids : Existing d (given.getD []))
    (hnodup : (given.getD []).Nodup) (hfree : Free c d productId kind (given.getD [])) :
    ∃ t : Table Client ProductAsset, t.Sole c ∧
      (∀ rest : Code Payload, alone clock c (do
          match given with
          | some fileIds => syncProductAssets productId fileIds kind
          | none => pure ()
          rest) d = alone clock c rest { d with assets := t }) ∧
      fileIdsOf (t.rows c) productId kind = given.getD (fileIdsOf (d.assets.rows c) productId kind) ∧
      ∀ other ≠ kind, fileIdsOf (t.rows c) productId other = fileIdsOf (d.assets.rows c) productId other := by
  rcases given with - | ids
  · exact ⟨d.assets, hs, fun rest => rfl, rfl, fun other _ => rfl⟩
  · obtain ⟨ns, rfl, hstored⟩ := hids.keys
    have hnew : ∀ pa ∈ d.assets.rows c, pa.productId = productId → pa.assetType ≠ kind → pa.fileId ∉ ns := by
      intro pa hpa hproduct hkind hmem
      exact hfree pa.fileId (List.mem_map_of_mem hmem) pa.assetType hkind (mem_fileIdsOf.mpr ⟨pa, hpa, hproduct, rfl, rfl⟩)
    obtain ⟨t, k, ht, hsole, hrows⟩ := @syncProductAssets_alone clock c d productId kind ns hs hf hstored hnew
      (List.Nodup.of_map _ hnodup)
    refine ⟨t, hsole, fun rest => bind_alone ht, ?_, fun other hother => ?_⟩
    · rw [hrows, fileIdsOf_replaced]
      rfl
    · rw [hrows, fileIdsOf_replaced_other hother]

/-- A file of another kind stops the replacement. -/
theorem sync_given_error (hs : d.assets.Sole c) (hf : d.files.Unlocked) (hids : Existing d ids)
    (hfree : ¬ Free c d productId kind ids) (rest : Code Payload) : ∃ e d',
      alone clock c (do syncProductAssets productId ids kind; rest) d = some (.error e, d') := by
  obtain ⟨ns, rfl, hstored⟩ := hids.keys
  simp only [Free, not_forall, not_not, exists_prop] at hfree
  obtain ⟨i, hi, other, hother, hmem⟩ := hfree
  obtain ⟨pa, hpa, hproduct, hkind, rfl⟩ := mem_fileIdsOf.mp hmem
  obtain ⟨n, hn, he⟩ := List.mem_map.mp hi
  have hfile : pa.fileId ∈ ns := by
    rw [← Int.natCast_inj.mp he]
    exact hn
  obtain ⟨d', hd'⟩ := @syncProductAssets_alone_error clock c d productId kind ns hs hf hstored
    ⟨pa, hpa, hproduct, hkind ▸ hother, hfile⟩
  exact ⟨_, d', bind_alone_error hd'⟩

end Steps

section Updates
variable {env : Env} {clock : Clock} {c : Client} {d : Db} {adminId productId : Nat} {dto : AdminUpdateProductDto}

/-- The files of one kind of a product's assets, as a response lists them. -/
def Db.assetFileIds (d : Db) (productId : Nat) (kind : AssetType) : List Int :=
  (bucket kind (assetRows d.files.committed d.assets.committedRows productId)).map fun row => (row.fileId : Int)

/-- The call is for a product whose columns take its values, with lists of stored files that share no file and
repeat none. -/
structure Replaces (d : Db) (adminId productId : Nat) (dto : AdminUpdateProductDto) : Prop where
  product : ∃ p, d.catalog.committed productId = some p ∧ p.deletedAt = none ∧
    ∀ now, ∃ p', dto.apply now adminId p = .ok p'
  images : Existing d (dto.imageFileIds.getD [])
  files : Existing d (dto.fileIds.getD [])
  imagesOnce : (dto.imageFileIds.getD []).Nodup
  filesOnce : (dto.fileIds.getD []).Nodup
  disjoint : ∀ i ∈ dto.imageFileIds.getD [], i ∉ dto.fileIds.getD []

/-- The update succeeds: a kind whose list is given is that list, and the other one keeps its files unless one
of them is given to this kind. -/
def Replaced (env : Env) (clock : Clock) (c : Client) (d : Db) (adminId productId : Nat) (dto : AdminUpdateProductDto) :
    Prop :=
  ∃ response d', alone clock c (adminUpdateProduct env adminId productId dto) d = some (.ok response, d') ∧
    (∀ ids, dto.imageFileIds = some ids → d'.assetFileIds productId .image = ids) ∧
    (∀ ids, dto.fileIds = some ids → d'.assetFileIds productId .file = ids) ∧
    (dto.imageFileIds = none → d'.assetFileIds productId .image = d.assetFileIds productId .image ∨
      ∃ i ∈ d.assetFileIds productId .image, i ∈ dto.fileIds.getD []) ∧
    (dto.fileIds = none → d'.assetFileIds productId .file = d.assetFileIds productId .file ∨
      ∃ i ∈ d.assetFileIds productId .file, i ∈ dto.imageFileIds.getD [])

/-- The kind that is replaced first gets no file that is of the other kind now. -/
def Untaken (d : Db) (productId : Nat) (dto : AdminUpdateProductDto) : Prop :=
  match dto.imageFileIds with
  | some ids => ∀ i ∈ ids, i ∉ d.assetFileIds productId .file
  | none => ∀ i ∈ dto.fileIds.getD [], i ∉ d.assetFileIds productId .image

theorem assetFileIds_eq {kind : AssetType} :
    d.assetFileIds productId kind = fileIdsOf d.assets.committedRows productId kind := bucket_assetRows

theorem apply_deletedAt {now : Nat} {p p' : Products.CatalogProduct} (h : dto.apply now adminId p = .ok p') :
    p'.deletedAt = p.deletedAt := by
  simp only [AdminUpdateProductDto.apply, bind, Except.bind] at h
  split at h
  · cases h
  · split at h
    · cases h
    · split at h
      · cases h
      · split at h
        · cases h
        · split at h
          · cases h
          · cases h
            rfl

/-- The first statement of the call writes the product's columns. -/
theorem updateProduct_alone (hd : Unlocked d) {p p' : Products.CatalogProduct} (hp : d.catalog.committed productId = some p)
    (hdeleted : p.deletedAt = none) {now : Nat} (happly : dto.apply now adminId p = .ok p') :
    exec now c (.catalog (.updateProduct adminId dto productId)) d =
      some (.ok true, { d with catalog := d.catalog.write c productId (some p') }) := by
  have hview : (d.catalog.view c productId).filter (fun p => p.deletedAt.isNone) = some p := by
    rw [hd.catalog.view, hp, Option.filter_some, hdeleted]
    rfl
  simp only [exec, execCatalog, hview, happly, hd.catalog.sole productId, if_true]
  rfl

/-- A product that is not deleted is read back. -/
theorem getProductWithAssets_alone {p : Products.CatalogProduct} (hp : d.catalog.view c productId = some p)
    (hdeleted : p.deletedAt = none) : ∃ response, alone clock c (getProductWithAssets env productId) d =
      some (.ok response, d) := by
  have hselect : exec (clock (.catalog (.selectProduct productId)) d) c (.catalog (.selectProduct productId)) d =
      some (.ok (some (p, (d.productRatings.filter fun r => r.productId = productId).map (·.ratingValue))), d) := by
    simp only [exec, execCatalog, hp, Option.filter_some, hdeleted, Option.isNone_none, if_true, Option.map_some]
    rfl
  have hassets : exec (clock (.catalog (.selectAssets productId)) d) c (.catalog (.selectAssets productId)) d =
      some (.ok (assetRows (d.files.view c) (d.assets.rows c) productId), d) := rfl
  exact ⟨_, (query_alone hselect).trans ((query_alone hassets).trans rfl)⟩

/-- The call replaces where each list is free when its turn comes. -/
theorem adminUpdateProduct_alone (hd : Unlocked d) (h : Replaces d adminId productId dto) (hfree : Untaken d productId dto) :
    ∃ response d', alone clock c (adminUpdateProduct env adminId productId dto) d = some (.ok response, d') ∧
      d'.assetFileIds productId .image = dto.imageFileIds.getD (d.assetFileIds productId .image) ∧
      d'.assetFileIds productId .file = dto.fileIds.getD (d.assetFileIds productId .file) := by
  obtain ⟨p, hp, hdeleted, happlies⟩ := h.product
  obtain ⟨p', happly⟩ := happlies (clock (.catalog (.updateProduct adminId dto productId)) d)
  have hupdate := @updateProduct_alone c d adminId productId dto hd p p' hp hdeleted _ happly
  let written : Db := { d with catalog := d.catalog.write c productId (some p') }
  have hnow (kind : AssetType) : fileIdsOf (written.assets.rows c) productId kind = d.assetFileIds productId kind := by
    rw [assetFileIds_eq, ← hd.assets.rows (c := c)]
  have hfreeImages : Free c written productId .image (dto.imageFileIds.getD []) := by
    intro i hi other hother
    cases other with
    | image => exact absurd rfl hother
    | file =>
      rw [hnow]
      unfold Untaken at hfree
      rcases hgiven : dto.imageFileIds with - | ids
      · rw [hgiven] at hi
        cases hi
      · rw [hgiven] at hfree hi
        exact hfree i hi
  obtain ⟨t, hsole, himages, hkind, hother⟩ := @sync_given clock c written productId .image dto.imageFileIds
    hd.assets.sole hd.files h.images h.imagesOnce hfreeImages
  let imaged : Db := { written with assets := t }
  rw [hnow] at hkind
  have hfreeFiles : Free c imaged productId .file (dto.fileIds.getD []) := by
    intro i hi other hne
    cases other with
    | file => exact absurd rfl hne
    | image =>
      change i ∉ fileIdsOf (t.rows c) productId .image
      rw [hkind]
      unfold Untaken at hfree
      rcases hgiven : dto.imageFileIds with - | ids
      · rw [hgiven] at hfree
        exact hfree i hi
      · intro hmem
        exact h.disjoint i (by rw [hgiven]; exact hmem) hi
  obtain ⟨t', hsole', hfiles, hkind', hother'⟩ := @sync_given clock c imaged productId .file dto.fileIds
    hsole hd.files h.files h.filesOnce hfreeFiles
  let filed : Db := { imaged with assets := t' }
  have hview : filed.catalog.view c productId = some p' := by
    refine (Table.view_write (Table.lt_of_committed hp)).trans ?_
    rw [if_pos rfl]
  obtain ⟨response, hget⟩ := @getProductWithAssets_alone env clock c filed productId p' hview
    ((apply_deletedAt happly).trans hdeleted)
  refine ⟨response, filed.commit c, withTransaction_alone ?_, ?_, ?_⟩
  · refine (query_alone hupdate).trans ?_
    simp only [Bool.not_true, Bool.false_eq_true, if_false]
    exact (himages _).trans ((hfiles _).trans hget)
  · have hrows : (filed.commit c).assets.committedRows = t'.rows c := Table.committedRows_commit_eq_rows
    rw [assetFileIds_eq, hrows, hother' .image (by decide)]
    exact hkind
  · have hrows : (filed.commit c).assets.committedRows = t'.rows c := Table.committedRows_commit_eq_rows
    rw [assetFileIds_eq, hrows, hkind']
    exact congrArg _ ((hother .file (by decide)).trans (hnow .file))

/-- Where it is not free, the call fails. -/
theorem adminUpdateProduct_alone_error (hd : Unlocked d) (h : Replaces d adminId productId dto)
    (hfree : ¬ Untaken d productId dto) :
    ∃ e d', alone clock c (adminUpdateProduct env adminId productId dto) d = some (.error e, d') := by
  obtain ⟨p, hp, hdeleted, happlies⟩ := h.product
  obtain ⟨p', happly⟩ := happlies (clock (.catalog (.updateProduct adminId dto productId)) d)
  have hupdate := @updateProduct_alone c d adminId productId dto hd p p' hp hdeleted _ happly
  let written : Db := { d with catalog := d.catalog.write c productId (some p') }
  have hnow (kind : AssetType) : fileIdsOf (written.assets.rows c) productId kind = d.assetFileIds productId kind := by
    rw [assetFileIds_eq, ← hd.assets.rows (c := c)]
  have herror : ∃ e d', alone clock c (do
      match dto.imageFileIds with
      | some imageFileIds => syncProductAssets productId imageFileIds .image
      | none => pure ()
      match dto.fileIds with
      | some fileIds => syncProductAssets productId fileIds .file
      | none => pure ()
      getProductWithAssets env productId) written = some (.error e, d') := by
    have himages := h.images
    unfold Untaken at hfree
    rcases hgiven : dto.imageFileIds with - | ids
    · have hfiles := h.files
      rcases hgiven' : dto.fileIds with - | ids
      · rw [hgiven, hgiven'] at hfree
        exact absurd (fun i hi => absurd hi List.not_mem_nil) hfree
      · rw [hgiven'] at hfiles
        rw [hgiven, hgiven'] at hfree
        refine @sync_given_error clock c written productId .file ids hd.assets.sole hd.files hfiles (fun hall => ?_) _
        refine hfree fun i hi => ?_
        rw [← hnow]
        exact hall i hi .image (by decide)
    · rw [hgiven] at hfree himages
      refine @sync_given_error clock c written productId .image ids hd.assets.sole hd.files himages (fun hall => ?_) _
      refine hfree fun i hi => ?_
      rw [← hnow]
      exact hall i hi .file (by decide)
  obtain ⟨e, d', hrest⟩ := herror
  refine ⟨e, d'.rollback c, withTransaction_alone_error ((query_alone hupdate).trans ?_)⟩
  simp only [Bool.not_true, Bool.false_eq_true, if_false]
  exact hrest

/-- Every target is reached exactly where the kind that is replaced first gets no file of the other kind. -/
theorem assets_replaced_iff (hd : Unlocked d) (h : Replaces d adminId productId dto) :
    Replaced env clock c d adminId productId dto ↔ Untaken d productId dto := by
  constructor
  · rintro ⟨response, d', halone, -⟩
    by_contra hfree
    obtain ⟨e, d'', herror⟩ := @adminUpdateProduct_alone_error env clock c d adminId productId dto hd h hfree
    rw [halone] at herror
    cases herror
  · intro hfree
    obtain ⟨response, d', halone, himages, hfiles⟩ :=
      @adminUpdateProduct_alone env clock c d adminId productId dto hd h hfree
    refine ⟨response, d', halone, fun ids hids => ?_, fun ids hids => ?_, fun hnone => ?_, fun hnone => ?_⟩
    · rw [himages, hids]
      rfl
    · rw [hfiles, hids]
      rfl
    · rw [himages, hnone]
      exact Or.inl rfl
    · rw [hfiles, hnone]
      exact Or.inl rfl

/-- A lamp with its manual, file 1, and file 2 that is not attached. -/
def shelf : Db :=
  let upload (id : Nat) (filename : String) : File :=
    { id, uploaderUserId := some 1, ownerType := .user, ownerId := none, purpose := .document, storageProvider := "local",
      bucket := some "uploads", objectKey := filename, originalFilename := some filename, mimeType := some "image/png",
      fileSizeBytes := none, status := .uploaded, createdAt := 0, updatedAt := 0 }
  { Db.ofFiles [upload 1 "manual.png", upload 2 "lamp.png"] [] with
    catalog := .numbered [{ id := 1, title := "Lamp", description := "Brass", amount := 1, price := 1000, details := none,
                            createdBy := some 9, updatedBy := some 9, createdAt := 0, updatedAt := 0 }]
    assets := .numbered [⟨1, 1, 1, .file, 0⟩] }

theorem shelf_unlocked : Unlocked shelf :=
  { ofFiles_unlocked with
    catalog := Table.numbered_unlocked
    assets := Table.numbered_unlocked }

theorem shelf_replaces {n : Nat} (hn : Stored shelf n) (files : Option (List Int)) (hfiles : files.getD [] = []) :
    Replaces shelf 9 1 { imageFileIds := some [(n : Int)], fileIds := files } where
  product := ⟨_, rfl, rfl, fun now => ⟨_, rfl⟩⟩
  images i hi := ⟨n, List.mem_singleton.mp hi, hn⟩
  files i hi := by
    rw [hfiles] at hi
    cases hi
  imagesOnce := List.nodup_singleton _
  filesOnce := by
    rw [hfiles]
    exact List.nodup_nil
  disjoint i _ hi := by
    rw [hfiles] at hi
    cases hi

theorem assets_replaced_shelf :
    Replaced plainEnv (fun _ _ => 0) 0 shelf 9 1 { imageFileIds := some [2] } ↔
      Untaken shelf 1 { imageFileIds := some [2] } :=
  assets_replaced_iff shelf_unlocked (@shelf_replaces 2 ⟨by decide, rfl⟩ none rfl)

/-- The manual becomes an image, and no file stays. -/
theorem moved_manual_fails :
    ¬ Replaced plainEnv (fun _ _ => 0) 0 shelf 9 1 { imageFileIds := some [1], fileIds := some [] } := by
  rintro ⟨response, d', halone, -⟩
  have hfree : ¬ Untaken shelf 1 { imageFileIds := some [1], fileIds := some [] } := by
    intro h
    exact h 1 List.mem_cons_self (by decide)
  obtain ⟨e, d'', herror⟩ := @adminUpdateProduct_alone_error plainEnv (fun _ _ => 0) 0 shelf 9 1 _ shelf_unlocked
    (@shelf_replaces 1 ⟨by decide, rfl⟩ (some []) rfl) hfree
  have hclash := halone.symm.trans herror
  cases hclash

end Updates

end Kayan.Media
