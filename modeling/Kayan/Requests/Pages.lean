import Kayan.Reads.References
import Kayan.Requests.Service

/-!
# Pages of the lists

The lists of orders, faults, services, gallery items, follow-up steps and reviews break ties by id, so
their pages cut one sorted list into pieces. A request fails only where Postgres cannot read a date or
take the search text.
-/
namespace Kayan.Requests
open Payload Paging
open Listing (Limit page_rows)
open Reads (AuthUser FaultReport FaultSeverity FaultSortBy FaultStatus ItemType ServiceOrder ServiceType SortDirection
  FollowupStep columnIs createdWithin orderedBy orderedBy_total orderedBy_trans orderedBy_mono byCreation
  resolveOffsetPagination)
open Shop (OrderStatus ProductOrder)
variable {Row : Type}

/-- The responses go through the rows that match, in one order, each with their number. -/
def Partition (drv : Driver) (responses : Nat → Except Failure Payload) (ids : Row → Nat) (before : Row → Row → Prop)
    (matching : List Row) : Prop :=
  ∃ listed : List Row, listed.Perm matching ∧ listed.Pairwise before ∧
    ∃ pages : Nat → List Row, Walk pages listed ∧ ∀ k, ∃ items,
      responses k = .ok (.obj [("items", .arr items), ("total", .num matching.length)]) ∧
        items.map (field "id") = (pages k).map fun row => some (drv.bigint (ids row))

section General
variable {drv : Driver} {ids : Row → Nat} {before : Row → Row → Prop} {listed matching : List Row}
  {responses : Nat → Except Failure Payload}

/-- Responses that cut a sorted list into pages. -/
theorem partition_of_pages (item : List Row → Row → Payload) (limit : Limit 100) {d : Nat} (hd : 0 < d)
    (hperm : listed.Perm matching) (hsorted : listed.Pairwise before)
    (hitem : ∀ rows row, field "id" (item rows row) = some (drv.bigint (ids row)))
    (h : ∀ k, responses k = .ok (.obj
      [("items", .arr ((page (limit.size d) k listed).map (item (page (limit.size d) k listed)))),
       ("total", .num listed.length)])) : Partition drv responses ids before matching := by
  let rows (k : Nat) := page (limit.size d) k listed
  refine ⟨listed, hperm, hsorted, rows, walk_page (limit.size_pos hd) listed, fun k =>
    ⟨(rows k).map (item (rows k)), ?_, ?_⟩⟩
  · rw [h k, hperm.length_eq]
  · rw [List.map_map]
    exact List.map_congr_left fun row _ => hitem _ row

theorem not_partition (h : ∃ e, responses 0 = .error e) : ¬ Partition drv responses ids before matching := by
  rintro ⟨listed, -, -, pages, -, hpages⟩
  obtain ⟨e, he⟩ := h
  obtain ⟨items, hok, -⟩ := hpages 0
  cases he.symm.trans hok

variable (timestamptz : String → Option Nat) (range : DateRange)

/-- Postgres reads the dates of a query. -/
def Readable : Prop :=
  (∀ text ∈ range.fromDate.filter (· ≠ ""), (timestamptz text).isSome = true) ∧
    ∀ text ∈ range.toDate.filter (· ≠ ""), (timestamptz text).isSome = true

/-- `created_at` lies between the dates of a query. -/
def within (createdAt : Nat) : Bool :=
  createdWithin ((range.fromDate.filter (· ≠ "")).bind timestamptz) ((range.toDate.filter (· ≠ "")).bind timestamptz)
    createdAt

theorem timestampParam_iff (date : Option String) :
    (∀ text ∈ date, (timestamptz text).isSome = true) ↔
      Listing.timestampParam timestamptz date = .ok (date.bind timestamptz) := by
  cases date with
  | none => simp [Listing.timestampParam]
  | some text => cases h : timestamptz text <;> simp [Listing.timestampParam, h]

theorem timestampParam_error {date : Option String} (h : ¬ ∀ text ∈ date, (timestamptz text).isSome = true) :
    Listing.timestampParam timestamptz date = .error (.database .invalidDatetime) := by
  cases date with
  | none => simp at h
  | some text => cases htext : timestamptz text <;> simp_all [Listing.timestampParam]

/-- A request with dates is answered exactly when they can be read. -/
theorem dated_iff (respond : Option Nat × Option Nat → Nat → Payload)
    (hrespond : ∀ k, responses k = (dateParams timestamptz range).map fun bounds => respond bounds k)
    (h : Partition drv (fun k => .ok (respond ((range.fromDate.filter (· ≠ "")).bind timestamptz,
      (range.toDate.filter (· ≠ "")).bind timestamptz) k)) ids before matching) :
    Partition drv responses ids before matching ↔ Readable timestamptz range := by
  by_cases hlo : ∀ text ∈ range.fromDate.filter (· ≠ ""), (timestamptz text).isSome = true
  · by_cases hhi : ∀ text ∈ range.toDate.filter (· ≠ ""), (timestamptz text).isSome = true
    · refine iff_of_true ?_ ⟨hlo, hhi⟩
      have hdates : responses = fun k => .ok (respond ((range.fromDate.filter (· ≠ "")).bind timestamptz,
          (range.toDate.filter (· ≠ "")).bind timestamptz) k) := by
        funext k
        rw [hrespond, dateParams, (timestampParam_iff timestamptz _).mp hlo, (timestampParam_iff timestamptz _).mp hhi]
        rfl
      rw [hdates]
      exact h
    · refine iff_of_false (not_partition ⟨.database .invalidDatetime, ?_⟩) fun hread => hhi hread.2
      rw [hrespond, dateParams, (timestampParam_iff timestamptz _).mp hlo, timestampParam_error timestamptz hhi]
      rfl
  · refine iff_of_false (not_partition ⟨.database .invalidDatetime, ?_⟩) fun hread => hlo hread.1
    rw [hrespond, dateParams, timestampParam_error timestamptz hlo]
    rfl

end General

section Lists
variable (drv : Driver) (timestamptz : String → Option Nat) (f : Like.Folding) (s : Store)

/-- `ORDER BY created_at <direction>, id DESC`, without ties. -/
def created (createdAt id : Row → Nat) (direction : Option SortDirection) : Row → Row → Prop :=
  orderedBy createdAt (direction.getD .desc) fun a b => id b < id a

theorem byCreation_sorted {createdAt id : Row → Nat} {rows : List Row} (hkeyed : (rows.map id).Nodup)
    (direction : Option SortDirection) :
    (byCreation createdAt id direction rows).Pairwise (created createdAt id direction) := by
  refine sorted_strict hkeyed (orderedBy_total fun a b => le_total _ _)
    (fun a b c => orderedBy_trans fun a b c hab hbc => le_trans hbc hab) fun a b hne hab => ?_
  exact orderedBy_mono (fun hle => lt_of_le_of_ne hle hne.symm) hab

def OrdersPartition (limit : Limit 100) (range : DateRange) (status : Option OrderStatus)
    (direction : Option SortDirection) : Prop :=
  Partition drv (fun k => adminListOrders drv timestamptz s ⟨limit.page k, range, status, direction⟩) (·.id)
    (created (·.createdAt) (·.id) direction)
    (s.orders.filter fun po => columnIs status po.status && within timestamptz range po.createdAt)

theorem adminListOrders_iff (limit : Limit 100) (range : DateRange) (status : Option OrderStatus)
    (direction : Option SortDirection) :
    OrdersPartition drv timestamptz s limit range status direction ↔ Readable timestamptz range := by
  let respond (bounds : Option Nat × Option Nat) (k : Nat) : Payload := Reads.adminListOrders drv s.toStore
    { limit.page k with status, fromDate := bounds.1, toDate := bounds.2, sortDirection := direction }
  let item (rows : List ProductOrder) (po : ProductOrder) : Payload :=
    Shop.orderPayload (Reads.orderItems s.toStore rows) true (Shop.orderRowRecord drv ⟨po, s.accounts po.userId⟩)
  refine dated_iff timestamptz range respond (fun k => ?_) ?_
  · unfold adminListOrders
    cases dateParams timestamptz range <;> rfl
  · refine partition_of_pages item (d := 20) limit (by decide) (List.perm_insertionSort _ _)
      (byCreation_sorted (Listing.filter_keyed s.ordersKeyed _) direction) (fun _ _ => rfl) fun k => ?_
    simp only [respond, Reads.adminListOrders, page_rows limit (by decide : 20 ≤ 100), Shop.attachOrderItems,
      List.map_map]
    rfl

/-- The `ORDER BY` of `buildFaultOrderClause`, without ties. -/
def faultBefore (sortBy : FaultSortBy) (direction : Option SortDirection) : FaultReport → FaultReport → Prop :=
  match sortBy with
  | .severity =>
    orderedBy (fun fr => fr.severity.rank) (direction.getD .desc)
      (orderedBy (·.createdAt) .desc fun a b => b.id < a.id)
  | .createdAt => created (·.createdAt) (·.id) direction

theorem sortFaults_sorted {rows : List FaultReport} (hkeyed : (rows.map (·.id)).Nodup) (sortBy : FaultSortBy)
    (direction : Option SortDirection) :
    (Reads.sortFaults sortBy direction rows).Pairwise (faultBefore sortBy direction) := by
  cases sortBy with
  | createdAt => exact byCreation_sorted hkeyed direction
  | severity =>
    refine sorted_strict hkeyed (orderedBy_total (orderedBy_total fun a b => le_total _ _)) ?_ fun a b hne hab => ?_
    · exact fun a b c => orderedBy_trans fun a b c => orderedBy_trans fun a b c hab hbc => le_trans hbc hab
    · refine hab.imp_right fun hboth => ⟨hboth.1, ?_⟩
      exact orderedBy_mono (fun hle => lt_of_le_of_ne hle hne.symm) hboth.2

theorem sortFaults_perm (sortBy : FaultSortBy) (direction : Option SortDirection) (rows : List FaultReport) :
    (Reads.sortFaults sortBy direction rows).Perm rows := by
  cases sortBy <;> exact List.perm_insertionSort _ _

def FaultsPartition (limit : Limit 100) (range : DateRange) (status : Option FaultStatus)
    (severity : Option FaultSeverity) (sortBy : Option FaultSortBy) (direction : Option SortDirection) : Prop :=
  Partition drv
    (fun k => adminListFaults drv timestamptz s ⟨limit.page k, range, status, severity, sortBy, direction⟩) (·.id)
    (faultBefore (sortBy.getD .createdAt) direction)
    (s.faults.filter fun fr => columnIs status fr.status && columnIs severity fr.severity &&
      within timestamptz range fr.createdAt)

theorem adminListFaults_iff (limit : Limit 100) (range : DateRange) (status : Option FaultStatus)
    (severity : Option FaultSeverity) (sortBy : Option FaultSortBy) (direction : Option SortDirection) :
    FaultsPartition drv timestamptz s limit range status severity sortBy direction ↔ Readable timestamptz range := by
  let respond (bounds : Option Nat × Option Nat) (k : Nat) : Payload :=
    let listed := Reads.sortFaults (sortBy.getD .createdAt) direction
      (s.faults.filter fun fr => columnIs status fr.status && columnIs severity fr.severity &&
        createdWithin bounds.1 bounds.2 fr.createdAt)
    .obj [("items", .arr ((Reads.page (resolveOffsetPagination (limit.page k) 20 100) listed).map
      (adminFaultPayload drv s))), ("total", .num listed.length)]
  refine dated_iff timestamptz range respond (fun k => ?_) ?_
  · unfold adminListFaults
    cases dateParams timestamptz range <;> rfl
  · refine partition_of_pages (fun _ => adminFaultPayload drv s) (d := 20) limit (by decide) (sortFaults_perm _ _ _)
      (sortFaults_sorted (Listing.filter_keyed s.faultsKeyed _) _ direction) (fun _ _ => rfl) fun k => ?_
    simp only [respond, page_rows limit (by decide : 20 ≤ 100)]
    rfl

section Services

/-- The three lists of services: those that `own` takes, each with its columns. -/
theorem services_iff {responses : Nat → Except Failure Payload} (own : ServiceOrder → Bool)
    (toItem : ServiceOrder → Payload) (hid : ∀ so, field "id" (toItem so) = some (drv.bigint so.id))
    (limit : Limit 100) (range : DateRange) (serviceType : Option ServiceType) (direction : Option SortDirection)
    (hresponses : ∀ k, responses k =
      (servicesQuery timestamptz ⟨limit.page k, range, serviceType, direction⟩).map fun query =>
        Reads.servicesPage query toItem (Reads.listedServices s.toStore own query)) :
    Partition drv responses (·.id) (created (·.createdAt) (·.id) direction)
        (s.services.filter fun so => own so && columnIs serviceType so.serviceType &&
          within timestamptz range so.createdAt) ↔
      Readable timestamptz range := by
  let read (bounds : Option Nat × Option Nat) (k : Nat) : Reads.ListServicesQueryDto :=
    { limit.page k with serviceType, fromDate := bounds.1, toDate := bounds.2, sortDirection := direction }
  refine dated_iff timestamptz range
    (fun bounds k => Reads.servicesPage (read bounds k) toItem (Reads.listedServices s.toStore own (read bounds k)))
    (fun k => ?_) ?_
  · rw [hresponses]
    unfold servicesQuery
    cases dateParams timestamptz range <;> rfl
  · refine partition_of_pages (fun _ => toItem) (d := 20) limit (by decide) (List.perm_insertionSort _ _)
      (byCreation_sorted (Listing.filter_keyed s.servicesKeyed _) direction) (fun _ => hid) fun k => ?_
    simp only [Reads.servicesPage]
    rw [page_rows limit (by decide : 20 ≤ 100)]
    rfl

variable (limit : Limit 100) (range : DateRange) (serviceType : Option ServiceType) (direction : Option SortDirection)

def MyServicesPartition (user : AuthUser) : Prop :=
  Partition drv (fun k => listMyServices drv timestamptz s user ⟨limit.page k, range, serviceType, direction⟩) (·.id)
    (created (·.createdAt) (·.id) direction)
    (s.services.filter fun so => decide (so.userId = user.sub) && columnIs serviceType so.serviceType &&
      within timestamptz range so.createdAt)

def PublicServicesPartition : Prop :=
  Partition drv (fun k => publicListServices drv timestamptz s ⟨limit.page k, range, serviceType, direction⟩) (·.id)
    (created (·.createdAt) (·.id) direction)
    (s.services.filter fun so => columnIs serviceType so.serviceType && within timestamptz range so.createdAt)

def AdminServicesPartition : Prop :=
  Partition drv (fun k => adminListServices drv timestamptz s ⟨limit.page k, range, serviceType, direction⟩) (·.id)
    (created (·.createdAt) (·.id) direction)
    (s.services.filter fun so => columnIs serviceType so.serviceType && within timestamptz range so.createdAt)

theorem listMyServices_iff (user : AuthUser) :
    MyServicesPartition drv timestamptz s limit range serviceType direction user ↔ Readable timestamptz range :=
  services_iff drv timestamptz s (fun so => so.userId = user.sub) (fun so => .obj (Reads.serviceFields drv so))
    (fun _ => rfl) limit range serviceType direction fun _ => rfl

theorem publicListServices_iff :
    PublicServicesPartition drv timestamptz s limit range serviceType direction ↔ Readable timestamptz range :=
  services_iff drv timestamptz s (fun _ => true) (fun so => .obj (Reads.serviceFields drv so)) (fun _ => rfl)
    limit range serviceType direction fun _ => rfl

theorem adminListServices_iff :
    AdminServicesPartition drv timestamptz s limit range serviceType direction ↔ Readable timestamptz range :=
  services_iff drv timestamptz s (fun _ => true) (Reads.adminServicePayload drv s.toStore) (fun _ => rfl)
    limit range serviceType direction fun _ => rfl

end Services

section Texts
variable {createdAt id : Row → Nat}

/-- `ORDER BY created_at DESC, id DESC` on the text, without ties. -/
def createdText (createdAt id : Row → Nat) (a b : Row) : Prop :=
  drv.timestampText (createdAt b) < drv.timestampText (createdAt a) ∨
    (drv.timestampText (createdAt a) = drv.timestampText (createdAt b) ∧ id b < id a)

theorem byCreationText_sorted {rows : List Row} (hkeyed : (rows.map id).Nodup) :
    (rows.insertionSort (byCreationText drv createdAt id)).Pairwise (createdText drv createdAt id) := by
  refine sorted_strict hkeyed (fun a b => ?_) (fun a b c hab hbc => ?_) fun a b hne hab => ?_
  · obtain hlt | heq | hgt := lt_trichotomy (drv.timestampText (createdAt a)) (drv.timestampText (createdAt b))
    · exact .inr (.inl hlt)
    · exact (le_total (id b) (id a)).imp (fun hle => .inr ⟨heq, hle⟩) fun hle => .inr ⟨heq.symm, hle⟩
    · exact .inl (.inl hgt)
  · obtain hlt | ⟨heq, hle⟩ := hab
    · obtain hlt' | ⟨heq', -⟩ := hbc
      · exact .inl (lt_trans hlt' hlt)
      · exact .inl (heq' ▸ hlt)
    · obtain hlt' | ⟨heq', hle'⟩ := hbc
      · exact .inl (heq ▸ hlt')
      · exact .inr ⟨heq.trans heq', le_trans hle' hle⟩
  · exact hab.imp_right fun hboth => ⟨hboth.1, lt_of_le_of_ne hboth.2 hne.symm⟩

variable (limit : Limit 100)

def GalleryPartition (responses : ListGalleryQueryDto → Except Failure Payload) (activeOnly : Bool)
    (query : Option String) : Prop :=
  Partition drv (fun k => responses ⟨limit.page k, query⟩) (·.id) (createdText drv (·.createdAt) (·.id))
    (matchingGallery f s activeOnly query)

theorem listGalleryItems_iff (activeOnly : Bool) (query : Option String) :
    GalleryPartition drv f s limit (listGalleryItems drv f s activeOnly) activeOnly query ↔
      query.all textStorable = true := by
  by_cases hquery : query.all textStorable = true
  · refine iff_of_true ?_ hquery
    refine partition_of_pages (fun _ => galleryItemPayload drv s) (d := 20) limit (by decide) (List.perm_insertionSort _ _)
      (byCreationText_sorted drv (Listing.filter_keyed s.galleryKeyed _)) (fun _ _ => rfl) fun k => ?_
    simp only [listGalleryItems, if_pos hquery, page_rows limit (by decide : 20 ≤ 100)]
  · refine iff_of_false (not_partition ⟨.database .characterNotInRepertoire, ?_⟩) hquery
    rw [listGalleryItems, if_neg hquery]

def ReviewsPartition (itemType : ItemType) (itemId : Nat) : Prop :=
  Partition drv (fun k => .ok (getItemReviews drv s itemId ⟨limit.page k, itemType⟩)) (·.id)
    (createdText drv (·.createdAt) (·.id))
    (s.reviews.filter fun review => review.itemType = itemType && review.itemId = itemId)

theorem getItemReviews_partition (itemType : ItemType) (itemId : Nat) : ReviewsPartition drv s limit itemType itemId := by
  refine partition_of_pages (fun _ => reviewPayload drv) (d := 20) limit (by decide) (List.perm_insertionSort _ _)
    (byCreationText_sorted drv (Listing.filter_keyed s.reviewsKeyed _)) (fun _ _ => rfl) fun k => ?_
  simp only [getItemReviews, page_rows limit (by decide : 20 ≤ 100)]

end Texts

section Followups

/-- An item and a caller who may see it. -/
structure OwnItem (s : Store) where
  user : AuthUser
  itemType : ItemType
  itemId : Nat
  owned : Reads.assertUserOwnsItem s.toStore user itemType itemId = .ok ()

def StepsPartition (limit : Limit 100) (item : OwnItem s) : Prop :=
  Partition drv
    (fun k => Reads.listFollowupSteps drv s.toStore item.user item.itemType item.itemId (limit.page k)) (·.id)
    (orderedBy (·.sortOrder) .asc fun a b => a.id < b.id)
    (s.steps.filter fun step => step.itemType = item.itemType ∧ step.itemId = item.itemId)

theorem listFollowupSteps_partition (limit : Limit 100) (item : OwnItem s) : StepsPartition drv s limit item := by
  refine partition_of_pages (fun _ step => .obj (Reads.stepFields drv step)) (d := 50) limit (by decide)
    (List.perm_insertionSort _ _) (sorted_strict (Listing.filter_keyed s.stepsKeyed _)
      (orderedBy_total fun a b => le_total a.id b.id) (fun a b c => orderedBy_trans fun a b c => le_trans)
      fun a b hne => orderedBy_mono fun hle => lt_of_le_of_ne hle hne) (fun _ _ => rfl) fun k => ?_
  simp only [Reads.listFollowupSteps, item.owned, page_rows limit (by decide : 50 ≤ 100)]
  rfl

end Followups

/-- The pages of each list go through its rows, one sorted list with the total, exactly when Postgres
can read the dates and take the search text. -/
theorem pages_partition_iff :
    (∀ limit range status direction,
      OrdersPartition drv timestamptz s limit range status direction ↔ Readable timestamptz range) ∧
    (∀ limit range status severity sortBy direction,
      FaultsPartition drv timestamptz s limit range status severity sortBy direction ↔ Readable timestamptz range) ∧
    (∀ limit range serviceType direction user,
      MyServicesPartition drv timestamptz s limit range serviceType direction user ↔ Readable timestamptz range) ∧
    (∀ limit range serviceType direction,
      PublicServicesPartition drv timestamptz s limit range serviceType direction ↔ Readable timestamptz range) ∧
    (∀ limit range serviceType direction,
      AdminServicesPartition drv timestamptz s limit range serviceType direction ↔ Readable timestamptz range) ∧
    (∀ limit query, GalleryPartition drv f s limit (listGallery drv f s) true query ↔ query.all textStorable = true) ∧
    (∀ limit query,
      GalleryPartition drv f s limit (adminListGallery drv f s) false query ↔ query.all textStorable = true) ∧
    (∀ limit item, StepsPartition drv s limit item) ∧
    ∀ limit itemType itemId, ReviewsPartition drv s limit itemType itemId :=
  ⟨adminListOrders_iff drv timestamptz s, adminListFaults_iff drv timestamptz s, listMyServices_iff drv timestamptz s,
    publicListServices_iff drv timestamptz s, adminListServices_iff drv timestamptz s,
    fun limit => listGalleryItems_iff drv f s limit true, fun limit => listGalleryItems_iff drv f s limit false,
    listFollowupSteps_partition drv s, getItemReviews_partition drv s⟩

end Lists

section February

def lampRequests : Store :=
  { Reads.lampStore with
    reviews := []
    gallery := []
    galleryAssets := []
    rated := rfl
    stepsKeyed := by decide
    reviewsKeyed := by decide
    galleryKeyed := by decide }

/-- A calendar that ends February before its 30th day. -/
def february (text : String) : Option Nat := if text = "2024-02-30" then none else some 0

/-- A date that is written like one, and is none, makes the list of orders fail. -/
theorem orders_unanswered :
    (∀ k, adminListOrders Fk.textReader.toDriver february lampRequests
      ⟨(Listing.Limit.of 20 (by decide)).page k, { fromDate := some "2024-02-30" }, none, none⟩ =
        .error (.database .invalidDatetime)) ∧
      ¬ OrdersPartition Fk.textReader.toDriver february lampRequests (.of 20 (by decide))
        { fromDate := some "2024-02-30" } none none :=
  ⟨fun _ => rfl, not_partition ⟨_, rfl⟩⟩

end February

end Kayan.Requests
