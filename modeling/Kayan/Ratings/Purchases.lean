import Kayan.Items.Setting
import Kayan.Ratings.Frame
import Kayan.Shop.Stock

/-!
# Rated purchases and services

A product is rated in a delivered order and a service once it is finished. Unlike faults, orders and services
can be given any status by an admin, so their ratings stay what they are in those runs in which the admins
leave what is rated as it is.
-/
namespace Kayan.Ratings
open RowStore Interleave Shop
open Reads (ItemType)
open Requests (ItemReview)

variable {drv : Driver} {m : Move} {c : Client} {d d' t : Db} {userId orderId productId : Nat} {itemType : ItemType}
  {itemId ratingValue : Nat} {comment : Option String}

/-- The rated products were ordered by their raters in orders that are delivered, and the rated services are the
raters' and finished. -/
structure RatedCompleted (d : Db) : Prop where
  products : ∀ review ∈ d.productReviews.committedRows,
    RateableProduct d review.userId review.orderId review.productId
  services : ∀ review ∈ d.reviews.committedRows, review.itemType = .service →
    Rateable d review.userId .service review.itemId

/-- An admin leaves what is rated completed. -/
def LeavesRated (d : Db) : Request → Prop
  | .items (.shop (.adminUpdateOrderStatus _ orderId status)) =>
    (∃ review ∈ d.productReviews.committedRows, review.orderId = orderId) → status = .delivered
  | .items (.adminUpdateServiceStatus _ serviceId status) =>
    (∃ review ∈ d.reviews.committedRows, review.itemType = .service ∧ review.itemId = serviceId) → status = .finished
  | _ => True

section OrderItems
variable {i i' : Items.Db} {k : Nat} {row : OrderItem}

/-- What a statement does to the items of orders. -/
def OrderItems (c : Client) (t t' : Table Client OrderItem) : Prop :=
  t' = t ∨ (∃ row, t' = t.insert c row) ∨ t' = t.commit c ∨ t' = t.rollback c

theorem orderItems_shop {q : Shop.Stmt} {e e' : Shop.Db} {r : Shop.Answer q} (h : Shop.act m c q e = some (r, e')) :
    OrderItems c e.items e'.items := by
  rcases Shop.act_change h with hchange | ⟨-, rfl⟩ | ⟨-, rfl⟩
  · cases hchange with
    | insertItem => exact Or.inr (Or.inl ⟨_, rfl⟩)
    | _ => exact Or.inl rfl
  · exact Or.inr (Or.inr (Or.inl rfl))
  · exact Or.inr (Or.inr (Or.inr rfl))

theorem orderItems_act {q : Items.Stmt} {r : Items.Answer q} (h : Items.act m c q i = some (r, i')) :
    OrderItems c i.shop.items i'.shop.items := by
  cases m with
  | fail e =>
    obtain ⟨-, rfl⟩ := Items.act_fail h
    exact Or.inl rfl
  | run now =>
    cases q with
    | shop q =>
      obtain ⟨x, hx, heq⟩ := Option.map_eq_some_iff.mp h
      cases heq
      have hitems : OrderItems c i.shop.items x.2.items := orderItems_shop (m := .run now) hx
      cases q with
      | commit | rollback =>
        cases hx
        exact hitems
      | _ => exact hitems
    | insertFaultAsset faultId fileId sortOrder =>
      simp only [Items.act, Items.exec] at h
      split at h
      · cases h
        exact Or.inl rfl
      · split at h <;>
        · cases h
          exact Or.inl rfl
    | updateFault dto faultId =>
      simp only [Items.act, Items.exec] at h
      split at h
      · cases h
        exact Or.inl rfl
      · split at h
        · cases h
          exact Or.inl rfl
        · cases h
    | updateDeliveryAddress | cancelFaultRow | updateFaultStatus | updateService | cancelServiceRow
    | updateServiceStatus | deleteFaultAssets =>
      obtain ⟨x, -, heq⟩ := Option.map_eq_some_iff.mp h
      cases heq
      exact Or.inl rfl
    | insertFaultHistory ex =>
      cases ex <;>
      · cases h
        exact Or.inl rfl
    | insertFault | selectOwnFaultStatus | selectFaultStatus | selectFiles | selectFault | selectFaultAssets
    | insertService | selectServiceStatus | insertServiceHistory | selectService =>
      cases h
      exact Or.inl rfl

/-- The items of orders are never changed or deleted. -/
theorem OrderItems.stay {t t' : Table Client OrderItem} (h : OrderItems c t t') (ht : ∀ b, t.Inserts b) :
    (∀ b, t'.Inserts b) ∧ ∀ k row, t.committed k = some row → t'.committed k = some row := by
  rcases h with rfl | ⟨row, rfl⟩ | rfl | rfl
  · exact ⟨ht, fun _ _ => id⟩
  · exact ⟨fun b => (ht b).insert_any, fun _ _ hrow => Table.committed_insert.trans hrow⟩
  · exact ⟨fun b => (ht b).commit, fun _ _ hrow => (ht c).committed_commit hrow⟩
  · exact ⟨fun b => (ht b).rollback, fun _ _ hrow => Table.committed_rollback.trans hrow⟩

theorem orderItems_runs {req : Items.Request} {r : Except Failure Payload} (ht : ∀ b, i.shop.items.Inserts b)
    (hr : Runs (Items.acts c) (req.code drv).run i r i') : (∀ b, i'.shop.items.Inserts b) ∧
      ∀ k row, i.shop.items.committed k = some row → i'.shop.items.committed k = some row := by
  refine hr.keeps (I := fun e => (∀ b, e.shop.items.Inserts b) ∧
    ∀ k row, i.shop.items.committed k = some row → e.shop.items.committed k = some row) ?_ ⟨ht, fun _ _ => id⟩
  rintro q d r d' ⟨m, ha⟩ ⟨hd, hrows⟩
  obtain ⟨hd', hstay⟩ := (orderItems_act ha).stay hd
  exact ⟨hd', fun k row hrow => hstay k row (hrows k row hrow)⟩

end OrderItems

section Calls

theorem completed_ne_initial : completed itemType ≠ Items.Item.initial ⟨itemType, itemId⟩ := by
  cases itemType <;> exact fun h => by cases h

theorem owner_eq (row : Items.Row) : owner row = row.userId := by
  cases row <;> rfl

/-- An order or a service that can be rated stays so where no admin gives it another status. -/
theorem Rateable.stays {req : Items.Request} {r : Except Failure Payload} (h : Rateable d userId itemType itemId)
    (hsane : Items.Sane d.items) (htype : itemType ≠ .fault)
    (hreq : ∀ s, req.sets = some (⟨itemType, itemId⟩, s) → s = completed itemType)
    (hr : Runs (Items.acts c) (req.code drv).run d.items r d'.items) : Rateable d' userId itemType itemId := by
  obtain ⟨row, hrow, howner, hstatus⟩ := h
  have hsettled : Items.Settled ⟨itemType, itemId⟩ (completed itemType) userId .idle d.items :=
    ⟨hsane, ⟨row, hrow, hstatus, (owner_eq row).symm.trans howner⟩, fun s hs => by cases hs⟩
  obtain ⟨row', hrow', hstatus', howner'⟩ := (Items.settled_stays htype completed_ne_initial hreq hsettled hr).row
  exact ⟨row', hrow', (owner_eq row').trans howner', hstatus'⟩

theorem rateable_order : Rateable d userId .order orderId ↔
    ∃ o, d.tables.shop.orders.committed orderId = some o ∧ o.userId = userId ∧ o.status = .delivered := by
  constructor
  · rintro ⟨row, hrow, howner, hstatus⟩
    obtain ⟨o, ho, rfl⟩ := Option.map_eq_some_iff.mp hrow
    exact ⟨o, ho, howner, Items.Status.order.inj hstatus⟩
  · rintro ⟨o, ho, howner, hstatus⟩
    exact ⟨.order o, congrArg (Option.map Items.Row.order) ho, howner, congrArg Items.Status.order hstatus⟩

/-- What the calls keep while the admins leave what is rated as it is. -/
structure Received (d : Db) : Prop where
  sane : Items.Sane d.items
  inserts : ∀ b, d.tables.shop.items.Inserts b
  rated : RatedCompleted d

theorem Received.items {req : Items.Request} {r : Except Failure Payload} (h : Received d)
    (hreq : LeavesRated d (.items req)) (hr : Runs (acts drv c) (ofItems (req.code drv)).run d r d') : Received d' := by
  obtain ⟨hruns, hreviews, hproducts⟩ := runs_items hr
  obtain ⟨hinserts, hrows⟩ := orderItems_runs (i := d.items) h.inserts hruns
  refine ⟨h.sane.runs hruns, hinserts, ⟨fun review hreview => ?_, fun review hreview htype => ?_⟩⟩
  · rw [hproducts] at hreview
    obtain ⟨horder, item, hitem, hids⟩ := h.rated.products review hreview
    have hsets (s : Items.Status) (hs : req.sets = some (⟨.order, review.orderId⟩, s)) : s = completed .order := by
      cases req with
      | shop req =>
        cases req with
        | adminUpdateOrderStatus adminId orderId status =>
          cases hs
          exact congrArg Items.Status.order (hreq ⟨review, hreview, rfl⟩)
        | _ => cases hs
      | _ => cases hs
    refine ⟨rateable_order.mp ?_, item, ?_, hids⟩
    · exact (rateable_order.mpr horder).stays h.sane nofun hsets hruns
    · obtain ⟨k, hk⟩ := Table.mem_committedRows.mp hitem
      exact Table.mem_committedRows.mpr ⟨k, hrows k item hk⟩
  · rw [hreviews] at hreview
    have hsets (s : Items.Status) (hs : req.sets = some (⟨.service, review.itemId⟩, s)) : s = completed .service := by
      cases req with
      | shop req => cases req <;> cases hs
      | adminUpdateServiceStatus adminId serviceId status =>
        cases hs
        exact congrArg Items.Status.service (hreq ⟨review, hreview, htype, rfl⟩)
      | _ => cases hs
    exact (h.rated.services review hreview htype).stays h.sane nofun hsets hruns

theorem Received.review {now : Nat} {review : ItemReview} {reviews : Table Client ItemReview} (h : Received d)
    (hi : Rateable d userId itemType itemId)
    (hr : insertItemRating now userId itemType itemId ratingValue comment d.reviews = .ok (review, reviews)) :
    Received { d with reviews := reviews } := by
  obtain ⟨hkey, rfl, -⟩ := insertItemRating_ok hr
  refine ⟨sane_items h.sane, h.inserts, ⟨h.rated.products, fun r hmem htype => ?_⟩⟩
  rw [Table.committedRows_append] at hmem
  rcases List.mem_append.mp hmem with hmem | hmem
  · exact h.rated.services r hmem htype
  · rw [List.mem_singleton.mp hmem] at htype ⊢
    rw [hkey] at htype ⊢
    obtain rfl : itemType = .service := htype
    exact hi

theorem Received.productReview {now : Nat} {review : ProductReview} {productReviews : Table Client ProductReview}
    (h : Received d) (hi : RateableProduct d userId orderId productId)
    (hr : insertProductRating now userId orderId productId ratingValue comment d.tables.shop d.productReviews =
      .ok (review, productReviews)) : Received { d with productReviews := productReviews } := by
  obtain ⟨⟨rfl, rfl, rfl⟩, rfl⟩ := insertProductRating_ok hr
  refine ⟨sane_items h.sane, h.inserts, ⟨fun r hmem => ?_, h.rated.services⟩⟩
  rw [Table.committedRows_append] at hmem
  rcases List.mem_append.mp hmem with hmem | hmem
  · exact h.rated.products r hmem
  · rw [List.mem_singleton.mp hmem]
    exact hi

theorem Received.accepted {dto : CreateItemRatingDto} (h : Received d) (hd : Accepted d userId dto d') : Received d' := by
  obtain ⟨item, ratingValue, comment⟩ := dto
  cases item with
  | product orderId productId =>
    obtain ⟨hi, now, review, reviews, hinsert, rfl⟩ := hd
    exact h.productReview hi hinsert
  | fault itemId | service itemId =>
    obtain ⟨hi, now, review, reviews, hinsert, rfl⟩ := hd
    exact h.review hi hinsert

theorem Received.serves {x : Call} (h : Received d) (hx : Serves drv d x d') (hreq : LeavesRated d x.request) :
    Received d' := by
  obtain ⟨client, request, result⟩ := x
  cases request with
  | items req => exact h.items hreq hx
  | createItemRating userId dto =>
    have hout : outcome (fun _ => Accepted d userId dto) (· = d) result d' := createItemRating_ensures d result d' rfl hx
    cases result with
    | ok response => exact h.accepted hout
    | error e =>
      obtain rfl : d' = d := hout
      exact h

/-- In every run of calls, one after the other, in which the admins leave what is rated completed, it stays so. -/
theorem rated_completed_run {xs : List Call} (hd : Items.Unlocked d.tables) (hrated : RatedCompleted d)
    (hr : Trace.Run (fun d x d' => Serves drv d x d' ∧ LeavesRated d x.request) d xs t) : RatedCompleted t := by
  have hquiet : Items.Quiet d.tables := hd.quiet
  have hsane : Items.Sane d.items :=
    Items.Quiet.sane ⟨hquiet.orders, hquiet.orderHistory, hquiet.faults, hquiet.faultHistory, hquiet.services,
      hquiet.serviceHistory⟩
  have hreceived : Received t := hr.preserves (fun d x d' hx h => h.serves hx.1 hx.2) ⟨hsane, fun _ => hd.shop.items.inserts, hrated⟩
  exact hreceived.rated

/-- An order of user 1 on its way, and a service of user 1 in progress. -/
def purchases : Db where
  tables :=
    { shop :=
        { stocked [] with
          catalog := .numbered [{ title := "Lamp", description := "Lamp", amount := 3, price := "5.00" }]
          orders := .numbered [{ id := 1, userId := 1, deliveryAddress := "Here", status := .onTheWay, createdAt := 0,
                                 updatedAt := 0 }]
          items := .numbered [{ id := 1, orderId := 1, productId := 1, quantity := 1, unitPrice := "5.00" }] }
      faults := .numbered []
      faultHistory := .numbered []
      faultAssets := .numbered []
      services := .numbered [{ id := 1, userId := 1, serviceType := .maintenance, description := "Flat", address := "Here",
                               status := .inProgress, createdAt := 0, updatedAt := 0 }]
      serviceHistory := .numbered []
      files _ := none
      ratings := [] }
  reviews := .numbered []
  productReviews := .numbered []

theorem purchases_unlocked : Items.Unlocked purchases.tables :=
  ⟨⟨fun _ => rfl, fun _ => rfl, fun _ => rfl, fun _ => rfl, fun _ => rfl⟩, fun _ => rfl, fun _ => rfl, fun _ => rfl,
    fun _ => rfl, fun _ => rfl⟩

theorem purchases_rated : RatedCompleted purchases :=
  ⟨fun _ hmem => absurd hmem List.not_mem_nil, fun _ hmem => absurd hmem List.not_mem_nil⟩

/-- They are completed, rated, and set to their statuses once more. -/
def completions : List (Client × Request) :=
  [(0, .items (.shop (.adminUpdateOrderStatus 9 1 .delivered))),
   (1, .createItemRating 1 { item := .product 1 1, ratingValue := 5 }),
   (2, .items (.shop (.adminUpdateOrderStatus 9 1 .delivered))),
   (3, .items (.adminUpdateServiceStatus 9 1 .finished)),
   (4, .createItemRating 1 { item := .service 1, ratingValue := 4 })]

theorem rated_completed_purchases : ∃ xs t,
    Trace.Run (fun d x d' => Serves plainDriver d x d' ∧ LeavesRated d x.request) purchases xs t ∧
      t.productReviews.committedRows.length = 1 ∧ t.reviews.committedRows.length = 1 ∧ RatedCompleted t := by
  have hlengths : (serve plainDriver 5 completions purchases).map (fun x =>
      (x.2.productReviews.committedRows.length, x.2.reviews.committedRows.length)) = some (1, 1) := by
    decide +kernel
  obtain ⟨⟨xs, t⟩, hserve, hones⟩ := Option.map_eq_some_iff.mp hlengths
  have hleaves (y : Client × Request) (hy : y ∈ completions) (d : Db) : LeavesRated d y.2 := by
    simp only [completions, List.mem_cons, List.not_mem_nil, or_false] at hy
    rcases hy with rfl | rfl | rfl | rfl | rfl <;> simp [LeavesRated]
  have hlabels := (serve_run hserve).labels (P := fun x => ∀ d, LeavesRated d x.request)
    fun x hx => hleaves _ (serve_mem hserve x hx)
  have hrun : Trace.Run (fun d x d' => Serves plainDriver d x d' ∧ LeavesRated d x.request) purchases xs t :=
    hlabels.mono fun d x d' h => ⟨h.1, h.2 d⟩
  exact ⟨xs, t, hrun, (Prod.mk.inj hones).1, (Prod.mk.inj hones).2,
    rated_completed_run purchases_unlocked purchases_rated hrun⟩

/-- A rated order is sent back on its way. -/
def returned : List (Client × Request) :=
  [(0, .items (.shop (.adminUpdateOrderStatus 9 1 .delivered))),
   (1, .createItemRating 1 { item := .product 1 1, ratingValue := 5 }),
   (2, .items (.shop (.adminUpdateOrderStatus 9 1 .onTheWay)))]

theorem returned_order_rated : ∃ xs t, Trace.Run (Serves plainDriver) purchases xs t ∧ Items.Unlocked purchases.tables ∧
    RatedCompleted purchases ∧ ¬ RatedCompleted t := by
  have hreturned : (serve plainDriver 5 returned purchases).map (fun x =>
      (x.2.productReviews.committedRows.map (·.orderId), (x.2.tables.shop.orders.committed 1).map (·.status))) =
        some ([1], some .onTheWay) := by
    decide +kernel
  obtain ⟨⟨xs, t⟩, hserve, heq⟩ := Option.map_eq_some_iff.mp hreturned
  obtain ⟨hrated, hstatus⟩ := Prod.mk.inj heq
  refine ⟨xs, t, serve_run hserve, purchases_unlocked, purchases_rated, fun h => ?_⟩
  have hmem : 1 ∈ t.productReviews.committedRows.map (·.orderId) := hrated ▸ List.mem_cons_self
  obtain ⟨review, hreview, horder⟩ := List.mem_map.mp hmem
  obtain ⟨⟨o, ho, -, hdelivered⟩, -⟩ := h.products review hreview
  rw [horder] at ho
  rw [ho] at hstatus
  have hway : o.status = .onTheWay := Option.some.inj hstatus
  cases hdelivered.symm.trans hway

end Calls

end Kayan.Ratings
