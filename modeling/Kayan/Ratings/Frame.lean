import Kayan.Items.Settled
import Kayan.Ratings.Service

/-!
# What the calls change

A call on the items leaves the ratings alone. A call of `createItemRating` inserts one rating, of an item that
is its user's and completed, or it fails and changes nothing.
-/
namespace Kayan.Ratings
open RowStore Interleave Shop
open Reads (ItemType)
open Requests (ItemReview)

variable {drv : Driver} {m : Move} {c : Client} {d d' t : Db} {userId orderId productId itemId ratingValue : Nat}
  {itemType : ItemType} {comment : Option String}

section Items

theorem items_eq {i : Items.Db} (h : i.ratings = d.items.ratings) : Db.items { d with tables := i } = i := by
  obtain ⟨shop, faults, faultHistory, faultAssets, services, serviceHistory, files, ratings⟩ := i
  obtain rfl : ratings = d.items.ratings := h
  rfl

theorem act_items {q : Items.Stmt} {r : Answer (.items q)} (h : act drv m c (.items q) d = some (r, d')) :
    Items.act m c q d.items = some (r, d'.items) ∧ d'.reviews = d.reviews ∧ d'.productReviews = d.productReviews := by
  cases m with
  | run now =>
    obtain ⟨⟨r', i⟩, hi, heq⟩ := Option.map_eq_some_iff.mp h
    cases heq
    refine ⟨hi.trans ?_, rfl, rfl⟩
    exact congrArg (fun e => some (r', e)) (items_eq (Items.exec_reads hi).2).symm
  | fail e =>
    cases q with
    | shop q => cases q <;> cases h <;> exact ⟨rfl, rfl, rfl⟩
    | _ => cases h; exact ⟨rfl, rfl, rfl⟩

/-- A call on the items does to their tables what it does without ratings beside them, and rates nothing. -/
theorem runs_items {α : Type} {code : Items.Code α} {r : Except Failure α} (h : Runs (acts drv c) (ofItems code).run d r d') :
    Runs (Items.acts c) code.run d.items r d'.items ∧ d'.reviews = d.reviews ∧ d'.productReviews = d.productReviews := by
  constructor
  · refine Runs.of_embed (g := Stmt.items) (fun q d r d' hact => ?_) h
    obtain ⟨m, hact⟩ := hact
    exact ⟨m, (act_items hact).1⟩
  · refine Runs.embed_keeps (I := fun t => t.reviews = d.reviews ∧ t.productReviews = d.productReviews)
      (fun q d r d' hact hd => ?_) h ⟨rfl, rfl⟩
    obtain ⟨m, hact⟩ := hact
    obtain ⟨-, hreviews, hproducts⟩ := act_items hact
    exact ⟨hreviews.trans hd.1, hproducts.trans hd.2⟩

end Items

section Ratings

theorem act_fail {e : PgError} {q : Stmt} {r : Answer q} (h : act drv (.fail e) c q d = some (r, d')) :
    r = .error e ∧ d' = d := by
  cases q with
  | items q =>
    cases q with
    | shop q => cases q <;> cases h <;> exact ⟨rfl, rfl⟩
    | _ => cases h; exact ⟨rfl, rfl⟩
  | _ => cases h; exact ⟨rfl, rfl⟩

/-- A statement that only reads. -/
theorem select_ensures {q : Stmt} {v : Reply q} {α : Type} {f : Reply q → Code α} {Q : α → Db → Prop}
    (hq : ∀ now, exec drv now c q d = some (.ok v, d)) (hf : Ensures (acts drv c) (· = d) (f v) Q (· = d)) :
    Ensures (acts drv c) (· = d) (query q >>= f) Q (· = d) := by
  refine Ensures.bind (Q := fun w d' => w = v ∧ d' = d) (Ensures.await fun d₀ r d' hd ⟨m, hact⟩ => ?_) fun w => ?_
  · subst hd
    cases m with
    | run now =>
      have hexec : exec drv now c q d₀ = some (r, d') := hact
      cases (hq now).symm.trans hexec
      exact ⟨rfl, rfl⟩
    | fail e =>
      obtain ⟨rfl, rfl⟩ := act_fail hact
      exact rfl
  · intro d₀ r d' hd hrun
    obtain ⟨rfl, rfl⟩ := hd
    exact hf d₀ r d' rfl hrun

/-- The item is the user's, and completed. -/
def Rateable (d : Db) (userId : Nat) (itemType : ItemType) (itemId : Nat) : Prop :=
  ∃ row, d.row itemType itemId = some row ∧ owner row = userId ∧ row.status = completed itemType

theorem assertRateableItem_ensures : Ensures (acts drv c) (· = d) (assertRateableItem userId itemType itemId)
    (fun _ d' => d' = d ∧ Rateable d userId itemType itemId) (· = d) := by
  refine select_ensures (fun _ => rfl) ?_
  rcases hrow : d.row itemType itemId with - | row
  · exact Ensures.throw fun _ => id
  · simp only [Option.map_some]
    split
    · exact Ensures.throw fun _ => id
    · rename_i howner
      have hselect (now : Nat) : exec drv now c (.selectStatus itemType itemId) d = some (.ok (some row.status), d) := by
        simp only [exec, hrow, Option.map_some]
      refine select_ensures hselect ?_
      change Ensures _ _ (if row.status ≠ completed itemType then badRequest (tooEarly itemType) else pure ()) _ _
      split
      · exact Ensures.throw fun _ => id
      · rename_i hstatus
        refine Ensures.pure fun d' hd => ⟨hd, row, hrow, ?_, ?_⟩
        · exact not_not.mp howner
        · exact not_not.mp hstatus

/-- The order is the user's and delivered, and the product was ordered in it. -/
def RateableProduct (d : Db) (userId orderId productId : Nat) : Prop :=
  (∃ o, d.tables.shop.orders.committed orderId = some o ∧ o.userId = userId ∧ o.status = .delivered) ∧
    ∃ r ∈ d.tables.shop.items.committedRows, r.orderId = orderId ∧ r.productId = productId

theorem assertRateableProduct_ensures : Ensures (acts drv c) (· = d) (assertRateableProduct userId orderId productId)
    (fun _ d' => d' = d ∧ RateableProduct d userId orderId productId) (· = d) := by
  refine select_ensures (fun _ => rfl) ?_
  rcases horder : d.tables.shop.orders.committed orderId with - | o
  · exact Ensures.throw fun _ => id
  · simp only [Option.map_some]
    split
    · exact Ensures.throw fun _ => id
    · rename_i howner
      split
      · exact Ensures.throw fun _ => id
      · rename_i hstatus
        refine select_ensures (fun _ => rfl) ?_
        split
        · exact Ensures.throw fun _ => id
        · rename_i id hitem
          obtain ⟨r, hr, -⟩ := Option.map_eq_some_iff.mp hitem
          have hfound := List.find?_some hr
          have hids : r.orderId = orderId ∧ r.productId = productId := of_decide_eq_true hfound
          exact Ensures.pure fun d' hd =>
            ⟨hd, ⟨o, horder, not_not.mp howner, not_not.mp hstatus⟩, r, List.mem_of_find?_eq_some hr, hids⟩

/-- One rating of an item is inserted. -/
def Reviewed (d : Db) (userId : Nat) (itemType : ItemType) (itemId ratingValue : Nat) (comment : Option String) (d' : Db) :
    Prop :=
  Rateable d userId itemType itemId ∧ ∃ now review reviews,
    insertItemRating now userId itemType itemId ratingValue comment d.reviews = .ok (review, reviews) ∧ d' = { d with reviews }

/-- One rating of a product is inserted. -/
def ProductReviewed (d : Db) (userId orderId productId ratingValue : Nat) (comment : Option String) (d' : Db) : Prop :=
  RateableProduct d userId orderId productId ∧ ∃ now review productReviews,
    insertProductRating now userId orderId productId ratingValue comment d.tables.shop d.productReviews =
      .ok (review, productReviews) ∧ d' = { d with productReviews }

theorem rateItem_ensures : Ensures (acts drv c) (· = d) (rateItem drv userId itemType itemId ratingValue comment)
    (fun _ => Reviewed d userId itemType itemId ratingValue comment) (· = d) := by
  refine Ensures.bind assertRateableItem_ensures fun _ => ?_
  refine Ensures.bind (Q := fun _ => Reviewed d userId itemType itemId ratingValue comment)
    (Ensures.await fun d₀ r d' hd hact => ?_) fun _ => Ensures.pure fun _ => id
  obtain ⟨rfl, hi⟩ := hd
  obtain ⟨m, hact⟩ := hact
  cases m with
  | fail e =>
    obtain ⟨rfl, rfl⟩ := act_fail hact
    exact rfl
  | run now =>
    simp only [act, exec] at hact
    split at hact
    · rename_i review reviews hinsert
      cases hact
      exact ⟨hi, now, review, reviews, hinsert, rfl⟩
    · cases hact
      exact rfl

theorem rateProduct_ensures : Ensures (acts drv c) (· = d) (rateProduct drv userId orderId productId ratingValue comment)
    (fun _ => ProductReviewed d userId orderId productId ratingValue comment) (· = d) := by
  refine Ensures.bind assertRateableProduct_ensures fun _ => ?_
  refine Ensures.bind (Q := fun _ => ProductReviewed d userId orderId productId ratingValue comment)
    (Ensures.await fun d₀ r d' hd hact => ?_) fun _ => Ensures.pure fun _ => id
  obtain ⟨rfl, hi⟩ := hd
  obtain ⟨m, hact⟩ := hact
  cases m with
  | fail e =>
    obtain ⟨rfl, rfl⟩ := act_fail hact
    exact rfl
  | run now =>
    simp only [act, exec] at hact
    split at hact
    · rename_i review reviews hinsert
      cases hact
      exact ⟨hi, now, review, reviews, hinsert, rfl⟩
    · cases hact
      exact rfl

/-- What a rating that is accepted does. -/
def Accepted (d : Db) (userId : Nat) (dto : CreateItemRatingDto) : Db → Prop :=
  match dto.item with
  | .product orderId productId => ProductReviewed d userId orderId productId dto.ratingValue dto.comment
  | .fault itemId => Reviewed d userId .fault itemId dto.ratingValue dto.comment
  | .service itemId => Reviewed d userId .service itemId dto.ratingValue dto.comment

/-- A rating is inserted, or it is rejected and changes nothing. -/
theorem createItemRating_ensures {dto : CreateItemRatingDto} : Ensures (acts drv c) (· = d)
    (createItemRating drv userId dto) (fun _ => Accepted d userId dto) (· = d) := by
  refine Ensures.catch (E := (· = d)) ?_ fun error => ?_
  · obtain ⟨item, ratingValue, comment⟩ := dto
    cases item with
    | product orderId productId => exact rateProduct_ensures
    | fault itemId | service itemId => exact rateItem_ensures
  · split
    · exact Ensures.throw fun _ => id
    · exact Ensures.throw fun _ => id

end Ratings

section Inserted

theorem insertItemRating_ok {now : Nat} {review : ItemReview} {reviews reviews' : Table Client ItemReview}
    (h : insertItemRating now userId itemType itemId ratingValue comment reviews = .ok (review, reviews')) :
    review.toItemRating = ⟨userId, itemType, itemId⟩ ∧ reviews' = reviews.append review ∧
      ∀ r ∈ reviews.committedRows, r.toItemRating ≠ review.toItemRating := by
  unfold insertItemRating at h
  split at h
  · cases h
  · split at h
    · cases h
    · rename_i hnew
      cases h
      refine ⟨rfl, rfl, fun r hr heq => hnew ?_⟩
      exact List.any_eq_true.mpr ⟨r, hr, decide_eq_true heq⟩

theorem insertProductRating_ok {now : Nat} {shop : Shop.Db} {review : ProductReview}
    {reviews reviews' : Table Client ProductReview}
    (h : insertProductRating now userId orderId productId ratingValue comment shop reviews = .ok (review, reviews')) :
    (review.userId = userId ∧ review.orderId = orderId ∧ review.productId = productId) ∧ reviews' = reviews.append review := by
  unfold insertProductRating at h
  split at h
  · cases h
  · split at h
    · cases h
    · split at h
      · cases h
      · cases h
        exact ⟨⟨rfl, rfl, rfl⟩, rfl⟩

theorem sane_items {reviews : Table Client ItemReview} {productReviews : Table Client ProductReview} (h : Items.Sane d.items) :
    Items.Sane (Db.items { d with reviews := reviews, productReviews := productReviews }) := by
  obtain ⟨owner, howner⟩ := h.owners
  exact ⟨⟨h.tidy.orders, h.tidy.faults, h.tidy.services, h.tidy.orderHistory, h.tidy.faultHistory,
    h.tidy.serviceHistory⟩, h.sound, owner, howner.orders, howner.faults, howner.services⟩

end Inserted

end Kayan.Ratings
