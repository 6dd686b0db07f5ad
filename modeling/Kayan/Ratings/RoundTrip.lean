import Kayan.Listing.Pages
import Kayan.Ratings.Body
import Kayan.Ratings.Frame
import Kayan.Shop.Stock

/-!
# From a rating request to the reviews

A rating that the documentation allows has to pass the validation, to be stored, and to be found among the
reviews of its item. It is exactly where it has no comment and is not of an ordered product.
-/
namespace Kayan.Ratings
open RowStore Interleave Shop
open Listing (Limit)
open Reads (ItemType)
open Requests (ItemReview byCreationText reviewPayload)

/-- When each statement of a call runs. -/
abbrev Clock := Stmt → Db → Nat

variable (drv : Driver) (clock : Clock) (c : Client)

/-- Code that runs with no other statements in between: what it returns or throws, and the store it leaves. -/
def alone {α : Type} (code : Code α) (d : Db) : Option (Except Failure α × Db) :=
  code.run.alone (fun q d => exec drv (clock q d) c q d) d

/-- The item has no rating of the user yet. -/
def NotRated (d : Db) (userId : Nat) : RatedItem → Prop
  | .product orderId productId =>
    (∀ r ∈ d.productReviews.committedRows, ¬ (r.userId = userId ∧ r.orderId = orderId ∧ r.productId = productId)) ∧
      ∀ r ∈ d.reviews.committedRows, r.toItemRating ≠ ⟨userId, .order, orderId⟩ ∧ r.toItemRating ≠ ⟨userId, .order, productId⟩
  | .fault itemId => ∀ r ∈ d.reviews.committedRows, r.toItemRating ≠ ⟨userId, .fault, itemId⟩
  | .service itemId => ∀ r ∈ d.reviews.committedRows, r.toItemRating ≠ ⟨userId, .service, itemId⟩

/-- The user may rate the item. -/
def MayRate (d : Db) (userId : Nat) : RatedItem → Prop
  | .product orderId productId => RateableProduct d userId orderId productId
  | .fault itemId => Rateable d userId .fault itemId
  | .service itemId => Rateable d userId .service itemId

/-- The rules of the documentation. A comment is any text of 1 to 2000 characters. -/
structure Documented (d : Db) (userId : Nat) (dto : CreateItemRatingDto) : Prop where
  mayRate : MayRate d userId dto.item
  inRange : dto.InRange
  comment : ∀ comment ∈ dto.comment, 1 ≤ comment.length ∧ comment.length ≤ 2000
  notRated : NotRated d userId dto.item

/-- A page shows the rating. -/
def Shows (userId : Nat) (dto : CreateItemRatingDto) (page : Payload) : Prop :=
  ∃ items entry, page.field "items" = some (.arr items) ∧ entry ∈ items ∧ entry.field "user_id" = some (drv.bigint userId) ∧
    entry.field "rating_value" = some (.num dto.ratingValue) ∧ entry.field "comment" = some (.ofText dto.comment)

/-- Among the pages of the reviews of the item is one that shows the rating. -/
def Listed (d : Db) (userId : Nat) (dto : CreateItemRatingDto) (itemId : Nat) : Prop :=
  ∀ limit : Limit 100, ∃ k page d', alone drv clock c (getItemReviews drv itemId ⟨limit.page k, dto.item.type⟩) d =
    some (.ok page, d') ∧ Shows drv userId dto page

/-- The request is accepted and stored, and the rating is listed under one of the ids of its item. -/
def RoundTrip (v : Validators) (d : Db) (userId : Nat) (dto : CreateItemRatingDto) : Prop :=
  validate v dto.body = .ok dto ∧ ∃ response d', alone drv clock c (createItemRating drv userId dto) d =
    some (.ok response, d') ∧ ∃ x ∈ dto.item.idFields, Listed drv clock c d' userId dto x.2

variable {drv clock c} {d d' : Db} {userId itemId ratingValue : Nat} {itemType : ItemType} {comment : Option String}
  {dto : CreateItemRatingDto} {α β : Type}

theorem query_alone {q : Stmt} {v : Reply q} {f : Reply q → Code β} (h : exec drv (clock q d) c q d = some (.ok v, d')) :
    alone drv clock c (query q >>= f) d = alone drv clock c (f v) d' :=
  await_alone h

theorem alone_runs {code : Code α} {r : Except Failure α} (h : alone drv clock c code d = some (r, d')) :
    Runs (acts drv c) code.run d r d' :=
  Runs.of_alone (fun q d _ _ hexec => ⟨.run (clock q d), hexec⟩) h

section Listing

theorem ofText_injective : Function.Injective Payload.ofText := by
  intro a b h
  cases a with
  | none =>
    cases b with
    | none => rfl
    | some b => cases h
  | some a =>
    cases b with
    | none => cases h
    | some b => exact congrArg some (Payload.str.inj h)

/-- The page of the reviews, in the order of the query. -/
def reviewPage (drv : Driver) (d : Db) (itemType : ItemType) (itemId : Nat) (limit : Limit 100) (k : Nat) : List ItemReview :=
  Paging.page (limit.size 20) k ((d.reviewsOf itemType itemId).insertionSort (byCreationText drv (·.createdAt) (·.id)))

theorem getItemReviews_alone (limit : Limit 100) (k : Nat) :
    alone drv clock c (getItemReviews drv itemId ⟨limit.page k, itemType⟩) d =
      some (.ok (.obj [("items", .arr ((reviewPage drv d itemType itemId limit k).map (reviewPayload drv))),
        ("total", .num (d.reviewsOf itemType itemId).length)]), d) := by
  refine (query_alone (q := .countReviews itemType itemId) rfl).trans ?_
  refine (query_alone (q := .selectReviews itemType itemId _ _) rfl).trans ?_
  rw [reviewPage, ← Listing.page_rows limit (by decide : 20 ≤ 100)]
  rfl

/-- The pages show the reviews of the item. -/
theorem listed_iff (hdrv : Function.Injective drv.bigintText) (dto : CreateItemRatingDto) :
    Listed drv clock c d userId dto itemId ↔ ∃ review ∈ d.reviewsOf dto.item.type itemId, review.userId = userId ∧
      review.ratingValue = dto.ratingValue ∧ review.comment = dto.comment := by
  constructor
  · intro h
    obtain ⟨k, page, d', halone, items, entry, hitems, hentry, huser, hvalue, hcomment⟩ := h ⟨none, by simp⟩
    rw [getItemReviews_alone] at halone
    cases halone
    obtain rfl : (reviewPage drv d dto.item.type itemId ⟨none, by simp⟩ k).map (reviewPayload drv) = items :=
      Payload.arr.inj (Option.some.inj hitems)
    obtain ⟨review, hreview, rfl⟩ := List.mem_map.mp hentry
    have hmem : review ∈ d.reviewsOf dto.item.type itemId :=
      (List.mem_insertionSort _).mp (List.mem_of_mem_drop (List.mem_of_mem_take hreview))
    refine ⟨review, hmem, ?_, ?_, ?_⟩
    · exact hdrv (Payload.str.inj (Option.some.inj huser))
    · exact Nat.cast_injective (Payload.num.inj (Option.some.inj hvalue))
    · exact ofText_injective (Option.some.inj hcomment)
  · rintro ⟨review, hmem, huser, hvalue, hcomment⟩ limit
    have hsorted : review ∈ (d.reviewsOf dto.item.type itemId).insertionSort (byCreationText drv (·.createdAt) (·.id)) :=
      (List.mem_insertionSort _).mpr hmem
    obtain ⟨k, hk⟩ := Paging.exists_page (limit.size_pos (by decide : 0 < 20)) hsorted
    refine ⟨k, _, d, getItemReviews_alone limit k, _, reviewPayload drv review, rfl, List.mem_map_of_mem hk, ?_, ?_, ?_⟩
    · exact congrArg (fun n => some (drv.bigint n)) huser
    · exact congrArg (fun n : Nat => some (Payload.num n)) hvalue
    · exact congrArg (fun comment => some (Payload.ofText comment)) hcomment

end Listing

section Rating

/-- A rating without a comment is stored. -/
theorem rateItem_alone (hi : Rateable d userId itemType itemId) (hvalue : 1 ≤ ratingValue ∧ ratingValue ≤ 5)
    (hnew : ∀ r ∈ d.reviews.committedRows, r.toItemRating ≠ ⟨userId, itemType, itemId⟩) :
    ∃ response review, alone drv clock c (rateItem drv userId itemType itemId ratingValue none) d =
        some (.ok response, { d with reviews := d.reviews.append review }) ∧
      review.toItemRating = ⟨userId, itemType, itemId⟩ ∧ review.ratingValue = ratingValue ∧ review.comment = none := by
  obtain ⟨row, hrow, rfl, hstatus⟩ := hi
  let insertion : Stmt := .insertItemRating (owner row) itemType itemId ratingValue none
  let review : ItemReview :=
    { userId := owner row, itemType, itemId, id := d.reviews.next, ratingValue, comment := none, createdAt := clock insertion d }
  have howner : exec drv (clock (.selectOwner itemType itemId) d) c (.selectOwner itemType itemId) d =
      some (.ok (some (owner row)), d) := by
    simp only [exec, hrow, Option.map_some]
  have hselect : exec drv (clock (.selectStatus itemType itemId) d) c (.selectStatus itemType itemId) d =
      some (.ok (some (completed itemType)), d) := by
    simp only [exec, hrow, Option.map_some, hstatus]
  have hcheck : checkRating ratingValue none = .ok () := by
    have hsmall : ¬ 32767 < ratingValue := by omega
    simp [checkRating, hsmall, hvalue]
  have hnone : (d.reviews.committedRows.any fun r => r.toItemRating = ⟨owner row, itemType, itemId⟩) = false := by
    simpa using hnew
  have hinsert : exec drv (clock insertion d) c insertion d = some (.ok review, { d with reviews := d.reviews.append review }) := by
    simp only [insertion, exec, insertItemRating, hcheck, hnone]
    rfl
  have hassert : alone drv clock c (assertRateableItem (owner row) itemType itemId) d = some (.ok (), d) := by
    refine (query_alone howner).trans ?_
    simp only [ne_eq, not_true_eq_false, if_false]
    refine (query_alone hselect).trans ?_
    simp only [not_true_eq_false, if_false]
    rfl
  refine ⟨.obj [("rating", reviewPayload drv review)], review, ?_, rfl, rfl, rfl⟩
  exact (bind_alone hassert).trans ((query_alone hinsert).trans rfl)

theorem createItemRating_alone {response : Payload} (h : alone drv clock c (rate drv userId dto) d = some (.ok response, d')) :
    alone drv clock c (createItemRating drv userId dto) d = some (.ok response, d') :=
  catch_alone h

/-- A product's rating is not among the reviews. -/
theorem product_not_listed {orderId productId : Nat} (hdrv : Function.Injective drv.bigintText)
    (hx : NotRated d userId (.product orderId productId)) (hd : d'.reviews = d.reviews) (hitem : dto.item = .product orderId productId)
    {x : String × Nat} (hmem : x ∈ dto.item.idFields) : ¬ Listed drv clock c d' userId dto x.2 := by
  intro hlisted
  obtain ⟨review, hreview, huser, -, -⟩ := (listed_iff hdrv dto).mp hlisted
  rw [Db.reviewsOf, hd] at hreview
  obtain ⟨hrow, hof⟩ := List.mem_filter.mp hreview
  obtain ⟨horder, hproduct⟩ := hx.2 review hrow
  simp only [hitem, RatedItem.type, Bool.and_eq_true, decide_eq_true_eq] at hof
  obtain ⟨htype, hid⟩ := hof
  obtain ⟨⟨ratedBy, ratedType, rated⟩⟩ := review
  rw [hitem, RatedItem.idFields, List.mem_cons, List.mem_singleton] at hmem
  rcases hmem with rfl | rfl
  · exact horder ((Reads.ItemRating.mk.injEq ..).mpr ⟨huser, htype, hid⟩)
  · exact hproduct ((Reads.ItemRating.mk.injEq ..).mpr ⟨huser, htype, hid⟩)

/-- A rating of a fault or a service without a comment is found again. -/
theorem item_round_trip {v : Validators} (hv : v.Documented) (hdrv : Function.Injective drv.bigintText)
    (hx : Documented d userId dto) (hcomment : dto.comment = none) (hitem : dto.item = .fault itemId ∨ dto.item = .service itemId) :
    RoundTrip drv clock c v d userId dto := by
  refine ⟨(validate_body_iff hv hx.inRange).mpr hcomment, ?_⟩
  have hrated : ∃ response review, alone drv clock c (rate drv userId dto) d =
      some (.ok response, { d with reviews := d.reviews.append review }) ∧
      review.toItemRating = ⟨userId, dto.item.type, itemId⟩ ∧ review.ratingValue = dto.ratingValue ∧ review.comment = none := by
    have hmay := hx.mayRate
    have hnew := hx.notRated
    rcases hitem with hitem | hitem
    · rw [hitem] at hmay hnew
      simp only [rate, hitem, hcomment]
      exact rateItem_alone hmay hx.inRange.value hnew
    · rw [hitem] at hmay hnew
      simp only [rate, hitem, hcomment]
      exact rateItem_alone hmay hx.inRange.value hnew
  obtain ⟨response, review, halone, hkey, hvalue, hnone⟩ := hrated
  have hid : ("itemId", itemId) ∈ dto.item.idFields := by
    rcases hitem with hitem | hitem <;> simp [hitem, RatedItem.idFields]
  refine ⟨response, _, createItemRating_alone halone, ("itemId", itemId), hid, (listed_iff hdrv dto).mpr ?_⟩
  have huser : review.userId = userId := congrArg Reads.ItemRating.userId hkey
  have htype : review.itemType = dto.item.type := congrArg Reads.ItemRating.itemType hkey
  have hitem : review.itemId = itemId := congrArg Reads.ItemRating.itemId hkey
  refine ⟨review, ?_, huser, hvalue, hnone.trans hcomment.symm⟩
  rw [Db.reviewsOf, Table.committedRows_append]
  exact List.mem_filter.mpr ⟨List.mem_append_right _ List.mem_cons_self, by simp [htype, hitem]⟩

/-- A rating that the documentation allows makes the round trip exactly where it has no comment and is of a
fault or a service. -/
theorem round_trip_iff {v : Validators} (hv : v.Documented) (hdrv : Function.Injective drv.bigintText)
    (hx : Documented d userId dto) : RoundTrip drv clock c v d userId dto ↔ dto.comment = none ∧ dto.item.type ≠ .order := by
  constructor
  · rintro ⟨hvalid, response, d', halone, x, hmem, hlisted⟩
    refine ⟨(validate_body_iff hv hx.inRange).mp hvalid, fun htype => ?_⟩
    have hout : Accepted d userId dto d' := createItemRating_ensures d _ d' rfl (alone_runs halone)
    have hnew := hx.notRated
    rcases hitem : dto.item with ⟨orderId, productId⟩ | itemId | itemId
    · rw [Accepted, hitem] at hout
      rw [hitem] at hnew
      obtain ⟨-, now, review, productReviews, -, rfl⟩ := hout
      have hreviews : ({ d with productReviews } : Db).reviews = d.reviews := rfl
      exact product_not_listed hdrv hnew hreviews hitem hmem hlisted
    · simp [hitem, RatedItem.type] at htype
    · simp [hitem, RatedItem.type] at htype
  · rintro ⟨hcomment, htype⟩
    rcases hitem : dto.item with ⟨orderId, productId⟩ | itemId | itemId
    · simp [hitem, RatedItem.type] at htype
    · exact item_round_trip hv hdrv hx hcomment (.inl hitem)
    · exact item_round_trip hv hdrv hx hcomment (.inr hitem)

/-- The checks of class-validator. -/
def plainValidators : Validators where
  isEnum values value :=
    match value with
    | some (.str s) => values.contains s
    | _ => false
  isInt value :=
    match value with
    | some (.num q) => q.den = 1
    | _ => false
  isString value :=
    match value with
    | some (.str _) => true
    | _ => false
  min bound value :=
    match value with
    | some (.num q) => bound ≤ q
    | _ => false
  max bound value :=
    match value with
    | some (.num q) => q ≤ bound
    | _ => false

theorem plainValidators_documented : plainValidators.Documented where
  isEnum values value := by
    rcases value with - | value
    · simp [plainValidators]
    · cases value <;> simp [plainValidators]
  isInt value := by
    rcases value with - | value
    · simp [plainValidators]
    · cases value with
      | num q =>
        simp only [plainValidators, decide_eq_true_eq, Option.some.injEq, Json.num.injEq]
        exact ⟨fun hq => ⟨q.num, (Rat.den_eq_one_iff q).mp hq ▸ rfl⟩, fun ⟨i, hi⟩ => hi ▸ Rat.den_intCast i⟩
      | _ => simp [plainValidators]
  isString value := by
    rcases value with - | value
    · simp [plainValidators]
    · cases value <;> simp [plainValidators]
  min bound value := by
    rcases value with - | value
    · simp [plainValidators]
    · cases value <;> simp [plainValidators]
  max bound value := by
    rcases value with - | value
    · simp [plainValidators]
    · cases value <;> simp [plainValidators]

/-- A fault of user 1 that is finished. -/
def mended : Db where
  tables :=
    { shop := stocked []
      faults := .numbered [{ id := 1, userId := 1, title := "Tap", description := "Leaks", severity := .normal, address := "Here",
                             status := .finished, createdAt := 0, updatedAt := 0 }]
      faultHistory := .numbered []
      faultAssets := .numbered []
      services := .numbered []
      serviceHistory := .numbered []
      files _ := none
      ratings := [] }
  reviews := .numbered []
  productReviews := .numbered []

theorem mended_documented {comment : Option String} (h : ∀ text ∈ comment, 1 ≤ text.length ∧ text.length ≤ 2000) :
    Documented mended 1 { item := .fault 1, ratingValue := 5, comment } where
  mayRate := ⟨_, rfl, rfl, rfl⟩
  inRange := ⟨by simp [RatedItem.idFields], by simp⟩
  comment := h
  notRated _ hmem := absurd hmem List.not_mem_nil

theorem round_trip_mended : RoundTrip plainDriver (fun _ _ => 0) 0 plainValidators mended 1 { item := .fault 1, ratingValue := 5 } ↔
    (none : Option String) = none ∧ RatedItem.type (.fault 1) ≠ .order :=
  round_trip_iff plainValidators_documented (fun _ _ => Nat.repr_injective) (mended_documented (by simp))

/-- A comment is refused. -/
theorem comment_refused : Documented mended 1 { item := .fault 1, ratingValue := 5, comment := some "Fixed" } ∧
    ¬ RoundTrip plainDriver (fun _ _ => 0) 0 plainValidators mended 1
      { item := .fault 1, ratingValue := 5, comment := some "Fixed" } := by
  refine ⟨mended_documented (by decide), fun h => ?_⟩
  have hnone := (validate_body_iff plainValidators_documented ⟨by decide, by decide⟩).mp h.1
  cases hnone

end Rating

end Kayan.Ratings
