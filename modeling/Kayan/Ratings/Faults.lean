import Kayan.Ratings.Frame
import Kayan.Shop.Stock

/-!
# Rated faults

A fault is rated by its owner once it is finished, and once only. Nothing leads on from `finished`, so this
holds of all ratings in every run of calls.
-/
namespace Kayan.Ratings
open RowStore Interleave Shop
open Reads (ItemType)
open Requests (ItemReview)

variable {drv : Driver} {m : Move} {c : Client} {d d' t : Db} {userId : Nat} {itemType : ItemType} {itemId : Nat}

/-- The ratings of faults are of finished faults of the raters, one of each user and fault. -/
structure RatedFaults (d : Db) : Prop where
  finished : ∀ review ∈ d.reviews.committedRows, review.itemType = .fault →
    ∃ row, d.tables.faults.committed review.itemId = some row ∧ row.userId = review.userId ∧ row.status = .finished
  once : d.reviews.committedRows.Pairwise fun a b =>
    ¬ (a.itemType = .fault ∧ b.itemType = .fault ∧ a.userId = b.userId ∧ a.itemId = b.itemId)

/-- What every call keeps. -/
structure Kept (d : Db) : Prop where
  sane : Items.Sane d.items
  rated : RatedFaults d

section Calls

/-- The ratings of finished faults stay what they are in the calls on the items. -/
theorem Kept.items {req : Items.Request} {r : Except Failure Payload} (h : Kept d)
    (hr : Runs (acts drv c) (ofItems (req.code drv)).run d r d') : Kept d' := by
  obtain ⟨hruns, hreviews, -⟩ := runs_items hr
  refine ⟨h.sane.runs hruns, ⟨fun review hreview htype => ?_, ?_⟩⟩
  · rw [hreviews] at hreview
    obtain ⟨row, hrow, huser, hstatus⟩ := h.rated.finished review hreview htype
    have hledger : d.items.ledger.row ⟨.fault, review.itemId⟩ = some (.fault row) := congrArg (Option.map Items.Row.fault) hrow
    have hsettled : Items.Settled ⟨.fault, review.itemId⟩ (.fault .finished) review.userId .idle d.items :=
      ⟨h.sane, ⟨.fault row, hledger, congrArg Items.Status.fault hstatus, huser⟩, fun t ht => by cases ht⟩
    obtain ⟨v, hv, hs, hu⟩ := (Items.finished_stays hsettled hruns).row
    obtain ⟨row', hrow', rfl⟩ := Option.map_eq_some_iff.mp hv
    exact ⟨row', hrow', hu, Items.Status.fault.inj hs⟩
  · rw [hreviews]
    exact h.rated.once

/-- A new rating is of a completed item of its user, who has not rated it before. -/
theorem Kept.review {now ratingValue : Nat} {comment : Option String} {review : ItemReview} {reviews : Table Client ItemReview}
    (h : Kept d) (hi : Rateable d userId itemType itemId)
    (hr : insertItemRating now userId itemType itemId ratingValue comment d.reviews = .ok (review, reviews)) :
    Kept { d with reviews := reviews } := by
  obtain ⟨hkey, rfl, hnew⟩ := insertItemRating_ok hr
  refine ⟨sane_items h.sane, ⟨fun r hmem htype => ?_, ?_⟩⟩
  · rw [Table.committedRows_append] at hmem
    rcases List.mem_append.mp hmem with hmem | hmem
    · exact h.rated.finished r hmem htype
    · rw [List.mem_singleton.mp hmem] at htype ⊢
      obtain ⟨row, hrow, howner, hstatus⟩ := hi
      rw [hkey] at htype ⊢
      obtain rfl : itemType = .fault := htype
      obtain ⟨fault, hfault, rfl⟩ := Option.map_eq_some_iff.mp hrow
      exact ⟨fault, hfault, howner, Items.Status.fault.inj hstatus⟩
  · rw [Table.committedRows_append]
    refine List.pairwise_append.mpr ⟨h.rated.once, List.pairwise_singleton _ _, fun a ha b hb => ?_⟩
    rw [List.mem_singleton.mp hb]
    rintro ⟨hatype, hbtype, huser, hitem⟩
    refine hnew a ha ?_
    obtain ⟨⟨aUser, aType, aItem⟩⟩ := a
    obtain ⟨⟨bUser, bType, bItem⟩⟩ := review
    exact (Reads.ItemRating.mk.injEq ..).mpr ⟨huser, hatype.trans hbtype.symm, hitem⟩

theorem Kept.accepted {dto : CreateItemRatingDto} (h : Kept d) (hd : Accepted d userId dto d') : Kept d' := by
  obtain ⟨item, ratingValue, comment⟩ := dto
  cases item with
  | product orderId productId =>
    obtain ⟨-, now, review, reviews, -, rfl⟩ := hd
    exact ⟨sane_items h.sane, h.rated.finished, h.rated.once⟩
  | fault itemId | service itemId =>
    obtain ⟨hi, now, review, reviews, hinsert, rfl⟩ := hd
    exact h.review hi hinsert

theorem Kept.serves {x : Call} (h : Kept d) (hx : Serves drv d x d') : Kept d' := by
  obtain ⟨client, request, result⟩ := x
  cases request with
  | items req => exact h.items hx
  | createItemRating userId dto =>
    have hout : outcome (fun _ => Accepted d userId dto) (· = d) result d' := createItemRating_ensures d result d' rfl hx
    cases result with
    | ok response => exact h.accepted hout
    | error e =>
      obtain rfl : d' = d := hout
      exact h

/-- A rating that is rejected changes nothing. -/
def RejectedChangesNothing (drv : Driver) (d : Db) : Prop :=
  ∀ c userId dto e d', Serves drv d ⟨c, .createItemRating userId dto, .error e⟩ d' → d' = d

/-- In every run of calls, one after the other, rated faults are finished and their raters'. -/
theorem rated_faults_run {xs : List Call} (hd : Items.Quiet d.tables) (hrated : RatedFaults d)
    (hr : Trace.Run (Serves drv) d xs t) : RatedFaults t ∧ RejectedChangesNothing drv t := by
  have hquiet : Items.Quiet d.items :=
    ⟨hd.orders, hd.orderHistory, hd.faults, hd.faultHistory, hd.services, hd.serviceHistory⟩
  have hkept : Kept t := hr.preserves (fun d x d' hx h => h.serves hx) ⟨hquiet.sane, hrated⟩
  exact ⟨hkept.rated, fun c userId dto e t' hx => createItemRating_ensures t _ t' rfl hx⟩

/-- A fault of user 1 that is being repaired. -/
def repair : Db where
  tables :=
    { shop := stocked []
      faults := .numbered [{ id := 1, userId := 1, title := "Tap", description := "Leaks", severity := .normal, address := "Here",
                             status := .inProgress, createdAt := 0, updatedAt := 0 }]
      faultHistory := .numbered []
      faultAssets := .numbered []
      services := .numbered []
      serviceHistory := .numbered []
      files _ := none
      ratings := [] }
  reviews := .numbered []
  productReviews := .numbered []

theorem repair_quiet : Items.Quiet repair.tables :=
  ⟨fun _ _ => rfl, fun _ _ => rfl, fun _ _ => rfl, fun _ _ => rfl, fun _ _ => rfl, fun _ _ => rfl⟩

/-- It is finished, and rated by its user, who is refused a second rating. -/
def repairCalls : List (Client × Request) :=
  [(0, .items (.adminUpdateFaultStatus 9 1 .finished)), (1, .createItemRating 1 { item := .fault 1, ratingValue := 5 }),
   (2, .createItemRating 1 { item := .fault 1, ratingValue := 4 })]

theorem rated_faults_repair : ∃ xs t, Trace.Run (Serves plainDriver) repair xs t ∧ t.reviews.committedRows.length = 1 ∧
    RatedFaults t ∧ RejectedChangesNothing plainDriver t := by
  have hlength : (serve plainDriver 5 repairCalls repair).map (fun x => x.2.reviews.committedRows.length) = some 1 := by
    decide +kernel
  obtain ⟨⟨xs, t⟩, hserve, hone⟩ := Option.map_eq_some_iff.mp hlength
  have hnone : RatedFaults repair := ⟨fun _ hmem => absurd hmem List.not_mem_nil, List.Pairwise.nil⟩
  exact ⟨xs, t, serve_run hserve, hone, rated_faults_run repair_quiet hnone (serve_run hserve)⟩

end Calls

end Kayan.Ratings
