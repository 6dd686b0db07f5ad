import Kayan.Items.Service
import Kayan.Lib.Sequential
import Kayan.Ratings.Sql

/-!
# The rating methods

`createItemRating` and `getItemReviews` of `KayanService`, statement by statement, beside the methods of the
items, and the validation of the body of `POST /ratings`.
-/
namespace Kayan.Ratings
open Interleave Shop
open Reads (ItemType resolveOffsetPagination)
open Requests (GetItemReviewsQueryDto ItemReview reviewPayload)

/-- Code of the service: statements, a result or an exception. -/
abbrev Code (α : Type) := Interleave.Code Stmt Reply PgError Failure α

/-- Awaits one statement; its error is thrown. -/
def query (q : Stmt) : Code (Reply q) := await Failure.database q

def badRequest {α : Type} (message : String) : Code α := throw (.badRequest message)

def notFound {α : Type} (message : String) : Code α := throw (.notFound message)

def forbidden {α : Type} (message : String) : Code α := throw (.forbidden message)

/-- The code of the items as code of the service. -/
def ofItems {α : Type} (code : Items.Code α) : Code α := ExceptT.mk (code.run.embed Stmt.items)

section Methods
variable (drv : Driver)

def resolveOwnership (itemType : ItemType) (itemId : Nat) : Code (Option Nat) := query (.selectOwner itemType itemId)

/-- What is said of an item that is not completed. -/
def tooEarly : ItemType → String
  | .order => "Rating allowed only after delivery"
  | .fault | .service => "Rating allowed only after completion"

def assertRateableItem (userId : Nat) (itemType : ItemType) (itemId : Nat) : Code Unit := do
  let owner ← resolveOwnership itemType itemId
  match owner with
  | none => notFound "Item not found"
  | some owner =>
    if owner ≠ userId then forbidden "Not allowed"
    else
      let status : Option Items.Status ← query (.selectStatus itemType itemId)
      match status with
      | none => throw .typeError
      | some status => if status ≠ completed itemType then badRequest (tooEarly itemType) else pure ()

def assertRateableProduct (userId orderId productId : Nat) : Code Unit := do
  let order : Option (Nat × OrderStatus) ← query (.selectOrder orderId)
  match order with
  | none => notFound "Order not found"
  | some (owner, status) =>
    if owner ≠ userId then forbidden "Not allowed"
    else if status ≠ .delivered then badRequest "Rating allowed only after delivery"
    else
      let item : Option Nat ← query (.selectOrderItem orderId productId)
      match item with
      | none => badRequest "Product was not ordered in this order"
      | some _ => pure ()

def productReviewPayload (review : ProductReview) : Payload :=
  .obj
    [("id", drv.bigint review.id), ("user_id", drv.bigint review.userId), ("order_id", drv.bigint review.orderId),
     ("product_id", drv.bigint review.productId), ("rating_value", .num review.ratingValue),
     ("comment", .ofText review.comment), ("created_at", .str (drv.timestampText review.createdAt))]

def rateProduct (userId orderId productId ratingValue : Nat) (comment : Option String) : Code Payload := do
  assertRateableProduct userId orderId productId
  let review : ProductReview ← query (.insertProductRating userId orderId productId ratingValue comment)
  pure (.obj [("rating", productReviewPayload drv review)])

def rateItem (userId : Nat) (itemType : ItemType) (itemId ratingValue : Nat) (comment : Option String) :
    Code Payload := do
  assertRateableItem userId itemType itemId
  let review : ItemReview ← query (.insertItemRating userId itemType itemId ratingValue comment)
  pure (.obj [("rating", reviewPayload drv review)])

/-- The `try` block of `createItemRating`. -/
def rate (userId : Nat) (dto : CreateItemRatingDto) : Code Payload :=
  match dto.item with
  | .product orderId productId => rateProduct drv userId orderId productId dto.ratingValue dto.comment
  | .fault itemId => rateItem drv userId .fault itemId dto.ratingValue dto.comment
  | .service itemId => rateItem drv userId .service itemId dto.ratingValue dto.comment

def createItemRating (userId : Nat) (dto : CreateItemRatingDto) : Code Payload :=
  tryCatch (rate drv userId dto) fun error =>
    if error = .database .uniqueViolation then badRequest "Rating already exists" else throw error

def getItemReviews (itemId : Nat) (dto : GetItemReviewsQueryDto) : Code Payload := do
  let bounds := resolveOffsetPagination dto.toOffsetPaginationQuery 20 100
  let total : Nat ← query (.countReviews dto.itemType itemId)
  let rows : List ItemReview ← query (.selectReviews dto.itemType itemId bounds.1 bounds.2)
  pure (.obj [("items", .arr (rows.map (reviewPayload drv))), ("total", .num total)])

end Methods

/-- The calls that clients make. -/
inductive Request where
  | items (req : Items.Request)
  | createItemRating (userId : Nat) (dto : CreateItemRatingDto)

/-- The program of a call. -/
def Request.code (drv : Driver) : Request → Code Payload
  | .items req => ofItems (req.code drv)
  | .createItemRating userId dto => Ratings.createItemRating drv userId dto

/-- One call of a client, with its result. -/
structure Call where
  client : Client
  request : Request
  result : Except Failure Payload

/-- How the store resolves the statements of client `c`. -/
def acts (drv : Driver) (c : Client) : Acts Stmt Answer Db := fun q d r d' => ∃ m, act drv m c q d = some (r, d')

/-- A call that runs with no others beside it. -/
def Serves (drv : Driver) (d : Db) (x : Call) (d' : Db) : Prop :=
  Runs (acts drv x.client) (x.request.code drv).run d x.result d'

/-- Calls one after the other, all at one time. -/
def serve (drv : Driver) (now : Nat) : List (Client × Request) → Db → Option (List Call × Db)
  | [], d => some ([], d)
  | (c, req) :: rest, d =>
    ((req.code drv).run.alone (act drv (.run now) c) d).bind fun x =>
      (serve drv now rest x.2).map fun y => (⟨c, req, x.1⟩ :: y.1, y.2)

/-- They are a run of calls. -/
theorem serve_run {drv : Driver} {now : Nat} {reqs : List (Client × Request)} {d t : Db} {xs : List Call}
    (h : serve drv now reqs d = some (xs, t)) : Trace.Run (Serves drv) d xs t := by
  induction reqs generalizing d xs with
  | nil =>
    cases h
    exact .refl
  | cons x reqs ih =>
    obtain ⟨c, req⟩ := x
    obtain ⟨⟨r, d'⟩, hcall, hrest⟩ := Option.bind_eq_some_iff.mp h
    obtain ⟨⟨ys, t'⟩, hserve, heq⟩ := Option.map_eq_some_iff.mp hrest
    cases heq
    have hserves : Serves drv d ⟨c, req, r⟩ d' := Runs.of_alone (fun _ _ _ _ hact => ⟨.run now, hact⟩) hcall
    exact .step hserves (ih hserve)

/-- Their calls are the ones that were served. -/
theorem serve_mem {drv : Driver} {now : Nat} {reqs : List (Client × Request)} {d t : Db} {xs : List Call}
    (h : serve drv now reqs d = some (xs, t)) : ∀ x ∈ xs, (x.client, x.request) ∈ reqs := by
  induction reqs generalizing d xs with
  | nil =>
    cases h
    exact fun _ hx => absurd hx List.not_mem_nil
  | cons x reqs ih =>
    obtain ⟨c, req⟩ := x
    obtain ⟨⟨r, d'⟩, -, hrest⟩ := Option.bind_eq_some_iff.mp h
    obtain ⟨⟨ys, t'⟩, hserve, heq⟩ := Option.map_eq_some_iff.mp hrest
    cases heq
    intro y hy
    rcases List.mem_cons.mp hy with rfl | hy
    · exact List.mem_cons_self
    · exact List.mem_cons_of_mem _ (ih hserve y hy)

end Kayan.Ratings
