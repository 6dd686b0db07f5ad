import Kayan.Ratings.Schema

/-!
# The statements on ratings

The statements of the items and those of `createItemRating` and `getItemReviews`. Ratings are read and
inserted on their own, outside of transactions.
-/
namespace Kayan.Ratings
open RowStore Shop
open Reads (ItemType)
open Requests (ItemReview byCreationText)

inductive Stmt where
  | items (q : Items.Stmt)
  | selectOwner (itemType : ItemType) (itemId : Nat)
  | selectStatus (itemType : ItemType) (itemId : Nat)
  | selectOrder (orderId : Nat)
  | selectOrderItem (orderId productId : Nat)
  | insertItemRating (userId : Nat) (itemType : ItemType) (itemId ratingValue : Nat) (comment : Option String)
  | insertProductRating (userId orderId productId ratingValue : Nat) (comment : Option String)
  | countReviews (itemType : ItemType) (itemId : Nat)
  | selectReviews (itemType : ItemType) (itemId limit offset : Nat)

/-- The rows that a statement returns. -/
def Reply : Stmt → Type
  | .items q => Items.Reply q
  | .selectOwner _ _ => Option Nat
  | .selectStatus _ _ => Option Items.Status
  | .selectOrder _ => Option (Nat × OrderStatus)
  | .selectOrderItem _ _ => Option Nat
  | .insertItemRating _ _ _ _ _ => ItemReview
  | .insertProductRating _ _ _ _ _ => ProductReview
  | .countReviews _ _ => Nat
  | .selectReviews _ _ _ _ => List ItemReview

/-- The reply of a statement: its rows, or the error it raised. -/
abbrev Answer (q : Stmt) : Type := Except PgError (Reply q)

/-- The row of an item. -/
def Db.row (d : Db) (itemType : ItemType) (itemId : Nat) : Option Items.Row :=
  match itemType with
  | .order => (d.tables.shop.orders.committed itemId).map .order
  | .fault => (d.tables.faults.committed itemId).map .fault
  | .service => (d.tables.services.committed itemId).map .service

/-- `SELECT user_id`. -/
def owner : Items.Row → Nat
  | .order r => r.userId
  | .fault r => r.userId
  | .service r => r.userId

/-- The columns of a new rating: the parameters, and the check of `rating_value`, a `SMALLINT`. -/
def checkRating (ratingValue : Nat) (comment : Option String) : Except PgError Unit :=
  if !comment.all Payload.textStorable then .error .characterNotInRepertoire
  else if 32767 < ratingValue then .error .outOfRange
  else if 1 ≤ ratingValue ∧ ratingValue ≤ 5 then .ok ()
  else .error .checkViolation

/-- `INSERT INTO item_ratings`, with `UNIQUE(user_id, item_type, item_id)`. -/
def insertItemRating (now userId : Nat) (itemType : ItemType) (itemId ratingValue : Nat) (comment : Option String)
    (t : Table Client ItemReview) : Except PgError (ItemReview × Table Client ItemReview) :=
  match checkRating ratingValue comment with
  | .error e => .error e
  | .ok () =>
    if t.committedRows.any fun r => r.toItemRating = ⟨userId, itemType, itemId⟩ then .error .uniqueViolation
    else
      let review : ItemReview := { userId, itemType, itemId, id := t.next, ratingValue, comment, createdAt := now }
      .ok (review, t.append review)

/-- `INSERT INTO product_ratings`, with `UNIQUE(user_id, order_id, product_id)` and its references. -/
def insertProductRating (now userId orderId productId ratingValue : Nat) (comment : Option String) (shop : Shop.Db)
    (t : Table Client ProductReview) : Except PgError (ProductReview × Table Client ProductReview) :=
  match checkRating ratingValue comment with
  | .error e => .error e
  | .ok () =>
    if t.committedRows.any fun r => r.userId = userId ∧ r.orderId = orderId ∧ r.productId = productId then
      .error .uniqueViolation
    else if (shop.orders.committed orderId).isNone || (shop.catalog.committed productId).isNone then
      .error .foreignKeyViolation
    else
      let review : ProductReview := { id := t.next, userId, orderId, productId, ratingValue, comment, createdAt := now }
      .ok (review, t.append review)

/-- The reviews of an item. -/
def Db.reviewsOf (d : Db) (itemType : ItemType) (itemId : Nat) : List ItemReview :=
  d.reviews.committedRows.filter fun review => review.itemType = itemType && review.itemId = itemId

variable (drv : Driver)

/-- What the store does for a statement of client `c` at time `now`: the reply and the
store after it, or `none` while the statement waits for a lock. -/
def exec (now : Nat) (c : Client) : (q : Stmt) → Db → Option (Answer q × Db)
  | .items q, d => (Items.exec now c q d.items).map fun x => (x.1, { d with tables := x.2 })
  | .selectOwner itemType itemId, d => some (.ok ((d.row itemType itemId).map owner), d)
  | .selectStatus itemType itemId, d => some (.ok ((d.row itemType itemId).map Items.Row.status), d)
  | .selectOrder orderId, d =>
    some (.ok ((d.tables.shop.orders.committed orderId).map fun o => (o.userId, o.status)), d)
  | .selectOrderItem orderId productId, d =>
    some (.ok ((d.tables.shop.items.committedRows.find? fun r => r.orderId = orderId ∧ r.productId = productId).map
      (·.id)), d)
  | .insertItemRating userId itemType itemId ratingValue comment, d =>
    match insertItemRating now userId itemType itemId ratingValue comment d.reviews with
    | .ok (review, reviews) => some (.ok review, { d with reviews })
    | .error e => some (.error e, d)
  | .insertProductRating userId orderId productId ratingValue comment, d =>
    match insertProductRating now userId orderId productId ratingValue comment d.tables.shop d.productReviews with
    | .ok (review, productReviews) => some (.ok review, { d with productReviews })
    | .error e => some (.error e, d)
  | .countReviews itemType itemId, d => some (.ok (d.reviewsOf itemType itemId).length, d)
  | .selectReviews itemType itemId limit offset, d =>
    some (.ok (Reads.page (limit, offset)
      ((d.reviewsOf itemType itemId).insertionSort (byCreationText drv (·.createdAt) (·.id)))), d)

/-- A failed statement changes nothing. `ROLLBACK` cannot fail. -/
def act (m : Move) (c : Client) (q : Stmt) (d : Db) : Option (Answer q × Db) :=
  match m with
  | .run now => exec drv now c q d
  | .fail e =>
    match q with
    | .items (.shop .rollback) => none
    | _ => some (.error e, d)

end Kayan.Ratings
