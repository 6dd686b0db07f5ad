import Kayan.Items.Sql
import Kayan.Requests.Service

/-!
# Ratings beside the rated items

`item_ratings` and `product_ratings` with the tables of the items. Orders are rated product by product, in a
table of their own. The `has_rated` of a fault reads the ratings.
-/
namespace Kayan.Ratings
open RowStore Shop
open Reads (ItemType)
open Requests (ItemReview)

/-- A `product_ratings` row. -/
structure ProductReview where
  id : Nat
  userId : Nat
  orderId : Nat
  productId : Nat
  ratingValue : Nat
  comment : Option String := none
  createdAt : Nat

/-- The store. The tables of the items leave their ratings to `reviews`. -/
structure Db where
  tables : Items.Db
  reviews : Table Client ItemReview
  productReviews : Table Client ProductReview

/-- The tables of the items, with the ratings. -/
def Db.items (d : Db) : Items.Db :=
  { d.tables with ratings := d.reviews.committedRows.map (·.toItemRating) }

/-- The status that an item has to have before it can be rated. -/
def completed : ItemType → Items.Status
  | .order => .order .delivered
  | .fault => .fault .finished
  | .service => .service .finished

/-- The item that a rating is about: `itemType` with the ids that go with it. -/
inductive RatedItem where
  | product (orderId productId : Nat)
  | fault (itemId : Nat)
  | service (itemId : Nat)
  deriving DecidableEq

/-- The body of `POST /ratings`. -/
structure CreateItemRatingDto where
  item : RatedItem
  ratingValue : Nat
  comment : Option String := none
  deriving DecidableEq

end Kayan.Ratings
