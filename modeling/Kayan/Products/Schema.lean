import Kayan.Fk.Records
import Kayan.Jsonb
import Mathlib.Algebra.Order.Ring.Rat
import Mathlib.Data.Rat.Floor
import Mathlib.Order.WithBot

/-!
# Catalog products

The tables `catalog_products`, `product_assets`, `product_ratings` and the files that assets refer to.
Prices are in hundredths, timestamps in microseconds.
-/
namespace Kayan.Products
open Fk

/-- A `catalog_products` row. -/
structure CatalogProduct where
  id : Nat
  title : String
  description : String
  amount : Nat
  price : Nat
  details : Option Payload := none
  isActive : Bool := true
  createdBy : Option Nat := none
  updatedBy : Option Nat := none
  deletedAt : Option Nat := none
  createdAt : Nat
  updatedAt : Nat

inductive AssetType where
  | image
  | file
  deriving DecidableEq

/-- A `product_assets` row. -/
structure ProductAsset where
  id : Nat
  productId : Nat
  fileId : Nat
  assetType : AssetType
  sortOrder : Nat
  deriving DecidableEq

/-- A `product_ratings` row, with the columns that products read. -/
structure ProductRating where
  productId : Nat
  ratingValue : Nat

/-- A `files` row. -/
structure StoredFile extends FileRow where
  originalFilename : Option String

/-- A state of the tables, with primary keys and foreign keys. -/
structure Store where
  products : List CatalogProduct
  assets : List ProductAsset
  ratings : List ProductRating
  files : List StoredFile
  nextProduct : Nat
  nextAsset : Nat
  keyed : (products.map (·.id)).Nodup
  fresh : ∀ product ∈ products, product.id < nextProduct
  filed : ∀ asset ∈ assets, ∃ file ∈ files, file.id = asset.fileId
  bounded : ∀ file ∈ files, file.id ≤ bigintMax

/-- `INTEGER` columns hold at most this. -/
def integerMax : Nat := 2147483647

/-- `NUMERIC(12,2)` from a number: hundredths, rounded half away from zero, below 10¹⁰. -/
def numeric12 : WithTop ℚ → Option Nat
  | none => none
  | some q =>
    let cents := (q * 100 + 1 / 2).floor.toNat
    if cents < 10 ^ 12 then some cents else none

/-- Hundredths as text, with two decimals. -/
def decimalText (cents : Nat) : String :=
  toString (cents / 100) ++ "." ++ toString (cents % 100 / 10) ++ toString (cents % 10)

/-- The ratings of a product. -/
def Store.ratingsOf (s : Store) (productId : Nat) : List Nat :=
  (s.ratings.filter fun rating => rating.productId = productId).map (·.ratingValue)

/-- `COALESCE(ROUND(AVG(pr.rating_value)::numeric, 2), 0)`, in hundredths. -/
def averageRate (values : List Nat) : Nat :=
  if values = [] then 0 else (200 * values.sum + values.length) / (2 * values.length)

/-- Its text: a rounded average has two decimals, and there is no average without ratings. -/
def rateText (values : List Nat) : String := if values = [] then "0" else decimalText (averageRate values)

end Kayan.Products
