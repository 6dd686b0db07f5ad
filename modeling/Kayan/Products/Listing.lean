import Kayan.Lib.Like
import Kayan.Lib.Paging
import Kayan.Lib.Statement
import Kayan.Products.Service
import Kayan.Reads.Service

/-!
# Listing products

`KayanService.listProducts`: the query is put together from a part for each filter, and its columns are
named without a table. Postgres resolves the names over `catalog_products cp LEFT JOIN product_ratings pr`.
-/
namespace Kayan.Products
open Fk Payload Statement
open Reads (OffsetPaginationQuery SortDirection resolveOffsetPagination)

inductive ProductAvailabilityFilter where
  | active
  | inactive
  | all
  deriving DecidableEq

inductive ProductSortBy where
  | createdAt
  | price
  deriving DecidableEq

structure ListProductsQueryDto extends OffsetPaginationQuery where
  query : Option String := none
  minPrice : Option (WithTop ℚ) := none
  maxPrice : Option (WithTop ℚ) := none
  fromDate : Option String := none
  toDate : Option String := none
  availability : Option ProductAvailabilityFilter := none
  sortBy : Option ProductSortBy := none
  sortDirection : Option SortDirection := none
  minRate : Option Nat := none
  maxRate : Option Nat := none

section Query

/-- A value of a column or a parameter. -/
inductive Value where
  | null
  | bool (b : Bool)
  | number (q : WithTop ℚ)
  | text (s : String)
  | time (t : Nat)
  deriving DecidableEq

inductive Comparison where
  | atLeast
  | atMost
  deriving DecidableEq

/-- A condition of the query, on columns without a table. `rate` stands in the `HAVING` clause. -/
inductive Test where
  | isNull (column : String)
  | isBool (column : String) (b : Bool)
  | ilike (columns : List String)
  | compare (column : String) (comparison : Comparison)
  | rate (comparison : Comparison)

abbrev Query := Statement.Builder Test Value

def availabilityTest : Option ProductAvailabilityFilter → Query → Query
  | none, b | some .active, b => b.add (.isBool "is_active" true)
  | some .inactive, b => b.add (.isBool "is_active" false)
  | some .all, b => b

/-- The conditions and parameters, in the order in which they are pushed. `LIMIT` and `OFFSET` come after them. -/
def filterQuery (query : ListProductsQueryDto) : Query :=
  let b : Query := {}
  let b := availabilityTest query.availability (b.add (.isNull "deleted_at"))
  let text := query.query.filter (· ≠ "")
  let b := b.pushIf (text.map fun q => .text (String.ofList ('%' :: (Like.escape q.toList ++ ['%']))))
    (.ilike ["title", "description"])
  let b := b.pushIf (query.minPrice.map .number) (.compare "price" .atLeast)
  let b := b.pushIf (query.maxPrice.map .number) (.compare "price" .atMost)
  let b := b.pushIf ((query.fromDate.filter (· ≠ "")).map .text) (.compare "created_at" .atLeast)
  let b := b.pushIf ((query.toDate.filter (· ≠ "")).map .text) (.compare "created_at" .atMost)
  let b := b.pushIf (query.minRate.map fun rate : Nat => .number (rate : ℚ)) (.rate .atLeast)
  b.pushIf (query.maxRate.map fun rate : Nat => .number (rate : ℚ)) (.rate .atMost)

/-- `catalog_products cp LEFT JOIN product_ratings pr`. -/
def joined : List Source :=
  [⟨"cp", ["id", "title", "description", "amount", "price", "details", "is_active", "created_by", "updated_by",
      "deleted_at", "created_at", "updated_at"]⟩,
   ⟨"pr", ["id", "user_id", "order_id", "product_id", "rating_value", "created_at", "comment"]⟩]

/-- What an output column shows. -/
inductive Output where
  | column (name : String)
  | columnText (name : String)
  | rate
  deriving DecidableEq

/-- The `SELECT` list. -/
def selected : List (String × Output) :=
  [("id", .column "id"), ("title", .column "title"), ("description", .column "description"),
   ("amount", .column "amount"), ("price", .column "price"), ("details", .column "details"),
   ("is_active", .column "is_active"), ("created_at", .columnText "created_at"),
   ("updated_at", .columnText "updated_at"), ("rate", .rate)]

def orderColumn (sortBy : Option ProductSortBy) : String := if sortBy.getD .createdAt = .price then "price" else "created_at"

/-- The names in the `WHERE` clause. -/
def Test.columns : Test → List String
  | .isNull column | .isBool column _ | .compare column _ => [column]
  | .ilike columns => columns
  | .rate _ => []

/-- What Postgres says about the names of the query. -/
def resolveNames (query : ListProductsQueryDto) : Except NameError (Named Output) := do
  let _ ← ((filterQuery query).bound.flatMap fun part => part.1.columns).mapM (resolve joined)
  resolveOrder selected joined (orderColumn query.sortBy)

end Query

section Rows
variable (rd : Reader) (timestamptz : String → Option Nat) (f : Like.Folding)

/-- The columns of a product that conditions and orders read. -/
def CatalogProduct.value (product : CatalogProduct) : String → Value
  | "id" => .number (product.id : ℚ)
  | "title" => .text product.title
  | "description" => .text product.description
  | "amount" => .number (product.amount : ℚ)
  | "price" => .number ((product.price : ℚ) / 100 : ℚ)
  | "is_active" => .bool product.isActive
  | "deleted_at" => product.deletedAt.elim .null .time
  | "created_at" => .time product.createdAt
  | "updated_at" => .time product.updatedAt
  | _ => .null

def Comparison.holds {K : Type} [LE K] [DecidableLE K] (comparison : Comparison) (a b : K) : Bool :=
  match comparison with
  | .atLeast => b ≤ a
  | .atMost => a ≤ b

/-- `COALESCE(ROUND(AVG(pr.rating_value)::numeric, 2), 0)` of the ratings of a product. -/
def rateValue (values : List Nat) : WithTop ℚ := ((averageRate values : ℚ) / 100 : ℚ)

/-- A condition on a product with its ratings, and the value of its parameter. A text that is compared
with a time is read as one. -/
def Test.holds (product : CatalogProduct) (values : List Nat) : Test → Option Value → Bool
  | .isNull column, _ => product.value column = .null
  | .isBool column b, _ => product.value column = .bool b
  | .ilike columns, some (.text pattern) =>
    columns.any fun column =>
      match product.value column with
      | .text text => Like.ilike f.fold pattern.toList text.toList = some true
      | _ => false
  | .compare column comparison, some param =>
    match product.value column, param with
    | .number a, .number b => comparison.holds a b
    | .time t, .text text => (timestamptz text).any fun bound => comparison.holds t bound
    | _, _ => false
  | .rate comparison, some (.number b) => comparison.holds (rateValue values) b
  | _, _ => false

/-- What the `ORDER BY` compares. -/
def orderValue (named : Named Output) (name : String) (product : CatalogProduct) (values : List Nat) : Value :=
  match named with
  | .output (.columnText column) =>
    match product.value column with
    | .time t => .text (rd.timestampText t)
    | value => value
  | .output (.column column) => product.value column
  | .output .rate => .number (rateValue values)
  | .column _ => product.value name

def Value.lt : Value → Value → Bool
  | .number a, .number b => a < b
  | .text a, .text b => a < b
  | .time a, .time b => a < b
  | _, _ => false

/-- `ORDER BY key <direction>, cp.id DESC`. -/
def orderedBefore (direction : SortDirection) (key : CatalogProduct → Value) (a b : CatalogProduct) : Bool :=
  (match direction with
    | .asc => (key a).lt (key b)
    | .desc => (key b).lt (key a)) || (key a = key b && decide (b.id < a.id))

/-- The rows of the query before `LIMIT`. -/
def listedProducts (s : Store) (query : ListProductsQueryDto) (named : Named Output) : List CatalogProduct :=
  let matching := s.products.filter fun product => (filterQuery query).bound.all fun part =>
    part.1.holds timestamptz f product (s.ratingsOf product.id) part.2
  let key := fun product => orderValue rd named (orderColumn query.sortBy) product (s.ratingsOf product.id)
  matching.insertionSort fun a b => !orderedBefore (query.sortDirection.getD .desc) key b a

end Rows

section Service
variable (rd : Reader) (timestamptz : String → Option Nat) (f : Like.Folding) (s : Store)

def nameFailure : NameError → PgError
  | .ambiguousColumn => .ambiguousColumn
  | .undefinedColumn => .undefinedColumn

/-- A text parameter with U+0000 cannot be sent. -/
def Value.sendable : Value → Bool
  | .text t => textStorable t
  | _ => true

/-- A product with its rate and its assets. -/
def listedProduct (product : CatalogProduct) : Payload :=
  attachProductAssets s product.id (productFields rd product (s.ratingsOf product.id))

/-- The names are resolved before the parameters are read. -/
def listProducts (query : ListProductsQueryDto) : Except Failure Payload :=
  match resolveNames query with
  | .error e => .error (.database (nameFailure e))
  | .ok named =>
    let bounds := resolveOffsetPagination query.toOffsetPaginationQuery 20 100
    if !(filterQuery query).params.all Value.sendable then .error (.database .characterNotInRepertoire)
    else if bigintMax < bounds.2 then .error (.database .outOfRange)
    else .ok (.obj [("items", .arr ((Reads.page bounds (listedProducts rd timestamptz f s query named)).map
      (listedProduct rd s)))])

end Service

end Kayan.Products
