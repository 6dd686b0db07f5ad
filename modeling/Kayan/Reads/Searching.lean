import Kayan.Lib.Like
import Kayan.Lib.Placeholders
import Kayan.Media.Schema
import Kayan.Reads.Service

/-!
# Searching products

The statements of `listMyProducts` and `searchProducts` in `ProductsService`. Both put the filters of a
search into a text with numbered placeholders, and number the bounds of the page themselves.
-/
namespace Kayan.Searching
open Placeholders Reads
open Media (ProductStatus)

section Taxonomy

def productCategories : List String :=
  ["realEstate", "vehicles", "electronics", "homeAndDecor", "clothingAndFashion", "services"]

def categoryToSubcategories : String → List String
  | "realEstate" =>
    ["all", "apartmentForRent", "apartmentForSale", "houses", "lands", "commercialRealEstateForRent",
     "commercialRealEstateForSale", "other"]
  | "vehicles" =>
    ["all", "carsForSale", "carsForRent", "sparePartsAndAccessories", "motorCycles", "bicycles",
     "trucksAndHeavyVehicles"]
  | "electronics" =>
    ["all", "smartphones", "tablets", "laptopsAndComputers", "accessories", "speakersAndHeadphones", "cameras",
     "smartWatchesAndWearables", "monitorsAndTVs", "other"]
  | "homeAndDecor" =>
    ["all", "furniture", "officeFurniture", "kitchenAndDining", "beddingAndBath", "homeDecor", "homeTools",
     "lighting", "other"]
  | "clothingAndFashion" =>
    ["all", "menClothing", "womenClothing", "kidsClothing", "shoes", "menAccessories", "womenAccessoriesAndMakeup",
     "jewelryAndWatches", "other"]
  | "services" =>
    ["all", "maintenanceAndRepairs", "transportationAndMoving", "personalServices", "carsServices", "homeServices",
     "lessonsAndTutoring", "other"]
  | _ => []

def isValidCategory (category : String) : Bool := category ∈ productCategories

def isValidSubcategory (category subcategory : String) : Bool :=
  isValidCategory category && subcategory ∈ categoryToSubcategories category

def isAllowedProductSubcategory (category subcategory : String) : Bool :=
  isValidSubcategory category subcategory && subcategory ≠ "all"

end Taxonomy

/-- A parameter of a query. -/
inductive Param where
  | null
  | num (q : ℚ)
  | text (s : String)
  deriving DecidableEq

inductive SortBy where
  | price
  | address
  | rate
  | created

inductive SortDir where
  | asc
  | desc

/-- A number may be `null`, which is not `undefined`. -/
structure SearchProductsDto extends OffsetPaginationQuery where
  category : Option String := none
  subcategory : Option String := none
  minPrice : Option (Option ℚ) := none
  maxPrice : Option (Option ℚ) := none
  fromDate : Option String := none
  toDate : Option String := none
  minRate : Option (Option ℚ) := none
  city : Option String := none
  addressText : Option String := none
  q : Option String := none
  sortBy : Option SortBy := none
  sortDir : Option SortDir := none

structure ListMyProductsDto extends SearchProductsDto where
  status : Option ProductStatus := none

section Checks

/-- A string that counts as true. -/
def truthy (s : Option String) : Option String := s.filter fun s => s ≠ ""

def Param.ofNumber : Option ℚ → Param
  | none => .null
  | some q => .num q

def assertCategoryPair (category : String) (subcategory : Option String) (allowAll : Bool) : Except Failure Unit :=
  if !isValidCategory category then .error (.badRequest "Invalid category")
  else
    match subcategory with
    | none => .ok ()
    | some subcategory =>
      if !isValidSubcategory category subcategory then .error (.badRequest "Invalid subcategory for category")
      else if !allowAll && !isAllowedProductSubcategory category subcategory then
        .error (.badRequest "subcategory cannot be all")
      else .ok ()

def assertSearchCategoryPair (category subcategory : Option String) : Except Failure Unit :=
  match truthy category, truthy subcategory with
  | some category, some subcategory => assertCategoryPair category (some subcategory) true
  | _, _ => .ok ()

/-- `resolveSort` with the columns of both methods. -/
def resolveSort (dto : SearchProductsDto) : String × String :=
  let sortColumn :=
    match dto.sortBy.getD .created with
    | .price => "plv.price"
    | .address => "plv.city"
    | .rate => "plv.seller_rate"
    | .created => "plv.created_at"
  let sortDir :=
    match dto.sortDir.getD .desc with
    | .asc => "ASC"
    | .desc => "DESC"
  (sortColumn, sortDir)

end Checks

section Filters

def escapeLike (s : String) : String := String.ofList (Like.escape s.toList)

/-- The clauses and parameters of `buildSearchFilters`. -/
structure SearchFilters where
  clauses : List String := []
  params : List Param := []

/-- `params.push(value)` and `clauses.push(...)` with the number of the parameter, if there is a value. -/
def SearchFilters.pushIf (base : ℕ) (value : Option Param) (clause : ℕ → String) (filters : SearchFilters) :
    SearchFilters :=
  match value with
  | none => filters
  | some value =>
    let params := filters.params ++ [value]
    ⟨filters.clauses ++ [clause (base + params.length)], params⟩

/-- `buildSearchFilters`: the clauses behind one another, and the parameters. -/
def buildSearchFilters (dto : ListMyProductsDto) (leadingParams : List Param) (columns : String) :
    String × List Param :=
  let base := leadingParams.length
  let filters : SearchFilters := {}
  let filters := filters.pushIf base ((truthy dto.category).map .text) fun n =>
    s!"AND {columns}category = ${n}"
  let filters := filters.pushIf base (((truthy dto.subcategory).filter fun s => s ≠ "all").map .text) fun n =>
    s!"AND {columns}subcategory = ${n}"
  let filters := filters.pushIf base (dto.minPrice.map .ofNumber) fun n => s!"AND {columns}price >= ${n}"
  let filters := filters.pushIf base (dto.maxPrice.map .ofNumber) fun n => s!"AND {columns}price <= ${n}"
  let filters := filters.pushIf base ((truthy dto.fromDate).map .text) fun n =>
    s!"AND {columns}created_at >= ${n}"
  let filters := filters.pushIf base ((truthy dto.toDate).map .text) fun n =>
    s!"AND {columns}created_at <= ${n}"
  let filters := filters.pushIf base ((truthy dto.city).map fun s => .text ("%" ++ escapeLike s ++ "%")) fun n =>
    s!"AND {columns}city ILIKE ${n} ESCAPE '\\'"
  let filters := filters.pushIf base ((truthy dto.addressText).map fun s => .text ("%" ++ escapeLike s ++ "%"))
    fun n => s!"AND {columns}address_text ILIKE ${n} ESCAPE '\\'"
  let filters := filters.pushIf base ((truthy dto.q).map .text) fun n =>
    s!"AND to_tsvector('simple', COALESCE({columns}name,'') || ' ' || COALESCE({columns}description,'')) @@ plainto_tsquery('simple', ${n})"
  let filters := filters.pushIf base (dto.minRate.map .ofNumber) fun n => s!"AND {columns}seller_rate >= ${n}"
  let filters := filters.pushIf base (if columns = "" then none else dto.status.map fun s => .text s.text) fun n =>
    s!"AND {columns}status = ${n}"
  (if filters.clauses = [] then "" else " " ++ " ".intercalate filters.clauses, filters.params)

end Filters

section Methods

/-- The text before the id of the owner. -/
@[irreducible] def mySelect : String :=
  "SELECT plv.id, plv.owner_id, plv.category, plv.subcategory, plv.name, plv.description, plv.price, plv.city,
              plv.address_text, plv.details, plv.status, plv.is_negotiable, plv.preferred_contact_method,
              plv.created_at::text AS created_at, plv.updated_at::text AS updated_at, plv.seller_rate,
              COALESCE((
                SELECT json_agg(row_to_json(img) ORDER BY img.sort_order ASC)
                FROM (
                  SELECT pi.id, pi.file_id, pi.sort_order, f.object_key, f.status
                  FROM product_images pi
                  JOIN files f ON f.id = pi.file_id
                  WHERE pi.product_id = plv.id
                ) img
              ), '[]'::json) AS images
       FROM product_listing_view plv
       WHERE plv.owner_id = "

/-- The text before the filters of a search. -/
@[irreducible] def searchSelect : String :=
  "SELECT plv.id, plv.owner_id, plv.category, plv.subcategory, plv.name, plv.description, plv.price, plv.city, plv.address_text, plv.details,
              plv.status, plv.is_negotiable, plv.preferred_contact_method,
              plv.created_at::text AS created_at, plv.updated_at::text AS updated_at, plv.seller_rate,
              COALESCE((
                SELECT json_agg(row_to_json(img) ORDER BY img.sort_order ASC)
                FROM (
                  SELECT pi.id, pi.file_id, pi.sort_order, f.object_key, f.status
                  FROM product_images pi
                  JOIN files f ON f.id = pi.file_id
                  WHERE pi.product_id = plv.id
                ) img
              ), '[]'::json) AS images
       FROM product_listing_view plv
       WHERE plv.status = 'available' "

def listMyProducts (user : AuthUser) (dto : ListMyProductsDto) : Except Failure (String × List Param) := do
  assertSearchCategoryPair dto.category dto.subcategory
  let leadingParams : List Param := [.num user.sub]
  let (whereClause, params) := buildSearchFilters dto leadingParams "plv."
  let (limit, offset) := resolveOffsetPagination dto.toOffsetPaginationQuery 20 100
  let allParams := leadingParams ++ params ++ [.num limit, .num offset]
  let limitIdx := leadingParams.length + params.length + 1
  let offsetIdx := leadingParams.length + params.length + 2
  let (sortColumn, sortDir) := resolveSort dto.toSearchProductsDto
  pure (mySelect ++ s!"$1 {whereClause}\n       ORDER BY {sortColumn} {sortDir}, plv.id DESC\n       LIMIT ${limitIdx} OFFSET ${offsetIdx}", allParams)

def searchProducts (dto : SearchProductsDto) : Except Failure (String × List Param) := do
  assertSearchCategoryPair dto.category dto.subcategory
  let leadingParams : List Param := []
  let (whereClause, params) := buildSearchFilters { toSearchProductsDto := dto } leadingParams ""
  let (limit, offset) := resolveOffsetPagination dto.toOffsetPaginationQuery 20 100
  let allParams := params ++ [.num limit, .num offset]
  let limitIdx := params.length + 1
  let offsetIdx := params.length + 2
  let (sortColumn, sortDir) := resolveSort dto
  pure (searchSelect ++ s!"{whereClause}\n       ORDER BY {sortColumn} {sortDir}, plv.id DESC\n       LIMIT ${limitIdx} OFFSET ${offsetIdx}", allParams)

end Methods

section Meaning

/-- The filters of a search. -/
inductive Filter where
  | category
  | subcategory
  | minPrice
  | maxPrice
  | fromDate
  | toDate
  | city
  | addressText
  | q
  | minRate
  | status

namespace Filter

/-- The value that a search has for a filter. -/
def given (dto : ListMyProductsDto) : Filter → Option Param
  | category => (truthy dto.category).map .text
  | subcategory => ((truthy dto.subcategory).filter fun s => s ≠ "all").map .text
  | minPrice => dto.minPrice.map .ofNumber
  | maxPrice => dto.maxPrice.map .ofNumber
  | fromDate => (truthy dto.fromDate).map .text
  | toDate => (truthy dto.toDate).map .text
  | city => (truthy dto.city).map fun s => .text ("%" ++ escapeLike s ++ "%")
  | addressText => (truthy dto.addressText).map fun s => .text ("%" ++ escapeLike s ++ "%")
  | q => (truthy dto.q).map .text
  | minRate => dto.minRate.map .ofNumber
  | status => dto.status.map fun s => .text s.text

/-- The condition of a filter up to its value, around the prefix of the column names. -/
def test (columns : String) : Filter → List String
  | category => [columns, "category = "]
  | subcategory => [columns, "subcategory = "]
  | minPrice => [columns, "price >= "]
  | maxPrice => [columns, "price <= "]
  | fromDate => [columns, "created_at >= "]
  | toDate => [columns, "created_at <= "]
  | city => [columns, "city ILIKE "]
  | addressText => [columns, "address_text ILIKE "]
  | q =>
    ["to_tsvector('simple', COALESCE(", columns, "name,'') || ' ' || COALESCE(", columns,
     "description,'')) @@ plainto_tsquery('simple', "]
  | minRate => [columns, "seller_rate >= "]
  | status => [columns, "status = "]

def before (columns : String) (f : Filter) : String := " AND " ++ String.join (f.test columns)

/-- The rest of the condition behind the value. -/
def after : Filter → String
  | city | addressText => " ESCAPE '\\'"
  | q => ")"
  | _ => ""

def piece (columns : String) (f : Filter) (value : Param) : Piece Param := ⟨f.before columns, value, f.after⟩

end Filter

/-- The conditions of the filters that a search has, each with its own value. -/
def conditions (columns : String) (filters : List Filter) (dto : ListMyProductsDto) : List (Piece Param) :=
  filters.flatMap fun f => ((f.given dto).map (f.piece columns)).toList

/-- The filters that everyone may use. -/
def searchFilters : List Filter :=
  [.category, .subcategory, .minPrice, .maxPrice, .fromDate, .toDate, .city, .addressText, .q, .minRate]

/-- The filters on one's own products. -/
def myFilters : List Filter := searchFilters ++ [.status]

/-- The order and the bounds of the page. -/
def paged (dto : SearchProductsDto) : List (Piece Param) :=
  let sort := resolveSort dto
  let bounds := resolveOffsetPagination dto.toOffsetPaginationQuery 20 100
  [⟨"\n       ORDER BY " ++ sort.1 ++ " " ++ sort.2 ++ ", plv.id DESC\n       LIMIT ", .num bounds.1, ""⟩,
   ⟨" OFFSET ", .num bounds.2, ""⟩]

/-- The products of a user, with the conditions of a search. -/
def myStatement (user : AuthUser) (dto : ListMyProductsDto) : List (Piece Param) :=
  ⟨mySelect, .num user.sub, " "⟩ :: (conditions "plv." myFilters dto ++ paged dto.toSearchProductsDto)

/-- What comes behind the condition that a product is available. -/
def searchStatement (dto : SearchProductsDto) : List (Piece Param) :=
  conditions "" searchFilters { toSearchProductsDto := dto } ++ paged dto

end Meaning

section Filling
variable {base n : ℕ} {filters : SearchFilters} {ps qs : List (Piece Param)} {value : Option Param} {columns : String}

theorem numbered_append : numbered n (ps ++ qs) = numbered n ps ++ numbered (n + ps.length) qs := by
  induction ps generalizing n with
  | nil => simp [numbered]
  | cons p ps ih =>
    rw [List.cons_append, numbered, numbered, ih, List.length_cons, Nat.add_assoc n 1, Nat.add_comm 1]
    simp only [String.append_assoc]

/-- The clauses and parameters are those of the pieces. -/
structure Collects (base : ℕ) (filters : SearchFilters) (ps : List (Piece Param)) : Prop where
  params : filters.params = ps.map Piece.value
  clauses : String.join (filters.clauses.map fun clause => " " ++ clause) = numbered (base + 1) ps

/-- A filter adds its piece, if there is a value for it. -/
theorem Collects.pushIf (h : Collects base filters ps) (f : Filter) {clause : ℕ → String}
    (hc : ∀ n, " " ++ clause n = f.before columns ++ "$" ++ toString n ++ f.after) :
    Collects base (filters.pushIf base value clause) (ps ++ (value.map (f.piece columns)).toList) := by
  cases value with
  | none => simpa [SearchFilters.pushIf] using h
  | some v =>
    have hlen : filters.params.length = ps.length := by rw [h.params, List.length_map]
    constructor
    · simp [SearchFilters.pushIf, h.params, Filter.piece]
    · have hnumber : base + (filters.params ++ [v]).length = base + 1 + ps.length := by
        rw [List.length_append, List.length_singleton, hlen]
        omega
      have hpiece : numbered (base + 1 + ps.length) [f.piece columns v] = " " ++ clause (base + 1 + ps.length) := by
        rw [hc]
        simp [numbered, Filter.piece, String.append_assoc]
      simp only [SearchFilters.pushIf, hnumber, List.map_append, String.join_append, h.clauses, Option.map_some,
        Option.toList_some, numbered_append, hpiece]
      simp

/-- `clauses.join(' ')` behind a space. -/
theorem joined {clauses : List String} : (if clauses = [] then "" else " " ++ " ".intercalate clauses) =
    String.join (clauses.map fun clause => " " ++ clause) := by
  induction clauses with
  | nil => rfl
  | cons clause clauses ih =>
    rw [if_neg (List.cons_ne_nil _ _), List.map_cons, String.join_cons, ← ih]
    split
    · rename_i hnil
      rw [hnil]
      simp
    · rename_i hne
      rw [String.intercalate_cons_of_ne_nil hne]
      simp only [String.append_assoc]

theorem Collects.result (h : Collects base filters ps) :
    ((if filters.clauses = [] then "" else " " ++ " ".intercalate filters.clauses, filters.params) : String × _) =
      (numbered (base + 1) ps, ps.map Piece.value) := by
  rw [joined, h.clauses, h.params]

/-- The filters that `buildSearchFilters` looks at. -/
def allowed (columns : String) : List Filter := if columns = "" then searchFilters else myFilters

/-- What `buildSearchFilters` puts together are the conditions of the search. -/
theorem buildSearchFilters_eq {dto : ListMyProductsDto} {leadingParams : List Param} :
    buildSearchFilters dto leadingParams columns =
      (numbered (leadingParams.length + 1) (conditions columns (allowed columns) dto),
       (conditions columns (allowed columns) dto).map Piece.value) := by
  unfold buildSearchFilters
  refine Collects.result ?_
  have hstatus : conditions columns (allowed columns) dto = conditions columns searchFilters dto ++
      ((if columns = "" then none else dto.status.map fun s => .text s.text).map (Filter.status.piece columns)).toList := by
    unfold allowed
    split
    · simp
    · simp [myFilters, conditions, Filter.given]
  have hsearch : conditions columns searchFilters dto = [] ++
      ((Filter.given dto .category).map (Filter.category.piece columns)).toList ++
      ((Filter.given dto .subcategory).map (Filter.subcategory.piece columns)).toList ++
      ((Filter.given dto .minPrice).map (Filter.minPrice.piece columns)).toList ++
      ((Filter.given dto .maxPrice).map (Filter.maxPrice.piece columns)).toList ++
      ((Filter.given dto .fromDate).map (Filter.fromDate.piece columns)).toList ++
      ((Filter.given dto .toDate).map (Filter.toDate.piece columns)).toList ++
      ((Filter.given dto .city).map (Filter.city.piece columns)).toList ++
      ((Filter.given dto .addressText).map (Filter.addressText.piece columns)).toList ++
      ((Filter.given dto .q).map (Filter.q.piece columns)).toList ++
      ((Filter.given dto .minRate).map (Filter.minRate.piece columns)).toList := by
    simp [conditions, searchFilters]
  simp only [Filter.given] at hsearch
  rw [hstatus, hsearch]
  have hnil : Collects leadingParams.length {} [] := ⟨rfl, rfl⟩
  refine (((((((((((hnil.pushIf .category ?_).pushIf .subcategory ?_).pushIf .minPrice ?_).pushIf .maxPrice ?_).pushIf
    .fromDate ?_).pushIf .toDate ?_).pushIf .city ?_).pushIf .addressText ?_).pushIf .q ?_).pushIf .minRate ?_).pushIf
    .status ?_)
  all_goals
    intro n
    apply String.toList_inj.mp
    simp [Filter.before, Filter.after, Filter.test, toString]

end Filling

section Statements
variable {user : AuthUser} {columns : String} {filters : List Filter} {p : Piece Param}

/-- The bounds of the page have the two numbers that follow. -/
theorem numbered_paged {n : ℕ} {dto : SearchProductsDto} : numbered n (paged dto) =
    s!"\n       ORDER BY {(resolveSort dto).1} {(resolveSort dto).2}, plv.id DESC\n       LIMIT ${n} OFFSET ${n + 1}" := by
  apply String.toList_inj.mp
  simp [numbered, paged, toString]

theorem listMyProducts_eq {dto : ListMyProductsDto} : listMyProducts user dto =
    (assertSearchCategoryPair dto.category dto.subcategory).map fun _ =>
      (numbered 1 (myStatement user dto), (myStatement user dto).map Piece.value) := by
  simp only [listMyProducts, buildSearchFilters_eq]
  cases hc : assertSearchCategoryPair dto.category dto.subcategory with
  | error e => rfl
  | ok _ =>
    have hallowed : allowed "plv." = myFilters := rfl
    refine congrArg Except.ok (Prod.ext ?_ ?_)
    · have hlimit : 1 + 1 + (conditions "plv." myFilters dto).length =
          1 + (conditions "plv." myFilters dto).length + 1 := by omega
      have hoffset : 1 + (conditions "plv." myFilters dto).length + 1 + 1 =
          1 + (conditions "plv." myFilters dto).length + 2 := rfl
      have howner : Nat.toDigits 10 1 = ['1'] := rfl
      simp only [hallowed, myStatement, numbered, numbered_append, numbered_paged, hlimit, hoffset]
      apply String.toList_inj.mp
      simp [toString, howner]
    · simp [hallowed, myStatement, paged]

theorem searchProducts_eq {dto : SearchProductsDto} : searchProducts dto =
    (assertSearchCategoryPair dto.category dto.subcategory).map fun _ =>
      (searchSelect ++ numbered 1 (searchStatement dto), (searchStatement dto).map Piece.value) := by
  simp only [searchProducts, buildSearchFilters_eq]
  cases hc : assertSearchCategoryPair dto.category dto.subcategory with
  | error e => rfl
  | ok _ =>
    have hallowed : allowed "" = searchFilters := rfl
    refine congrArg Except.ok (Prod.ext ?_ ?_)
    · have hlimit : 1 + (conditions "" searchFilters { toSearchProductsDto := dto }).length =
          (conditions "" searchFilters { toSearchProductsDto := dto }).length + 1 := by omega
      simp only [hallowed, searchStatement, numbered_append, numbered_paged, hlimit]
      apply String.toList_inj.mp
      simp [toString]
    · simp [hallowed, searchStatement, paged]

theorem piece_plain {f : Filter} {value : Param} (hc : columns = "" ∨ columns = "plv.") :
    (f.piece columns value).plain = true := by
  rw [Filter.piece, Piece.plain_value .null]
  rcases hc with rfl | rfl
  · cases f <;> decide +kernel
  · cases f <;> decide +kernel

theorem conditions_plain {dto : ListMyProductsDto} (hc : columns = "" ∨ columns = "plv.")
    (hp : p ∈ conditions columns filters dto) : p.plain = true := by
  obtain ⟨f, -, hf⟩ := List.mem_flatMap.mp hp
  obtain ⟨value, -, rfl⟩ := Option.map_eq_some_iff.mp (Option.mem_toList.mp hf)
  exact piece_plain hc

theorem paged_plain {dto : SearchProductsDto} (hp : p ∈ paged dto) : p.plain = true := by
  have hsort : (resolveSort dto).1 ∈ ["plv.price", "plv.city", "plv.seller_rate", "plv.created_at"] ∧
      (resolveSort dto).2 ∈ ["ASC", "DESC"] := by
    unfold resolveSort
    constructor
    · cases dto.sortBy.getD .created <;> simp
    · cases dto.sortDir.getD .desc <;> simp
  have hplain : ∀ column ∈ ["plv.price", "plv.city", "plv.seller_rate", "plv.created_at"], ∀ direction ∈ ["ASC", "DESC"],
      (⟨"\n       ORDER BY " ++ column ++ " " ++ direction ++ ", plv.id DESC\n       LIMIT ", .null, ""⟩ :
        Piece Param).plain = true := by
    decide +kernel
  simp only [paged, List.mem_cons, List.not_mem_nil, or_false] at hp
  rcases hp with rfl | rfl
  · rw [Piece.plain_value .null]
    exact hplain _ hsort.1 _ hsort.2
  · rw [Piece.plain_value .null]
    decide +kernel

theorem mySelect_plain {value : Param} : (⟨mySelect, value, " "⟩ : Piece Param).plain = true := by
  rw [mySelect]
  apply Piece.plain_ofList
  decide +kernel

theorem searchSelect_closes : (Mode.text false).closes searchSelect.toList = true := by
  rw [searchSelect]
  apply closes_ofList
  decide +kernel

theorem myStatement_plain {dto : ListMyProductsDto} (hp : p ∈ myStatement user dto) : p.plain = true := by
  rcases List.mem_cons.mp hp with hp | hp
  · rw [hp]
    exact mySelect_plain
  · rcases List.mem_append.mp hp with hp | hp
    · exact conditions_plain (.inr rfl) hp
    · exact paged_plain hp

theorem searchStatement_plain {dto : SearchProductsDto} (hp : p ∈ searchStatement dto) : p.plain = true := by
  rcases List.mem_append.mp hp with hp | hp
  · exact conditions_plain (.inl rfl) hp
  · exact paged_plain hp

end Statements

section Binding

/-- Every parameter of a query has its placeholder, and with the parameters it is the pieces behind the header. -/
structure Binds (query : String × List Param) (header : String) (ps : List (Piece Param)) : Prop where
  placeholders : placeholders query.1 = List.range' 1 query.2.length
  filled : substitute query.2 query.1 = chars header ++ filled ps

theorem numbered_binds {header : String} {ps : List (Piece Param)}
    (hh : (Mode.text false).closes header.toList = true) (hp : ∀ p ∈ ps, p.plain = true) :
    Binds (header ++ numbered 1 ps, ps.map Piece.value) header ps := by
  have hfilled := @substitute_numbered Param header ps [] [] hh hp
  rw [List.nil_append, List.append_nil] at hfilled
  constructor
  · rw [placeholders_numbered hh hp, List.length_map]
  · exact hfilled

theorem query_eq {checked : Except Failure Unit} {query found : String × List Param}
    (hq : (checked.map fun _ => found) = .ok query) : query = found := by
  cases checked with
  | error e => cases hq
  | ok _ => exact (Except.ok.inj hq).symm

/-- The parameters of a search are bound to its own filters, behind any others, and the bounds to the page. -/
theorem search_binds :
    (∀ columns ∈ ["", "plv."], ∀ (dto : ListMyProductsDto) (leadingParams more : List Param),
      placeholders (buildSearchFilters dto leadingParams columns).1 =
          List.range' (leadingParams.length + 1) (buildSearchFilters dto leadingParams columns).2.length ∧
        substitute (leadingParams ++ (buildSearchFilters dto leadingParams columns).2 ++ more)
            (buildSearchFilters dto leadingParams columns).1 =
          filled (conditions columns (allowed columns) dto)) ∧
      (∀ user dto query, listMyProducts user dto = .ok query → Binds query "" (myStatement user dto)) ∧
      ∀ dto query, searchProducts dto = .ok query → Binds query searchSelect (searchStatement dto) := by
  refine ⟨fun columns hcolumns dto leadingParams more => ?_, fun user dto query hq => ?_, fun dto query hq => ?_⟩
  · have hc : columns = "" ∨ columns = "plv." := by simpa using hcolumns
    have hplain : ∀ p ∈ conditions columns (allowed columns) dto, p.plain = true := fun p hp => conditions_plain hc hp
    rw [buildSearchFilters_eq, List.length_map]
    have hplaces := @placeholders_numbered Param "" _ (leadingParams.length + 1) rfl hplain
    have hfilled := @substitute_numbered Param "" _ leadingParams more rfl hplain
    rw [String.empty_append] at hplaces hfilled
    exact ⟨hplaces, hfilled⟩
  · rw [listMyProducts_eq] at hq
    rw [query_eq hq]
    have hbinds := @numbered_binds "" _ rfl fun p hp => @myStatement_plain user p dto hp
    rwa [String.empty_append] at hbinds
  · rw [searchProducts_eq] at hq
    rw [query_eq hq]
    exact numbered_binds searchSelect_closes fun p hp => searchStatement_plain hp

def shopper : AuthUser := ⟨1, false⟩

def iphones : ListMyProductsDto where
  category := some "electronics"
  subcategory := some "all"
  minPrice := some (some 100)
  maxPrice := some (some 1000)
  fromDate := some "2024-01-01"
  toDate := some "2024-12-31"
  minRate := some (some (7 / 2))
  city := some "Cairo"
  addressText := some "Tahrir"
  q := some "iphone"
  sortBy := some .price
  sortDir := some .asc
  status := some .sold
  limit := some 5
  offset := some 10

theorem iphones_bind : ∃ query, listMyProducts shopper iphones = .ok query ∧
    query.2 = [.num 1, .text "electronics", .num 100, .num 1000, .text "2024-01-01", .text "2024-12-31",
      .text "%Cairo%", .text "%Tahrir%", .text "iphone", .num (7 / 2), .text "sold", .num 5, .num 10] ∧
    Binds query "" (myStatement shopper iphones) ∧
    placeholders (buildSearchFilters iphones [.num 1, .null, .null] "plv.").1 = List.range' 4 10 ∧
    ∃ found, searchProducts iphones.toSearchProductsDto = .ok found ∧
      Binds found searchSelect (searchStatement iphones.toSearchProductsDto) := by
  have hcheck : assertSearchCategoryPair iphones.category iphones.subcategory = .ok () := by decide +kernel
  have hq : listMyProducts shopper iphones =
      .ok (numbered 1 (myStatement shopper iphones), (myStatement shopper iphones).map Piece.value) := by
    rw [listMyProducts_eq, hcheck]
    rfl
  have hfound : searchProducts iphones.toSearchProductsDto =
      .ok (searchSelect ++ numbered 1 (searchStatement iphones.toSearchProductsDto),
        (searchStatement iphones.toSearchProductsDto).map Piece.value) := by
    rw [searchProducts_eq, hcheck]
    rfl
  have hfilters := (search_binds.1 "plv." (by decide +kernel) iphones [.num 1, .null, .null] []).1
  have hlength : (buildSearchFilters iphones [.num 1, .null, .null] "plv.").2.length = 10 := by decide +kernel
  rw [hlength] at hfilters
  refine ⟨_, hq, ?_, search_binds.2.1 shopper iphones _ hq, hfilters, _, hfound, search_binds.2.2 _ _ hfound⟩
  decide +kernel

end Binding

end Kayan.Searching
