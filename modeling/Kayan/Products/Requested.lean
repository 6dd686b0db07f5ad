import Mathlib
import Kayan.Products.Listing

/-!
# The requested page of products

What a query for products asks for, and when `listProducts` answers it: `created_at` is a column of both
joined tables and the name of a text in the `SELECT` list.
-/
namespace Kayan.Products
open Fk Payload Statement
open Reads (OffsetPaginationQuery SortDirection resolveOffsetPagination)

section Request
variable (timestamptz : String → Option Nat) (f : Like.Folding) (s : Store)

/-- The text contains the other, up to case. -/
def contains (part text : String) : Bool := decide (part.toList.map f.fold <:+: text.toList.map f.fold)

/-- The product satisfies every filter of the query. Its average rating is the one that is shown, in hundredths. -/
def satisfies (query : ListProductsQueryDto) (product : CatalogProduct) : Bool :=
  product.deletedAt.isNone &&
    (match query.availability.getD .active with
      | .active => product.isActive
      | .inactive => !product.isActive
      | .all => true) &&
    (query.query.filter (· ≠ "")).all (fun q => contains f q product.title || contains f q product.description) &&
    query.minPrice.all (fun q => q ≤ (((product.price : ℚ) / 100 : ℚ) : WithTop ℚ)) &&
    query.maxPrice.all (fun q => (((product.price : ℚ) / 100 : ℚ) : WithTop ℚ) ≤ q) &&
    (query.fromDate.filter (· ≠ "")).all (fun date => (timestamptz date).any (· ≤ product.createdAt)) &&
    (query.toDate.filter (· ≠ "")).all (fun date => (timestamptz date).any (product.createdAt ≤ ·)) &&
    query.minRate.all (fun rate => 100 * rate ≤ averageRate (s.ratingsOf product.id)) &&
    query.maxRate.all (fun rate => averageRate (s.ratingsOf product.id) ≤ 100 * rate)

def satisfying (query : ListProductsQueryDto) : List CatalogProduct := s.products.filter (satisfies timestamptz f s query)

/-- By a key in one direction, ties broken by descending id. -/
def keyBefore {K : Type} [LinearOrder K] (direction : SortDirection) (key : CatalogProduct → K) (a b : CatalogProduct) : Bool :=
  (match direction with
    | .asc => decide (key a < key b)
    | .desc => decide (key b < key a)) || (decide (key a = key b) && decide (b.id < a.id))

/-- In the requested order. -/
def requestedBefore (query : ListProductsQueryDto) : CatalogProduct → CatalogProduct → Bool :=
  match query.sortBy.getD .createdAt with
  | .price => keyBefore (query.sortDirection.getD .desc) (·.price)
  | .createdAt => keyBefore (query.sortDirection.getD .desc) (·.createdAt)

def requestedPage (query : ListProductsQueryDto) : List CatalogProduct :=
  Reads.page (resolveOffsetPagination query.toOffsetPaginationQuery 20 100)
    ((satisfying timestamptz f s query).insertionSort fun a b => !requestedBefore query b a)

end Request

section Order
variable {K : Type} [LinearOrder K] {direction : SortDirection} {key : CatalogProduct → K} {a b c : CatalogProduct}

theorem keyBefore_iff : keyBefore direction key a b = true ↔
    (match direction with | .asc => key a < key b | .desc => key b < key a) ∨ (key a = key b ∧ b.id < a.id) := by
  cases direction <;> simp [keyBefore]

theorem keyBefore_asymm (h : keyBefore direction key a b = true) : keyBefore direction key b a = false := by
  rw [← Bool.not_eq_true, keyBefore_iff]
  rw [keyBefore_iff] at h
  cases direction <;> grind

theorem keyBefore_total (h : a.id ≠ b.id) (hnot : keyBefore direction key b a = false) : keyBefore direction key a b = true := by
  rw [← Bool.not_eq_true, keyBefore_iff] at hnot
  rw [keyBefore_iff]
  cases direction <;> grind

theorem not_keyBefore_trans (hab : keyBefore direction key b a = false) (hbc : keyBefore direction key c b = false) :
    keyBefore direction key c a = false := by
  rw [← Bool.not_eq_true, keyBefore_iff] at hab hbc ⊢
  cases direction <;> grind

theorem sort_keyBefore {rows : List CatalogProduct} (hkeyed : (rows.map (·.id)).Nodup) :
    (rows.insertionSort fun a b => !keyBefore direction key b a).Pairwise fun a b => keyBefore direction key a b = true := by
  refine Paging.sorted_strict hkeyed (fun a b => ?_) (fun a b c hab hbc => ?_) fun a b hne hab => ?_
  · cases h : keyBefore direction key b a with
    | false => exact .inl rfl
    | true => exact .inr (by simp [keyBefore_asymm h])
  · simp only [Bool.not_eq_true'] at hab hbc ⊢
    exact not_keyBefore_trans hab hbc
  · exact keyBefore_total hne (by simpa using hab)

end Order

section Filters
variable (timestamptz : String → Option Nat) (f : Like.Folding) (s : Store) (product : CatalogProduct) (values : List Nat)

/-- The pattern for a search text. -/
def searchPattern (text : String) : Value := .text (String.ofList ('%' :: (Like.escape text.toList ++ ['%'])))

def availabilityTests (availability : Option ProductAvailabilityFilter) : List (Test × Option Value) :=
  match availability.getD .active with
  | .active => [(.isBool "is_active" true, none)]
  | .inactive => [(.isBool "is_active" false, none)]
  | .all => []

theorem bound_availability (availability : Option ProductAvailabilityFilter) (b : Query) :
    (availabilityTest availability b).bound = b.bound ++ availabilityTests availability := by
  cases availability with
  | none => exact b.bound_add _
  | some filter =>
    cases filter with
    | active => exact b.bound_add _
    | inactive => exact b.bound_add _
    | all => exact (List.append_nil _).symm

/-- A condition for an optional filter. -/
def given {α : Type} (filter : Option α) (test : Test) (value : α → Value) : List (Test × Option Value) :=
  (filter.map fun x => (test, some (value x))).toList

theorem bound_given {α : Type} (b : Query) (filter : Option α) (test : Test) (value : α → Value) :
    (b.pushIf (filter.map value) test).bound = b.bound ++ given filter test value := by
  rw [b.bound_pushIf, Option.map_map]
  rfl

/-- Each filter gives its own condition, with its own parameter. -/
theorem bound_filterQuery (query : ListProductsQueryDto) :
    (filterQuery query).bound = (.isNull "deleted_at", none) :: (availabilityTests query.availability ++
      (given (query.query.filter (· ≠ "")) (.ilike ["title", "description"]) searchPattern ++
      (given query.minPrice (.compare "price" .atLeast) .number ++
      (given query.maxPrice (.compare "price" .atMost) .number ++
      (given (query.fromDate.filter (· ≠ "")) (.compare "created_at" .atLeast) .text ++
      (given (query.toDate.filter (· ≠ "")) (.compare "created_at" .atMost) .text ++
      (given query.minRate (.rate .atLeast) (fun rate : Nat => .number (rate : ℚ)) ++
      given query.maxRate (.rate .atMost) fun rate : Nat => .number (rate : ℚ)))))))) := by
  simp only [filterQuery, bound_given, bound_availability, Builder.bound_add, List.append_assoc]
  rfl

theorem all_given {α : Type} (filter : Option α) (test : Test) (value : α → Value) (p : Test × Option Value → Bool) :
    (given filter test value).all p = filter.all fun x => p (test, some (value x)) := by
  cases filter with
  | none => rfl
  | some x => exact Bool.and_true _

theorem holds_availability (availability : Option ProductAvailabilityFilter) :
    ((availabilityTests availability).all fun part => part.1.holds timestamptz f product values part.2) =
      match availability.getD .active with
      | .active => product.isActive
      | .inactive => !product.isActive
      | .all => true := by
  rcases availability with - | (- | - | -) <;> cases h : product.isActive <;>
    simp [availabilityTests, Test.holds, CatalogProduct.value, h]

theorem holds_deleted : (Test.isNull "deleted_at").holds timestamptz f product values none = product.deletedAt.isNone := by
  cases h : product.deletedAt <;> simp [Test.holds, CatalogProduct.value, h]

theorem holds_search (text : String) :
    (Test.ilike ["title", "description"]).holds timestamptz f product values (some (searchPattern text)) =
      (contains f text product.title || contains f text product.description) := by
  simp [Test.holds, CatalogProduct.value, searchPattern, contains, Like.ilike_contains]

theorem rateValue_le (rate : Nat) : rateValue values ≤ (rate : WithTop ℚ) ↔ averageRate values ≤ 100 * rate := by
  rw [rateValue, ← WithTop.coe_natCast, WithTop.coe_le_coe, div_le_iff₀ (by norm_num)]
  norm_cast
  rw [Nat.mul_comm]

theorem le_rateValue (rate : Nat) : (rate : WithTop ℚ) ≤ rateValue values ↔ 100 * rate ≤ averageRate values := by
  rw [rateValue, ← WithTop.coe_natCast, WithTop.coe_le_coe, le_div_iff₀ (by norm_num)]
  norm_cast
  rw [Nat.mul_comm]

/-- The conditions of the query are the filters. -/
theorem all_holds (query : ListProductsQueryDto) :
    ((filterQuery query).bound.all fun part => part.1.holds timestamptz f product (s.ratingsOf product.id) part.2) =
      satisfies timestamptz f s query product := by
  rw [bound_filterQuery]
  simp only [List.all_cons, List.all_append, all_given, holds_availability, holds_deleted, holds_search]
  simp only [satisfies, Bool.and_assoc]
  simp [Test.holds, CatalogProduct.value, Comparison.holds, rateValue_le, le_rateValue]

end Filters

section Names

/-- A bound on the creation time is given. -/
def dated (query : ListProductsQueryDto) : Bool :=
  (query.fromDate.filter (· ≠ "")).isSome || (query.toDate.filter (· ≠ "")).isSome

theorem resolve_cp {name : String} (h : name ∈ ["deleted_at", "is_active", "title", "description", "price"]) :
    resolve joined name = .ok "cp" := by
  simp only [List.mem_cons, List.not_mem_nil, or_false] at h
  rcases h with rfl | rfl | rfl | rfl | rfl <;> rfl

theorem resolve_names {names : List String}
    (h : ∀ name ∈ names, name ∈ ["deleted_at", "is_active", "title", "description", "price", "created_at"]) :
    names.mapM (resolve joined) =
      if "created_at" ∈ names then .error .ambiguousColumn else .ok (names.map fun _ => "cp") := by
  induction names with
  | nil => rfl
  | cons name names ih =>
    have htail := ih fun other hother => h other (List.mem_cons_of_mem _ hother)
    by_cases hname : name = "created_at"
    · subst hname
      rw [if_pos (List.mem_cons_self ..), List.mapM_cons]
      rfl
    · have hcp : resolve joined name = .ok "cp" := by
        apply resolve_cp
        have := h name (List.mem_cons_self ..)
        simp only [List.mem_cons, List.not_mem_nil, or_false] at this ⊢
        tauto
      rw [List.mapM_cons, hcp, htail]
      by_cases hrest : "created_at" ∈ names
      · rw [if_pos hrest, if_pos (List.mem_cons_of_mem _ hrest)]
        rfl
      · rw [if_neg hrest, if_neg (by simp [hrest, Ne.symm hname])]
        rfl

theorem flatMap_given {α : Type} (filter : Option α) (test : Test) (value : α → Value) :
    ((given filter test value).flatMap fun part => part.1.columns) = if filter.isSome then test.columns else [] := by
  cases filter with
  | none => rfl
  | some x => exact List.append_nil _

/-- The columns of the conditions of a query. -/
theorem mem_columns (query : ListProductsQueryDto) (name : String) :
    name ∈ ((filterQuery query).bound.flatMap fun part => part.1.columns) ↔
      name = "deleted_at" ∨ (name = "is_active" ∧ query.availability ≠ some .all) ∨
        ((name = "title" ∨ name = "description") ∧ (query.query.filter (· ≠ "")).isSome) ∨
          (name = "price" ∧ (query.minPrice.isSome ∨ query.maxPrice.isSome)) ∨
            (name = "created_at" ∧ dated query = true) := by
  have havailability : ((availabilityTests query.availability).flatMap fun part => part.1.columns) =
      if query.availability ≠ some .all then ["is_active"] else [] := by
    rcases query.availability with - | (- | - | -) <;> rfl
  rw [bound_filterQuery]
  simp only [List.flatMap_cons, List.flatMap_append, flatMap_given, havailability]
  simp only [Test.columns, List.mem_append, List.mem_ite_nil_right, List.mem_cons, List.not_mem_nil, or_false, dated,
    Bool.or_eq_true, and_false]
  tauto

/-- Only a bound on the creation time names a column of both tables. -/
theorem resolveNames_eq (query : ListProductsQueryDto) :
    resolveNames query =
      if dated query then .error .ambiguousColumn
      else .ok (.output (if query.sortBy.getD .createdAt = .price then .column "price" else .columnText "created_at")) := by
  have horder : resolveOrder selected joined (orderColumn query.sortBy) =
      .ok (.output (if query.sortBy.getD .createdAt = .price then .column "price" else .columnText "created_at")) := by
    unfold orderColumn
    split <;> rfl
  have hcolumns : ((filterQuery query).bound.flatMap fun part => part.1.columns).mapM (resolve joined) =
      if dated query then .error .ambiguousColumn
      else .ok (((filterQuery query).bound.flatMap fun part => part.1.columns).map fun _ => "cp") := by
    rw [resolve_names]
    · congr 1
      rw [mem_columns]
      simp
    · intro name hname
      rw [mem_columns] at hname
      simp only [List.mem_cons, List.not_mem_nil, or_false]
      tauto
  unfold resolveNames
  rw [hcolumns, horder]
  split <;> rfl

end Names

section Parameters

theorem sendable_search (text : String) : (searchPattern text).sendable = textStorable text := by
  have hmem : Char.ofNat 0 ∈ '%' :: (Like.escape text.toList ++ ['%']) ↔ Char.ofNat 0 ∈ text.toList := by
    simp [Like.mem_escape]
  simp only [Value.sendable, searchPattern, textStorable, String.toList_ofList, hmem]

theorem sendable_params {query : ListProductsQueryDto} (hdated : dated query = false) :
    (filterQuery query).params.all Value.sendable = query.query.all textStorable := by
  have havailability (b : Query) : (availabilityTest query.availability b).params = b.params := by
    rcases query.availability with - | (- | - | -) <;> rfl
  have hnumber {α : Type} (filter : Option α) (value : α → WithTop ℚ) :
      ((filter.map fun x => Value.number (value x)).toList).all Value.sendable = true := by
    cases filter <;> rfl
  simp only [dated, Bool.or_eq_false_iff, Option.isSome_eq_false_iff, Option.isNone_iff_eq_none] at hdated
  have hstart (b : Query) (hb : b.params = []) : (b.add (.isNull "deleted_at")).params = [] := hb
  simp only [filterQuery, Builder.params_pushIf, havailability, hdated, Option.map_none, Option.toList_none,
    List.append_nil, List.all_append, hnumber, Bool.and_true, hstart, List.nil_append]
  cases h : query.query with
  | none => rfl
  | some text =>
    by_cases hempty : text = ""
    · subst hempty
      rfl
    · have hsend := sendable_search text
      unfold searchPattern at hsend
      simpa [Option.filter_some, hempty] using hsend

end Parameters

section Answers
variable (rd : Reader) (timestamptz : String → Option Nat) (f : Like.Folding) (s : Store) (query : ListProductsQueryDto)

/-- `listProducts` answers the query. -/
def Answers : Prop :=
  listProducts rd timestamptz f s query =
    .ok (.obj [("items", .arr ((requestedPage timestamptz f s query).map (listedProduct rd s)))])

/-- By the texts of the creation times. -/
def textBefore : CatalogProduct → CatalogProduct → Bool :=
  keyBefore (query.sortDirection.getD .desc) fun product => rd.timestampText product.createdAt

/-- A product stands on the requested page if this many others come before it. -/
def onPage (position : Nat) : Prop :=
  let (limit, offset) := resolveOffsetPagination query.toOffsetPaginationQuery 20 100
  offset ≤ position ∧ position < offset + limit

/-- Each product that the texts or the times of creation put on the page has the same position in both orders. -/
def SamePositions : Prop :=
  ∀ product ∈ satisfying timestamptz f s query,
    let byText := Paging.rank (textBefore rd query) (satisfying timestamptz f s query) product
    let byTime := Paging.rank (requestedBefore query) (satisfying timestamptz f s query) product
    onPage query byText ∨ onPage query byTime → byText = byTime

theorem orderedBefore_text (direction : SortDirection) (text : CatalogProduct → String) :
    orderedBefore direction (fun product => .text (text product)) = keyBefore direction text := by
  funext a b
  cases direction <;> simp [orderedBefore, keyBefore, Value.lt]

theorem orderedBefore_price (direction : SortDirection) :
    orderedBefore direction (fun product => .number ((product.price : ℚ) / 100 : ℚ)) = keyBefore direction (·.price) := by
  funext a b
  have hlt (m n : Nat) : (((m : ℚ) / 100 : ℚ) : WithTop ℚ) < (((n : ℚ) / 100 : ℚ) : WithTop ℚ) ↔ m < n := by
    rw [WithTop.coe_lt_coe, div_lt_div_iff_of_pos_right (by norm_num), Nat.cast_lt]
  have heq (m n : Nat) : (((m : ℚ) / 100 : ℚ) : WithTop ℚ) = (((n : ℚ) / 100 : ℚ) : WithTop ℚ) ↔ m = n := by
    rw [WithTop.coe_eq_coe, div_left_inj' (by norm_num), Nat.cast_inj]
  cases direction <;> simp only [orderedBefore, keyBefore, Value.lt, Value.number.injEq, hlt, heq]

/-- The rows of the query, in their order. -/
theorem listedProducts_eq :
    listedProducts rd timestamptz f s query
        (.output (if query.sortBy.getD .createdAt = .price then .column "price" else .columnText "created_at")) =
      (satisfying timestamptz f s query).insertionSort fun a b =>
        !(if query.sortBy.getD .createdAt = .price then keyBefore (query.sortDirection.getD .desc) (·.price)
          else textBefore rd query) b a := by
  unfold listedProducts
  simp only [all_holds]
  by_cases hsort : query.sortBy.getD .createdAt = .price
  · rw [if_pos hsort, if_pos hsort, ← orderedBefore_price]
    rfl
  · rw [if_neg hsort, if_neg hsort, textBefore, ← orderedBefore_text]
    rfl

/-- The database's page is the requested one. -/
theorem page_eq_iff :
    Reads.page (resolveOffsetPagination query.toOffsetPaginationQuery 20 100)
        ((satisfying timestamptz f s query).insertionSort fun a b =>
          !(if query.sortBy.getD .createdAt = .price then keyBefore (query.sortDirection.getD .desc) (·.price)
            else textBefore rd query) b a) = requestedPage timestamptz f s query ↔
      (query.sortBy.getD .createdAt = .createdAt → SamePositions rd timestamptz f s query) := by
  have hkeyed : ((satisfying timestamptz f s query).map (·.id)).Nodup := s.keyed.sublist (List.filter_sublist.map _)
  cases hsort : query.sortBy.getD .createdAt with
  | price =>
    have hbefore : requestedBefore query = keyBefore (query.sortDirection.getD .desc) (·.price) := by
      rw [requestedBefore, hsort]
    simp [requestedPage, hbefore]
  | createdAt =>
    have hbefore : requestedBefore query = keyBefore (query.sortDirection.getD .desc) (·.createdAt) := by
      rw [requestedBefore, hsort]
    have htext : ((satisfying timestamptz f s query).insertionSort fun a b => !textBefore rd query b a).Pairwise
        fun a b => textBefore rd query a b = true := sort_keyBefore hkeyed
    have htime : ((satisfying timestamptz f s query).insertionSort fun a b => !requestedBefore query b a).Pairwise
        fun a b => requestedBefore query a b = true := by
      rw [hbefore]
      exact sort_keyBefore hkeyed
    have hasymm (a b : CatalogProduct) (hab : requestedBefore query a b = true) : requestedBefore query b a = false := by
      rw [hbefore] at hab ⊢
      exact keyBefore_asymm hab
    rw [if_neg (by decide), forall_prop_of_true rfl]
    exact Paging.slice_eq_iff (fun _ _ => keyBefore_asymm) hasymm (List.perm_insertionSort _ _)
      (List.perm_insertionSort _ _) htext htime

theorem listedProduct_id (product : CatalogProduct) :
    field "id" (listedProduct rd s product) = some (rd.bigint product.id) := rfl

theorem eq_of_map_ids {xs ys : List CatalogProduct} (hxs : ∀ product ∈ xs, product ∈ s.products)
    (hys : ∀ product ∈ ys, product ∈ s.products) (h : xs.map (·.id) = ys.map (·.id)) : xs = ys := by
  induction xs generalizing ys with
  | nil => exact (List.map_eq_nil_iff.mp h.symm).symm
  | cons x xs ih =>
    cases ys with
    | nil => cases h
    | cons y ys =>
      rw [List.map_cons, List.map_cons, List.cons.injEq] at h
      have hfront : x = y :=
        List.inj_on_of_nodup_map s.keyed (hxs x (List.mem_cons_self ..)) (hys y (List.mem_cons_self ..)) h.1
      rw [hfront, ih (fun product hp => hxs product (List.mem_cons_of_mem _ hp))
        (fun product hp => hys product (List.mem_cons_of_mem _ hp)) h.2]

/-- Products that are shown alike are the same. -/
theorem listed_inj (hid : Function.Injective rd.bigintText) {xs ys : List CatalogProduct}
    (hxs : ∀ product ∈ xs, product ∈ s.products) (hys : ∀ product ∈ ys, product ∈ s.products) :
    xs.map (listedProduct rd s) = ys.map (listedProduct rd s) ↔ xs = ys := by
  constructor
  · intro h
    apply eq_of_map_ids s hxs hys
    have hshown : (xs.map (·.id)).map (fun id => some (rd.bigint id)) = (ys.map (·.id)).map fun id => some (rd.bigint id) := by
      simpa [listedProduct_id, Function.comp_def] using congrArg (List.map (field "id")) h
    refine List.map_injective_iff.mpr (fun a b hab => ?_) hshown
    exact hid (Payload.str.inj (Option.some_inj.mp hab))
  · exact congrArg _

end Answers

section Lamps

def deskLamp : CatalogProduct where
  id := 1
  title := "Desk lamp"
  description := "Steel"
  amount := 3
  price := 8000
  details := none
  createdBy := some 1
  updatedBy := some 1
  createdAt := 1767607200000000
  updatedAt := 1767607200000000

def floorLamp : CatalogProduct := { deskLamp with id := 2, title := "Floor lamp", createdAt := 1767610800000000 }

theorem noAssets_filed : ∀ asset ∈ ([] : List ProductAsset), ∃ file ∈ ([] : List StoredFile), file.id = asset.fileId := by
  simp

theorem noFiles_bounded : ∀ file ∈ ([] : List StoredFile), file.id ≤ bigintMax := by
  simp

def lamps : Store where
  products := [deskLamp, floorLamp]
  assets := []
  ratings := []
  files := []
  nextProduct := 3
  nextAsset := 1
  keyed := by decide
  fresh := by decide
  filed := noAssets_filed
  bounded := noFiles_bounded

end Lamps

end Kayan.Products
