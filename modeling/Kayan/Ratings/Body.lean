import Kayan.Ratings.Schema

/-!
# The body of `POST /ratings`

The validation of `CreateItemRatingDto`, property by property. `comment` is checked with the decorators of
numbers, so a body with a comment is never accepted (`validate_body_iff`).
-/
namespace Kayan.Ratings
open Reads (ItemType)

/-- The body of a request. -/
abbrev Body := List (String × Json)

/-- What class-validator checks of the value of a property, which may be absent. -/
structure Validators where
  isEnum (values : List String) (value : Option Json) : Bool
  isInt (value : Option Json) : Bool
  isString (value : Option Json) : Bool
  min (bound : ℚ) (value : Option Json) : Bool
  max (bound : ℚ) (value : Option Json) : Bool

/-- `IsEnum` takes the listed values, `IsInt` integers, `IsString` texts, `Min` and `Max` numbers. -/
structure Validators.Documented (v : Validators) : Prop where
  isEnum : ∀ values value, v.isEnum values value = true ↔ ∃ s ∈ values, value = some (.str s)
  isInt : ∀ value, v.isInt value = true ↔ ∃ i : Int, value = some (.num i)
  isString : ∀ value, v.isString value = true ↔ ∃ s, value = some (.str s)
  min : ∀ bound value, v.min bound value = true ↔ ∃ q, value = some (.num q) ∧ bound ≤ q
  max : ∀ bound value, v.max bound value = true ↔ ∃ q, value = some (.num q) ∧ q ≤ bound

/-- A property of the DTO: when it is checked, and its named checks. -/
structure Property where
  name : String
  applies : Body → Bool
  checks : List (String × (Option Json → Bool))

/-- `@ValidateIf((dto) => dto.itemType === ItemType.ORDER)`. -/
def ratesOrder (body : Body) : Bool :=
  match body.lookup "itemType" with
  | some (.str s) => s = ItemType.order.text
  | _ => false

/-- `@IsOptional()`: the checks are left out for an absent value and for `null`. -/
def isPresent (name : String) (body : Body) : Bool :=
  match body.lookup name with
  | none | some .null => false
  | some _ => true

section Validation
variable (v : Validators)

/-- `@IsInt() @Min(1)`. -/
def idChecks : List (String × (Option Json → Bool)) := [("isInt", v.isInt), ("min", v.min 1)]

def properties : List Property :=
  [⟨"itemType", fun _ => true, [("isEnum", v.isEnum [ItemType.order.text, ItemType.fault.text, ItemType.service.text])]⟩,
   ⟨"itemId", fun body => !ratesOrder body, idChecks v⟩,
   ⟨"orderId", ratesOrder, idChecks v⟩,
   ⟨"productId", ratesOrder, idChecks v⟩,
   ⟨"ratingValue", fun _ => true, [("isInt", v.isInt), ("min", v.min 1), ("max", v.max 5)]⟩,
   ⟨"comment", isPresent "comment", [("isString", v.isString), ("min", v.min 1), ("max", v.max 2000)]⟩]

/-- The checks of a property that its value does not pass. -/
def Property.violations (p : Property) (body : Body) : List (String × String) :=
  if p.applies body then (p.checks.filter fun check => !check.2 (body.lookup p.name)).map fun check => (p.name, check.1)
  else []

/-- The properties that the DTO does not have. -/
def unknown (body : Body) : List (String × String) :=
  (body.filter fun entry => (properties v).all fun p => p.name ≠ entry.1).map fun entry => (entry.1, "whitelistValidation")

/-- The property and the check of each error. -/
def violations (body : Body) : List (String × String) :=
  unknown v body ++ (properties v).flatMap fun p => p.violations body

end Validation

section Reading

def natAt (name : String) (body : Body) : Option Nat :=
  match body.lookup name with
  | some (.num q) => if q.den = 1 ∧ 0 ≤ q.num then some q.num.toNat else none
  | _ => none

def itemAt (body : Body) : Option RatedItem :=
  match body.lookup "itemType" with
  | some (.str s) =>
    if s = ItemType.order.text then
      (natAt "orderId" body).bind fun orderId => (natAt "productId" body).map (.product orderId)
    else if s = ItemType.fault.text then (natAt "itemId" body).map .fault
    else if s = ItemType.service.text then (natAt "itemId" body).map .service
    else none
  | _ => none

def commentAt (body : Body) : Option String :=
  match body.lookup "comment" with
  | some (.str s) => some s
  | _ => none

def readDto (body : Body) : Option CreateItemRatingDto :=
  (itemAt body).bind fun item => (natAt "ratingValue" body).map fun ratingValue =>
    { item, ratingValue, comment := commentAt body }

/-- The DTO that the service is given, or the errors. -/
def validate (v : Validators) (body : Body) : Except (List (String × String)) CreateItemRatingDto :=
  match violations v body, readDto body with
  | [], some dto => .ok dto
  | errors, _ => .error errors

end Reading

/-- `itemType` of the request. -/
def RatedItem.type : RatedItem → ItemType
  | .product _ _ => .order
  | .fault _ => .fault
  | .service _ => .service

/-- The ids of the request, with their names. -/
def RatedItem.idFields : RatedItem → List (String × Nat)
  | .product orderId productId => [("orderId", orderId), ("productId", productId)]
  | .fault itemId | .service itemId => [("itemId", itemId)]

/-- The body that asks for the rating. -/
def CreateItemRatingDto.body (dto : CreateItemRatingDto) : Body :=
  ("itemType", .str dto.item.type.text) :: (dto.item.idFields.map fun x => (x.1, .num x.2)) ++
    ("ratingValue", .num dto.ratingValue) :: (dto.comment.map fun comment => ("comment", .str comment)).toList

/-- Ids and value are what the documentation asks for. -/
structure CreateItemRatingDto.InRange (dto : CreateItemRatingDto) : Prop where
  ids : ∀ x ∈ dto.item.idFields, 1 ≤ x.2
  value : 1 ≤ dto.ratingValue ∧ dto.ratingValue ≤ 5

section Requests
variable {v : Validators} {dto : CreateItemRatingDto} {n : Nat} {s : String}

theorem natCast_int (n : Nat) : ((n : Int) : ℚ) = n := Int.cast_natCast n

theorem isInt_nat (hv : v.Documented) : v.isInt (some (.num n)) = true :=
  (hv.isInt _).mpr ⟨n, by rw [natCast_int]⟩

theorem min_nat (hv : v.Documented) (hn : 1 ≤ n) : v.min 1 (some (.num n)) = true :=
  (hv.min _ _).mpr ⟨n, rfl, by exact_mod_cast hn⟩

theorem max_nat (hv : v.Documented) (hn : n ≤ 5) : v.max 5 (some (.num n)) = true :=
  (hv.max _ _).mpr ⟨n, rfl, by exact_mod_cast hn⟩

/-- A text is no number of at least 1. -/
theorem min_text (hv : v.Documented) : v.min 1 (some (.str s)) = false := by
  by_contra h
  obtain ⟨q, hq, -⟩ := (hv.min _ _).mp (Bool.not_eq_false _ ▸ h)
  cases hq

theorem natAt_of_lookup {name : String} {body : Body} (h : body.lookup name = some (.num n)) : natAt name body = some n := by
  simp [natAt, h]

theorem lookup_itemType : dto.body.lookup "itemType" = some (.str dto.item.type.text) := rfl

theorem lookup_ratingValue : dto.body.lookup "ratingValue" = some (.num dto.ratingValue) := by
  obtain ⟨item, ratingValue, comment⟩ := dto
  cases item <;> rfl

theorem lookup_comment : dto.body.lookup "comment" = dto.comment.map .str := by
  obtain ⟨item, ratingValue, comment⟩ := dto
  cases item <;> cases comment <;> rfl

theorem lookup_id {name : String} (h : (name, n) ∈ dto.item.idFields) : dto.body.lookup name = some (.num n) := by
  obtain ⟨item, ratingValue, comment⟩ := dto
  cases item with
  | product orderId productId =>
    simp only [RatedItem.idFields, List.mem_cons, Prod.mk.injEq, List.not_mem_nil, or_false] at h
    obtain ⟨rfl, rfl⟩ | ⟨rfl, rfl⟩ := h <;> rfl
  | fault itemId | service itemId =>
    obtain ⟨rfl, rfl⟩ := Prod.mk.inj (List.mem_singleton.mp h)
    rfl

/-- The body says what the DTO says. -/
theorem readDto_body : readDto dto.body = some dto := by
  have hitem : itemAt dto.body = some dto.item := by
    unfold itemAt
    rw [lookup_itemType]
    rcases hdto : dto.item with ⟨orderId, productId⟩ | itemId | itemId
    · have horder : natAt "orderId" dto.body = some orderId := natAt_of_lookup (lookup_id (by simp [hdto, RatedItem.idFields]))
      have hproduct : natAt "productId" dto.body = some productId :=
        natAt_of_lookup (lookup_id (by simp [hdto, RatedItem.idFields]))
      simp [RatedItem.type, ItemType.text, horder, hproduct]
    · have hid : natAt "itemId" dto.body = some itemId := natAt_of_lookup (lookup_id (by simp [hdto, RatedItem.idFields]))
      simp [RatedItem.type, ItemType.text, hid]
    · have hid : natAt "itemId" dto.body = some itemId := natAt_of_lookup (lookup_id (by simp [hdto, RatedItem.idFields]))
      simp [RatedItem.type, ItemType.text, hid]
  have hcomment : commentAt dto.body = dto.comment := by
    unfold commentAt
    rw [lookup_comment]
    cases dto.comment <;> rfl
  rw [readDto, hitem, Option.bind_some, natAt_of_lookup lookup_ratingValue, hcomment]
  rfl

/-- The DTO has all properties of the body. -/
theorem unknown_body : unknown v dto.body = [] := by
  obtain ⟨item, ratingValue, comment⟩ := dto
  cases item <;> cases comment <;> rfl

theorem violations_eq_nil {p : Property} {body : Body}
    (h : p.applies body = true → ∀ check ∈ p.checks, check.2 (body.lookup p.name) = true) : p.violations body = [] := by
  unfold Property.violations
  split
  · rename_i happ
    rw [List.map_eq_nil_iff, List.filter_eq_nil_iff]
    intro check hcheck
    simp [h happ check hcheck]
  · rfl

theorem idChecks_pass {name : String} {body : Body} (hv : v.Documented) (h : body.lookup name = some (.num n)) (hn : 1 ≤ n) :
    ∀ check ∈ idChecks v, check.2 (body.lookup name) = true := by
  rw [h, idChecks, List.forall_mem_cons, List.forall_mem_singleton]
  exact ⟨isInt_nat hv, min_nat hv hn⟩

theorem ratesOrder_body : ratesOrder dto.body = true ↔ dto.item.type = .order := by
  unfold ratesOrder
  rw [lookup_itemType, decide_eq_true_iff]
  cases dto.item <;> simp [RatedItem.type, ItemType.text]

/-- A body without a comment passes all checks. -/
theorem violations_body (hv : v.Documented) (hx : dto.InRange) (hcomment : dto.comment = none) : violations v dto.body = [] := by
  have hid {name : String} {n : Nat} (h : (name, n) ∈ dto.item.idFields) :
      ∀ check ∈ idChecks v, check.2 (dto.body.lookup name) = true := idChecks_pass hv (lookup_id h) (hx.ids _ h)
  rw [violations, unknown_body, List.nil_append, List.flatMap_eq_nil_iff]
  simp only [properties, List.forall_mem_cons, List.not_mem_nil, false_imp_iff, implies_true, and_true]
  refine ⟨violations_eq_nil fun _ => ?_, violations_eq_nil fun happ => ?_, violations_eq_nil fun happ => ?_,
    violations_eq_nil fun happ => ?_, violations_eq_nil fun _ => ?_, violations_eq_nil fun happ => ?_⟩
  · rw [List.forall_mem_singleton, lookup_itemType]
    refine (hv.isEnum _ _).mpr ⟨_, ?_, rfl⟩
    cases dto.item.type <;> decide
  · have hne : dto.item.type ≠ .order := fun h => by simp [ratesOrder_body.mpr h] at happ
    rcases hitem : dto.item with ⟨orderId, productId⟩ | itemId | itemId
    · exact absurd (congrArg RatedItem.type hitem) hne
    · exact hid (n := itemId) (by simp [hitem, RatedItem.idFields])
    · exact hid (n := itemId) (by simp [hitem, RatedItem.idFields])
  · have horder : dto.item.type = .order := ratesOrder_body.mp happ
    rcases hitem : dto.item with ⟨orderId, productId⟩ | itemId | itemId
    · exact hid (n := orderId) (by simp [hitem, RatedItem.idFields])
    · simp [hitem, RatedItem.type] at horder
    · simp [hitem, RatedItem.type] at horder
  · have horder : dto.item.type = .order := ratesOrder_body.mp happ
    rcases hitem : dto.item with ⟨orderId, productId⟩ | itemId | itemId
    · exact hid (n := productId) (by simp [hitem, RatedItem.idFields])
    · simp [hitem, RatedItem.type] at horder
    · simp [hitem, RatedItem.type] at horder
  · simp only [List.forall_mem_cons, List.not_mem_nil, false_imp_iff, implies_true, and_true, lookup_ratingValue]
    exact ⟨isInt_nat hv, min_nat hv hx.value.1, max_nat hv hx.value.2⟩
  · simp [isPresent, lookup_comment, hcomment] at happ

/-- A body with a comment does not. -/
theorem violations_comment {comment : String} (hv : v.Documented) (hcomment : dto.comment = some comment) :
    ("comment", "min") ∈ violations v dto.body := by
  refine List.mem_append_right _ (List.mem_flatMap.mpr
    ⟨⟨"comment", isPresent "comment", [("isString", v.isString), ("min", v.min 1), ("max", v.max 2000)]⟩, ?_, ?_⟩)
  · simp [properties]
  · have happ : isPresent "comment" dto.body = true := by simp [isPresent, lookup_comment, hcomment]
    have hmin : v.min 1 (dto.body.lookup "comment") = false := by
      rw [lookup_comment, hcomment]
      exact min_text hv
    rw [Property.violations, if_pos happ]
    exact List.mem_map.mpr ⟨("min", v.min 1), List.mem_filter.mpr ⟨by simp, by simp [hmin]⟩, rfl⟩

/-- A documented request is accepted exactly where it has no comment. -/
theorem validate_body_iff (hv : v.Documented) (hx : dto.InRange) :
    validate v dto.body = .ok dto ↔ dto.comment = none := by
  constructor
  · intro h
    by_contra hcomment
    obtain ⟨comment, hcomment⟩ := Option.ne_none_iff_exists'.mp hcomment
    have hne : violations v dto.body ≠ [] := List.ne_nil_of_mem (violations_comment hv hcomment)
    unfold validate at h
    split at h
    · rename_i hnil _
      exact hne hnil
    · cases h
  · intro hcomment
    rw [validate, violations_body hv hx hcomment, readDto_body]

end Requests

end Kayan.Ratings
