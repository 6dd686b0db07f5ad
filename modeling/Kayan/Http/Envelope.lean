import Kayan.Number
import Kayan.Trees

/-!
# The response envelope

`HttpResponseEnvelopeInterceptor` wraps what a handler returns. A payload with one key is merged
with its value, so that the key may be missing in the `data` of the envelope.
-/
namespace Kayan.Http
open Payload
variable {fs gs : Fields} {k : String} {v w data : Payload} {statusCode : Option Nat}

/-- `typeof value === 'object'`, for a value that is neither `null` nor an array: its own entries. -/
def entries? : Payload → Option Fields
  | .obj fs => some fs
  | .custom fs _ => some fs
  | _ => none

def isBoolean : Payload → Bool
  | .bool _ => true
  | _ => false

def isNumber : Payload → Bool
  | .num _ => true
  | _ => false

def isAlreadyEnveloped (data : Payload) : Bool :=
  match entries? data with
  | none => false
  | some payload =>
    (Fields.get "success" payload).any isBoolean && (Fields.get "statusCode" payload).any isNumber &&
      (Fields.get "data" payload).isSome

def normalizeData (data : Payload) : Payload :=
  match entries? data with
  | some [(singleKey, value)] =>
    match entries? value with
    | none => value
    | some nested => .obj (Fields.put singleKey value nested)
  | _ => data

/-- The response to what a handler returns. Contexts other than HTTP are left alone. -/
def intercept (isHttp : Bool) (statusCode : Option Nat) (data : Payload) : Payload :=
  if !isHttp || isAlreadyEnveloped data then data
  else .obj [("success", .bool true), ("statusCode", .num (statusCode.getD 200)), ("data", normalizeData data)]

section Reading

/-- The code unit at a position of a string, where it is a character of its own. -/
def codeUnitAt : List Char → Nat → Option Char
  | [], _ => none
  | c :: cs, i =>
    if c.toNat < 65536 then
      match i with
      | 0 => some c
      | i + 1 => codeUnitAt cs i
    else if i < 2 then none
    else codeUnitAt cs (i - 2)

/-- The index that a property name is, in its canonical form. -/
def indexOf (k : String) : Option Nat := (numeral 10 k.toList).filter fun i => toString i = k

/-- `data[k]` for a value that came as JSON. -/
def read (k : String) : Payload → Option Payload
  | .obj fs => Fields.get k fs
  | .arr xs => if k = "length" then some (.num xs.length) else (indexOf k).bind fun i => xs[i]?
  | .str s =>
    if k = "length" then some (.num (s.toList.map fun c => if c.toNat < 65536 then 1 else 2).sum)
    else ((indexOf k).bind (codeUnitAt s.toList)).map fun c => .str (String.ofList [c])
  | _ => none

end Reading

/-- The `data` of the envelope has every key of the payload, with its value. -/
def KeepsKeys (statusCode : Option Nat) (fs : Fields) : Prop :=
  ∃ data, field "data" (intercept true statusCode (.obj fs)) = some data ∧ ∀ x ∈ fs, read x.1 data = some x.2

/-- The value of a single key is an object, or it is a string of one code unit under the key `0`. -/
def Readable (k : String) (v : Payload) : Prop :=
  (entries? v).isSome ∨ k = "0" ∧ ∃ c : Char, c.toNat < 65536 ∧ v = .str (String.ofList [c])

theorem data_of_intercept (h : isAlreadyEnveloped (.obj fs) = false) :
    field "data" (intercept true statusCode (.obj fs)) = some (normalizeData (.obj fs)) := by
  rw [intercept, h]
  rfl

/-- An array holds no value of its own size. -/
theorem read_arr_ne {xs : List Payload} : read k (.arr xs) ≠ some (.arr xs) := by
  intro h
  rw [read] at h
  split at h
  · cases h
  · obtain ⟨i, -, hi⟩ := Option.bind_eq_some_iff.mp h
    have hmem : Payload.arr xs ∈ xs := List.mem_of_getElem? hi
    have hlt := List.sizeOf_lt_of_mem hmem
    rw [Payload.arr.sizeOf_spec] at hlt
    omega

theorem codeUnitAt_singleton {c : Char} {i : Nat} (h : codeUnitAt [c] i = some c) : i = 0 ∧ c.toNat < 65536 := by
  by_cases hc : c.toNat < 65536
  · cases i with
    | zero => exact ⟨rfl, hc⟩
    | succ i => simp [codeUnitAt, hc] at h
  · simp [codeUnitAt, hc] at h

theorem indexOf_eq_zero (h : indexOf k = some 0) : k = "0" := by
  obtain ⟨-, hk⟩ := Option.filter_eq_some_iff.mp h
  exact (of_decide_eq_true hk).symm

/-- A string is its own property only if it is one code unit, and the property its first. -/
theorem read_str_iff {s : String} : read k (.str s) = some (.str s) ↔ Readable k (.str s) := by
  constructor
  · intro h
    rw [read] at h
    split at h
    · cases h
    · obtain ⟨c, hc, hs⟩ := Option.map_eq_some_iff.mp h
      obtain ⟨i, hi, hat⟩ := Option.bind_eq_some_iff.mp hc
      injection hs with hs
      subst hs
      rw [String.toList_ofList] at hat
      obtain ⟨rfl, hsmall⟩ := codeUnitAt_singleton hat
      exact Or.inr ⟨indexOf_eq_zero hi, c, hsmall, rfl⟩
  · rintro (h | ⟨rfl, c, hc, hs⟩)
    · cases h
    · rw [hs]
      have hzero : indexOf "0" = some 0 := by decide +kernel
      simp [read, hzero, codeUnitAt, hc]

/-- The single key is there with its value exactly when the value is readable under it. -/
theorem read_single_iff : read k (normalizeData (.obj [(k, v)])) = some v ↔ Readable k v := by
  cases v with
  | null | bool b | num n => simp [normalizeData, entries?, read, Readable]
  | str s => exact read_str_iff
  | arr xs =>
    refine iff_of_false read_arr_ne ?_
    rintro (h | ⟨-, c, -, h⟩) <;> cases h
  | obj gs => exact iff_of_true (Fields.get_put k _ gs) (Or.inl rfl)
  | custom gs j => exact iff_of_true (Fields.get_put k _ gs) (Or.inl rfl)

/-- The envelope of a payload keeps its keys exactly when it has more than one key, or the value of
the single key is readable. -/
theorem envelope_keeps_keys_iff (hkeys : (fs.map Prod.fst).Nodup) (hne : fs ≠ [])
    (hnew : isAlreadyEnveloped (.obj fs) = false) :
    KeepsKeys statusCode fs ↔ 1 < fs.length ∨ ∃ k v, fs = [(k, v)] ∧ Readable k v := by
  have hdata : KeepsKeys statusCode fs ↔ ∀ x ∈ fs, read x.1 (normalizeData (.obj fs)) = some x.2 := by
    constructor
    · rintro ⟨data, hd, hread⟩
      rw [data_of_intercept hnew] at hd
      cases hd
      exact hread
    · exact fun hread => ⟨_, data_of_intercept hnew, hread⟩
  rw [hdata]
  match fs with
  | [] => exact absurd rfl hne
  | [(k, v)] =>
    rw [List.forall_mem_singleton, read_single_iff]
    constructor
    · exact fun h => Or.inr ⟨k, v, rfl, h⟩
    · rintro (h | ⟨k', v', he, h⟩)
      · simp at h
      · cases he
        exact h
  | x :: y :: rest =>
    refine iff_of_true (fun z hz => ?_) (Or.inl (by simp))
    exact Entries.lookup_of_mem hkeys hz

/-- An order is under its key, and beside it what it holds. -/
theorem envelope_keeps_order :
    KeepsKeys (some 201) [("order", .obj [("id", .num 41), ("status", .str "received")])] :=
  (envelope_keeps_keys_iff (by simp) (by simp) rfl).mpr (Or.inr ⟨_, _, rfl, Or.inl rfl⟩)

/-- The first page of a list: its `data` is the array itself, which has no `items`. -/
theorem envelope_drops_items :
    intercept true (some 200) (.obj [("items", .arr [.obj [("id", .num 1)]])]) =
        .obj [("success", .bool true), ("statusCode", .num 200), ("data", .arr [.obj [("id", .num 1)]])] ∧
      ¬ KeepsKeys (some 200) [("items", .arr [.obj [("id", .num 1)]])] := by
  refine ⟨rfl, ?_⟩
  rintro ⟨data, hd, hread⟩
  cases hd
  have hitems := hread _ List.mem_cons_self
  have hnone : indexOf "items" = none := by decide +kernel
  simp [normalizeData, entries?, read, hnone] at hitems

end Kayan.Http
