import Mathlib.Data.Rat.Defs
import Mathlib.Data.List.Sort

/-!
# Values that services return

A payload is what a service method hands to the interceptors: JSON scalars, arrays,
plain objects, and objects with a `toJSON` method such as the `Date` values of the
database driver. `Json` is what `JSON.stringify` makes of it.
-/
namespace Kayan

inductive Json where
  | null
  | bool (b : Bool)
  | num (n : ℚ)
  | str (s : String)
  | arr (xs : List Json)
  | obj (fs : List (String × Json))

/-- `custom fs j` is an object with own enumerable entries `fs` whose `toJSON` yields `j`.
A `Date` has no own entries and yields its ISO string. -/
inductive Payload where
  | null
  | bool (b : Bool)
  | num (n : ℚ)
  | str (s : String)
  | arr (xs : List Payload)
  | obj (fs : List (String × Payload))
  | custom (fs : List (String × Payload)) (json : Json)

/-- An object of the driver or of a service: its own entries, in enumeration order. -/
abbrev Fields := List (String × Payload)

/-- A `Date` with the given ISO string. -/
def Payload.date (iso : String) : Payload := .custom [] (.str iso)

/-- How values outside JSON arrive: the text that the driver returns for a `BIGINT`, the text
of `timestamptz::text`, and the ISO string of a `Date`. -/
structure Driver where
  bigintText : Nat → String
  timestampText : Nat → String
  iso : Nat → String

/-- A `BIGINT` value. -/
def Driver.bigint (drv : Driver) (n : Nat) : Payload := .str (drv.bigintText n)

/-- A `timestamptz` value that the query does not cast to text. -/
def Driver.timestamp (drv : Driver) (t : Nat) : Payload := .date (drv.iso t)

/-- Absent text is `null`. -/
def Payload.ofText : Option String → Payload
  | some s => .str s
  | none => .null

namespace Payload

mutual

/-- `JSON.stringify`, as a tree. -/
def json : Payload → Json
  | null => .null
  | bool b => .bool b
  | num n => .num n
  | str s => .str s
  | arr xs => .arr (jsonItems xs)
  | obj fs => .obj (jsonFields fs)
  | custom _ j => j
termination_by structural x => x

def jsonItems : List Payload → List Json
  | [] => []
  | x :: xs => x.json :: jsonItems xs
termination_by structural x => x

def jsonFields : List (String × Payload) → List (String × Json)
  | [] => []
  | (k, v) :: fs => (k, v.json) :: jsonFields fs
termination_by structural x => x

end

mutual

/-- A JSON tree read back as a payload. -/
def ofJson : Json → Payload
  | .null => .null
  | .bool b => .bool b
  | .num n => .num n
  | .str s => .str s
  | .arr xs => .arr (ofJsonItems xs)
  | .obj fs => .obj (ofJsonFields fs)
termination_by structural x => x

def ofJsonItems : List Json → List Payload
  | [] => []
  | x :: xs => ofJson x :: ofJsonItems xs
termination_by structural x => x

def ofJsonFields : List (String × Json) → List (String × Payload)
  | [] => []
  | (k, v) :: fs => (k, ofJson v) :: ofJsonFields fs
termination_by structural x => x

end

mutual

/-- Reading a JSON tree back and writing it out again changes nothing. -/
@[simp] theorem json_ofJson : ∀ j : Json, (ofJson j).json = j
  | .null | .bool _ | .num _ | .str _ => rfl
  | .arr xs => congrArg Json.arr (jsonItems_ofJsonItems xs)
  | .obj fs => congrArg Json.obj (jsonFields_ofJsonFields fs)

@[simp] theorem jsonItems_ofJsonItems : ∀ xs : List Json, jsonItems (ofJsonItems xs) = xs
  | [] => rfl
  | x :: xs => by rw [ofJsonItems, jsonItems, json_ofJson x, jsonItems_ofJsonItems xs]

@[simp] theorem jsonFields_ofJsonFields :
    ∀ fs : List (String × Json), jsonFields (ofJsonFields fs) = fs
  | [] => rfl
  | (k, v) :: fs => by rw [ofJsonFields, jsonFields, json_ofJson v, jsonFields_ofJsonFields fs]

end

end Payload

namespace Fields

/-- The value of a key: the first entry with it. -/
def get (k : String) (fs : Fields) : Option Payload := fs.lookup k

/-- `o[k] = v`: in place when the key is there, at the end otherwise. -/
def put (k : String) (v : Payload) : Fields → Fields
  | [] => [(k, v)]
  | (k', v') :: fs => if k' = k then (k, v) :: fs else (k', v') :: put k v fs

/-- `delete o[k]`. -/
def drop (k : String) (fs : Fields) : Fields := fs.filter fun x => x.1 ≠ k

theorem get_put (k : String) (v : Payload) (fs : Fields) : get k (put k v fs) = some v := by
  induction fs with
  | nil => simp [put, get]
  | cons x fs ih =>
    obtain ⟨k', v'⟩ := x
    rw [put]
    split
    · simp [get]
    · rename_i hne
      rw [get, List.lookup_cons, beq_false_of_ne (Ne.symm hne)]
      exact ih

theorem get_put_of_ne {k k' : String} {v : Payload} {fs : Fields} (h : k ≠ k') : get k (put k' v fs) = get k fs := by
  induction fs with
  | nil => simp [put, get, h]
  | cons x fs ih =>
    obtain ⟨l, w⟩ := x
    rw [put]
    split
    · rename_i hl
      subst hl
      simp [get, List.lookup_cons, beq_false_of_ne h]
    · simp only [get, List.lookup_cons] at ih ⊢
      rw [ih]

theorem get_drop_of_ne {k k' : String} {fs : Fields} (h : k ≠ k') : get k (drop k' fs) = get k fs := by
  induction fs with
  | nil => rfl
  | cons x fs ih =>
    obtain ⟨l, w⟩ := x
    by_cases hl : l = k'
    · subst hl
      have hdrop : drop l ((l, w) :: fs) = drop l fs := List.filter_cons_of_neg (by simp)
      rw [hdrop, ih]
      simp [get, List.lookup_cons, beq_false_of_ne h]
    · have hdrop : drop k' ((l, w) :: fs) = (l, w) :: drop k' fs := List.filter_cons_of_pos (by simp [hl])
      rw [hdrop]
      simp only [get, List.lookup_cons] at ih ⊢
      rw [ih]

theorem mem_put {k : String} {v : Payload} {fs : Fields} {x : String × Payload} (h : x ∈ put k v fs) :
    x = (k, v) ∨ x ∈ fs := by
  induction fs with
  | nil => exact Or.inl (List.mem_singleton.mp h)
  | cons y fs ih =>
    obtain ⟨k', v'⟩ := y
    rw [put] at h
    split at h
    · exact (List.mem_cons.mp h).imp id (List.mem_cons_of_mem _)
    · rcases List.mem_cons.mp h with rfl | h
      · exact Or.inr List.mem_cons_self
      · exact (ih h).imp id (List.mem_cons_of_mem _)

end Fields

/-- The value of a key of an object. -/
def Payload.field (key : String) : Payload → Option Payload
  | .obj fs => Fields.get key fs
  | _ => none

/-- The rows of a response: its `items`, or what it holds under its keys. -/
def Payload.rows : Payload → List Payload
  | .obj fs =>
    match Fields.get "items" fs with
    | some (.arr rows) => rows
    | _ => fs.map Prod.snd
  | _ => []

end Kayan
