import Kayan.Trees

/-!
# JSONB columns

What a `JSONB` column keeps of the JSON text that the driver sends, and what the driver reads back.
-/
namespace Kayan.Payload
variable {p : Payload} {fs : Fields}

/-- No text holds U+0000, which neither `TEXT` nor `JSONB` can store. -/
def textStorable (s : String) : Bool := Char.ofNat 0 ∉ s.toList

mutual

/-- Every string and every key of a payload can be stored. -/
def storable : Payload → Bool
  | .str s => textStorable s
  | .arr xs => storableItems xs
  | .obj fs => storableFields fs
  | .custom fs _ => storableFields fs
  | _ => true
termination_by structural x => x

def storableItems : List Payload → Bool
  | [] => true
  | x :: xs => storable x && storableItems xs
termination_by structural x => x

def storableFields : List (String × Payload) → Bool
  | [] => true
  | (key, value) :: rest => textStorable key && storable value && storableFields rest
termination_by structural x => x

end

/-- The order of keys in a `JSONB` object: by length in bytes, then by bytes. -/
def jsonbKeyLe (a b : String) : Prop := a.utf8ByteSize < b.utf8ByteSize ∨ (a.utf8ByteSize = b.utf8ByteSize ∧ a ≤ b)

instance : DecidableRel jsonbKeyLe := fun _ _ => inferInstanceAs (Decidable (_ ∨ _))

mutual

/-- The tree with the keys of its objects in the order of `JSONB`. -/
def jsonbTree : Payload → Payload
  | .arr xs => .arr (jsonbItems xs)
  | .obj fs => .obj ((jsonbFields fs).insertionSort fun a b => jsonbKeyLe a.1 b.1)
  | x => x
termination_by structural x => x

def jsonbItems : List Payload → List Payload
  | [] => []
  | x :: xs => jsonbTree x :: jsonbItems xs
termination_by structural x => x

def jsonbFields : List (String × Payload) → List (String × Payload)
  | [] => []
  | (key, value) :: rest => (key, jsonbTree value) :: jsonbFields rest
termination_by structural x => x

end

/-- What is read back of a tree that is stored as `JSONB`, or `none` when the statement fails. -/
def jsonb (p : Payload) : Option Payload := if p.storable then some (jsonbTree p) else none

theorem jsonbItems_eq_map (xs : List Payload) : jsonbItems xs = xs.map jsonbTree := by
  induction xs with
  | nil => rfl
  | cons x xs ih => rw [jsonbItems, ih, List.map_cons]

theorem jsonbFields_eq_map (fs : Fields) : jsonbFields fs = fs.map fun x => (x.1, x.2.jsonbTree) := by
  induction fs with
  | nil => rfl
  | cons x fs ih => rw [jsonbFields, ih, List.map_cons]

/-- Storing changes a tree in the order of its keys only. -/
theorem jsonbTree_normal (hp : p.Tree) : p.jsonbTree.Tree ∧ p.jsonbTree.normal = p.normal := by
  induction p, hp using tree_induction with
  | scalar p hp hscalar =>
    have hsame : p.jsonbTree = p := by cases p <;> first | rfl | exact hscalar.elim
    rw [hsame]
    exact ⟨hp, rfl⟩
  | arr xs _ ih =>
    constructor
    · refine treeItems_iff.mpr ?_
      rw [jsonbItems_eq_map]
      exact List.forall_mem_map.mpr fun x hx => (ih x hx).2.1
    · rw [jsonbTree, normal_arr_iff, jsonbItems_eq_map, List.map_map]
      exact List.map_congr_left fun x hx => (ih x hx).2.2
  | obj fs hfs ih =>
    have hperm := List.perm_insertionSort (fun a b : String × Payload => jsonbKeyLe a.1 b.1) (jsonbFields fs)
    have hkeys : (jsonbFields fs).map Prod.fst = fs.map Prod.fst := by
      rw [jsonbFields_eq_map, List.map_map]
      rfl
    have hnodup : ((jsonbFields fs).map Prod.fst).Nodup := by
      rw [hkeys]
      exact hfs.1
    have hsorted := (hperm.map Prod.fst).nodup_iff.mpr hnodup
    constructor
    · refine ⟨hsorted, treeFields_iff.mpr fun x hx => ?_⟩
      have hmem := hperm.mem_iff.mp hx
      rw [jsonbFields_eq_map] at hmem
      obtain ⟨y, hy, rfl⟩ := List.mem_map.mp hmem
      exact (ih y hy).2.1
    · apply normal_obj_eq hsorted hfs.1
      intro k
      have hget : Fields.get k ((jsonbFields fs).insertionSort fun a b => jsonbKeyLe a.1 b.1) =
          (Fields.get k fs).map jsonbTree := by
        refine (Entries.lookup_perm hsorted hperm).trans ?_
        rw [jsonbFields_eq_map]
        exact Entries.lookup_map jsonbTree fs k
      rw [hget, Option.map_map]
      cases hk : Fields.get k fs with
      | none => rfl
      | some v => exact congrArg some (ih _ (Entries.mem_of_lookup hk)).2.2

end Kayan.Payload
