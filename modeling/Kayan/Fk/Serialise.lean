import Kayan.Fk.Reading

/-!
# Expansion and serialisation

Expanding a payload and then serialising it, against serialising first and expanding the
result. The two agree on plain data. An object with a `toJSON` method is where they part:
expansion takes it for a plain object and rebuilds it from its own entries.
-/
namespace Kayan.Fk
open Payload
variable {rd : Reader} {dir : Directory} {look : Resolver}

/-- A foreign key is replaced alike before and after its value is serialised: an object
with a `toJSON` method refers to nothing, so its JSON must not be the id of a record. -/
def SameReference (look : Resolver) (rule : FkRule) : Payload → Prop
  | .custom _ j => ∀ entity id, rule.entity = some entity → toPositiveInt (ofJson j) = some id →
      look entity id = none
  | _ => True

mutual

/-- No object with a `toJSON` method stands where expansion descends, unless its own entries
read like its JSON. Entries whose key the output has already are skipped by expansion. -/
def Faithful (look : Resolver) : Payload → Prop
  | .arr xs => FaithfulItems look xs
  | .obj fs => FaithfulFields look fs [] fs
  | .custom fs j => ReadAlike look (.live (.obj fs)) (.live (ofJson j))
  | _ => True
termination_by structural x => x

def FaithfulItems (look : Resolver) : List Payload → Prop
  | [] => True
  | x :: xs => Faithful look x ∧ FaithfulItems look xs
termination_by structural x => x

def FaithfulFields (look : Resolver) (node : Fields) (seen : List String) :
    List (String × Payload) → Prop
  | [] => True
  | (key, value) :: rest =>
    match ruleFor node key with
    | some rule =>
      if rule.output key ∈ seen ∨ rule.output key = "__proto__" then FaithfulFields look node seen rest
      else SameReference look rule value ∧ FaithfulFields look node (rule.output key :: seen) rest
    | none =>
      if key ∈ seen then FaithfulFields look node seen rest
      else Faithful look value ∧ FaithfulFields look node (key :: seen) rest
termination_by structural x => x

end

/-- An object whose `toJSON` yields no object, such as a `Date`, is never faithful. -/
theorem not_faithful_custom {fs : Fields} {j : Json} (hj : ∀ gs, j ≠ .obj gs) :
    ¬ Faithful look (.custom fs j) := by
  intro h
  obtain ⟨gs, hgs⟩ | ⟨gs, k, hgs⟩ := ReadAlike.obj h
  · cases j <;> simp only [ofJson, reduceCtorEq] at hgs
    exact hj _ rfl
  · cases j <;> simp only [ofJson, reduceCtorEq] at hgs

theorem keys_ofJson : ∀ fs : Fields, (ofJsonFields (jsonFields fs)).map Prod.fst = fs.map Prod.fst
  | [] => rfl
  | (k, _) :: fs => congrArg (k :: ·) (keys_ofJson fs)

/-- Which keys are replaced depends on the keys of an object only. -/
theorem ruleFor_keys {node other : Fields} (h : node.map Prod.fst = other.map Prod.fst) (key : String) :
    ruleFor node key = ruleFor other key := by
  unfold ruleFor FkRule.shouldExpand
  rw [h]

theorem toPositiveInt_ofJson (value : Payload) :
    toPositiveInt (ofJson value.json) = toPositiveInt value ∨ ∃ fs j, value = .custom fs j := by
  cases value with
  | custom fs j => exact Or.inr ⟨fs, j, rfl⟩
  | _ => exact Or.inl rfl

/-- The records of a resolver are not `null`. -/
def Proper (look : Resolver) : Prop := ∀ entity id record, look entity id = some record → record.json ≠ .null

theorem lookup_proper : Proper (lookup rd dir) := by
  rintro entity id record h hnull
  obtain ⟨fs, rfl⟩ := lookup_obj h
  cases hnull

theorem sameReference_iff (hlook : Proper look) (rule : FkRule) (value : Payload) :
    (replacement look rule value).json = (replacement look rule (ofJson value.json)).json ↔
      SameReference look rule value := by
  cases value with
  | custom fs j =>
    have hnull : replacement look rule (.custom fs j) = .null := by
      unfold replacement
      cases rule.entity <;> rfl
    rw [hnull]
    simp only [SameReference, replacement, json]
    constructor
    · intro h entity id hentity hid
      simp only [hentity, hid, Option.bind_some] at h
      cases hrecord : look entity id with
      | none => rfl
      | some record =>
        rw [hrecord] at h
        exact absurd h.symm (hlook entity id record hrecord)
    · intro h
      cases hentity : rule.entity with
      | none => rfl
      | some entity =>
        cases hid : toPositiveInt (ofJson j) with
        | none => rfl
        | some id =>
          have hlookup := h entity id hentity hid
          simp only [Option.bind_some, hlookup]
          rfl
  | _ => simp [SameReference, replacement, json, ofJson, toPositiveInt]

mutual

/-- Serialising before or after a transformation gives the same JSON exactly on faithful
payloads. -/
theorem transformNode_json_iff (hlook : Proper look) : ∀ p : Payload,
    (transformNode look p).json = (transformNode look (ofJson p.json)).json ↔ Faithful look p
  | .null | .bool _ | .num _ | .str _ => by simp [transformNode, json, ofJson, Faithful]
  | .arr xs => by
    simp only [transformNode, json, ofJson, Faithful, Json.arr.injEq]
    exact transformItems_json_iff hlook xs
  | .obj fs => by
    simp only [transformNode, json, ofJson, Faithful, Json.obj.injEq]
    exact transformFields_json_iff hlook fs (keys_ofJson fs).symm [] fs
  | .custom fs j => by
    rw [Faithful, readAlike_iff]
    rfl

theorem transformItems_json_iff (hlook : Proper look) : ∀ xs : List Payload,
    jsonItems (transformItems look xs) = jsonItems (transformItems look (ofJsonItems (jsonItems xs))) ↔
      FaithfulItems look xs
  | [] => by simp [transformItems, jsonItems, ofJsonItems, FaithfulItems]
  | x :: xs => by
    simp only [transformItems, jsonItems, ofJsonItems, FaithfulItems, List.cons.injEq]
    exact and_congr (transformNode_json_iff hlook x) (transformItems_json_iff hlook xs)

theorem transformFields_json_iff (hlook : Proper look) (node : Fields) {other : Fields}
    (hkeys : node.map Prod.fst = other.map Prod.fst) : ∀ (seen : List String) (fs : List (String × Payload)),
    jsonFields (transformFields look node seen fs) =
        jsonFields (transformFields look other seen (ofJsonFields (jsonFields fs))) ↔
      FaithfulFields look node seen fs
  | _, [] => by simp [transformFields, jsonFields, ofJsonFields, FaithfulFields]
  | seen, (key, value) :: rest => by
    have ih := fun seen => transformFields_json_iff hlook node hkeys seen rest
    have hrule := ruleFor_keys hkeys key
    cases hnode : ruleFor node key with
    | some rule =>
      rw [hnode] at hrule
      simp only [transformFields, jsonFields, ofJsonFields, FaithfulFields, hnode, ← hrule]
      split
      · exact ih seen
      · simp only [jsonFields, List.cons.injEq, Prod.mk.injEq, true_and]
        exact and_congr (sameReference_iff hlook rule value) (ih _)
    | none =>
      rw [hnode] at hrule
      simp only [transformFields, jsonFields, ofJsonFields, FaithfulFields, hnode, ← hrule]
      split
      · exact ih seen
      · simp only [jsonFields, List.cons.injEq, Prod.mk.injEq, true_and]
        exact and_congr (transformNode_json_iff hlook value) (ih _)

end

/-- Expansion of a payload can be moved past its serialisation: the lookups fail in both
orders or in none, and where they succeed the payload is faithful. -/
def Commutes (rd : Reader) (dir : Directory) (p : Payload) : Prop :=
  (Lookable dir (collectIds p) ↔ Lookable dir (collectIds (ofJson p.json))) ∧
    (Lookable dir (collectIds p) → Faithful (lookup rd dir) p)

theorem expand_json_iff (rd : Reader) (dir : Directory) (p : Payload) :
    (expand rd dir p).map json = (expand rd dir (ofJson p.json)).map json ↔ Commutes rd dir p := by
  have hproper : Proper (lookup rd dir) := lookup_proper
  have hiff := transformNode_json_iff hproper p
  rw [expand_eq, expand_eq, Commutes, ← hiff]
  by_cases h : Lookable dir (collectIds p) <;>
    by_cases h' : Lookable dir (collectIds (ofJson p.json)) <;> simp [h, h']

end Kayan.Fk
