import Kayan.Fk.Fields
import Mathlib.Algebra.Order.Ring.Rat

/-!
# Every reference is resolved

The ids that are collected cover those that the transformation asks for: with ids that a double
holds exactly, each foreign key of each object that is transformed becomes the record of its row.
-/
namespace Kayan.Fk
open Payload
variable {rd : Reader} {dir : Directory} {maps look : Resolver} {p q value : Payload} {path : List Step}
  {fs pre post : Fields} {key : String} {rule : FkRule} {entity : EntityType} {id : Nat}

/-- A positive integer, or the decimal digits of one. -/
def Denotes : Payload → Nat → Prop
  | .num n, id => n = id ∧ 0 < id
  | .str s, id => s.toList ≠ [] ∧ s.toList.all Char.isDigit ∧ digitsValue s.toList = id ∧ 0 < id
  | _, _ => False

/-- The ids under the foreign keys of a payload are below a bound. -/
def IdsBelow (bound : Nat) (p : Payload) : Prop :=
  ∀ path fs key value id, p.at? path = some (.obj fs) → Fields.get key fs = some value →
    fkRules.lookup key ≠ none → Denotes value id → id < bound

/-- The objects that the transformation visits: it does not enter the value of a foreign key that is
expanded, nor one whose key has been written by an earlier entry. -/
inductive Visits : Payload → List Step → Fields → Prop
  | here (fs : Fields) : Visits (.obj fs) [] fs
  | item {xs : List Payload} {i : Nat} {x : Payload} {path : List Step} {fs : Fields} (hx : xs[i]? = some x)
      (hvisit : Visits x path fs) : Visits (.arr xs) (.item i :: path) fs
  | entry {pre post : Fields} {key : String} {value : Payload} {path : List Step} {fs : Fields}
      (hrule : ruleFor (pre ++ (key, value) :: post) key = none)
      (hfirst : ∀ x ∈ pre, outKey (pre ++ (key, value) :: post) x.1 ≠ key) (hvisit : Visits value path fs) :
      Visits (.obj (pre ++ (key, value) :: post)) (.key key :: path) fs

/-- What a foreign key should become: the record of the visible row with its id, or `null` where it
holds no id or there is no such row. -/
def Resolved (rd : Reader) (dir : Directory) (entity : EntityType) (value shown : Payload) : Prop :=
  (∃ id, Denotes value id ∧ IsRecord rd dir entity id shown) ∨
    (shown = .null ∧ ∀ id record, Denotes value id → ¬ IsRecord rd dir entity id record)

theorem toPositiveInt_of_denotes (h : Denotes value id) (hid : id < 2 ^ 53) : toPositiveInt value = some id := by
  cases value with
  | num n =>
    obtain ⟨rfl, hpos⟩ := h
    have hpos' : (0 : ℚ) < (id : ℚ) := by exact_mod_cast hpos
    rw [toPositiveInt, if_pos ⟨Rat.den_natCast id, hpos'⟩, Rat.num_natCast, Int.toNat_natCast]
  | str s =>
    obtain ⟨hne, hdigits, hvalue, hpos⟩ := h
    have hread : readDouble (digitsValue s.toList) = id := by rw [hvalue, readDouble, if_pos hid]
    simp only [toPositiveInt, hdigits, hread]
    rw [if_pos ⟨hne, trivial⟩, if_pos hpos]
  | _ => exact h.elim

/-- What is read as an id denotes one. -/
theorem denotes_of_toPositiveInt (h : toPositiveInt value = some id) : ∃ n, Denotes value n := by
  cases value with
  | num n =>
    simp only [toPositiveInt] at h
    split at h
    · rename_i hn
      have hpos : 0 < n.num := Rat.num_pos.mpr hn.2
      refine ⟨n.num.toNat, ?_, by omega⟩
      have hnum : ((n.num.toNat : ℤ) : ℚ) = n.num := by
        rw [Int.toNat_of_nonneg hpos.le]
      have hint : (n.num : ℚ) = n := by
        rw [← Rat.den_eq_one_iff]
        exact hn.1
      exact hint.symm.trans hnum.symm
    · cases h
  | str s =>
    simp only [toPositiveInt] at h
    split at h
    · rename_i hs
      split at h
      · rename_i hpos
        refine ⟨digitsValue s.toList, hs.1, hs.2, rfl, ?_⟩
        by_contra hzero
        have hval : digitsValue s.toList = 0 := by omega
        rw [hval] at hpos
        simp [readDouble] at hpos
      · cases h
    · cases h
  | _ => cases h

/-- Each collected id stands under a foreign key of some object. -/
theorem exists_of_mem_collectIds {x : EntityType × Nat} (hp : p.Tree) (hx : x ∈ collectIds p) :
    ∃ path fs key value, p.at? path = some (.obj fs) ∧ Fields.get key fs = some value ∧
      entryId fs key value = some x := by
  induction p, hp using tree_induction with
  | scalar p _ hscalar => cases p <;> first | exact absurd hx List.not_mem_nil | exact hscalar.elim
  | arr xs _ ih =>
    obtain ⟨y, hy, hx⟩ := mem_collectItems.mp hx
    obtain ⟨i, hi⟩ := List.getElem?_of_mem hy
    obtain ⟨path, fs, key, value, hpath, hentry⟩ := (ih y hy).2 hx
    exact ⟨.item i :: path, fs, key, value, by simp [Payload.at?, hi, hpath], hentry⟩
  | obj fs hfs ih =>
    obtain ⟨y, hy, hentry | hx⟩ := mem_collectFields_iff.mp hx
    · exact ⟨[], fs, y.1, y.2, rfl, Entries.lookup_of_mem hfs.1 hy, hentry⟩
    · obtain ⟨path, gs, key, value, hpath, hentry⟩ := (ih y hy).2 hx
      have hget : Fields.get y.1 fs = some y.2 := Entries.lookup_of_mem hfs.1 hy
      exact ⟨.key y.1 :: path, gs, key, value, by simp [Payload.at?, hget, hpath], hentry⟩

theorem entryId_eq_some {x : EntityType × Nat} (h : entryId fs key value = some x) :
    ∃ rule, ruleFor fs key = some rule ∧ rule.entity = some x.1 ∧ toPositiveInt value = some x.2 := by
  obtain ⟨entity, hentity, hid⟩ := Option.bind_eq_some_iff.mp h
  obtain ⟨rule, hrule, hentity⟩ := Option.bind_eq_some_iff.mp hentity
  obtain ⟨id, hread, rfl⟩ := Option.map_eq_some_iff.mp hid
  exact ⟨rule, hrule, hentity, hread⟩

/-- A rule with an entity is an entry of `FK_RULES`. -/
theorem own_of_entity (hrule : ruleFor fs key = some rule) (hentity : rule.entity = some entity) :
    fkRules.lookup key ≠ none := by
  intro hown
  by_cases hkey : key ∈ prototypeKeys
  · rw [ruleFor_prototype hown hkey] at hrule
    injection hrule with hrule
    subst hrule
    cases hentity
  · rw [ruleFor_none hown hkey] at hrule
    cases hrule

theorem rule_entity : ∀ x ∈ fkRules, x.2.entity ≠ none := by
  decide +kernel

/-- Small ids can be looked up. -/
theorem lookable_of_below (hp : p.Tree) (hids : IdsBelow (2 ^ 53) p) (hcat : dir.categories.isSome) :
    Lookable dir (collectIds p) := by
  intro x hx
  obtain ⟨path, fs, key, value, hpath, hkey, hentry⟩ := exists_of_mem_collectIds hp hx
  obtain ⟨rule, hrule, hentity, hid⟩ := entryId_eq_some hentry
  obtain ⟨n, hn⟩ := denotes_of_toPositiveInt hid
  have hlt := hids path fs key value n hpath hkey (own_of_entity hrule hentity) hn
  have hsame : x.2 = n := by
    rw [toPositiveInt_of_denotes hn hlt] at hid
    injection hid with hid
    exact hid.symm
  refine ⟨?_, fun _ => hcat⟩
  unfold bigintMax
  omega

/-- An entry that comes first with its output key is shown. -/
theorem get_first (hfirst : ∀ x ∈ pre, outKey (pre ++ (key, value) :: post) x.1 ≠
      outKey (pre ++ (key, value) :: post) key) (hproto : outKey (pre ++ (key, value) :: post) key ≠ "__proto__") :
    Fields.get (outKey (pre ++ (key, value) :: post) key)
      (transformFields maps (pre ++ (key, value) :: post) [] (pre ++ (key, value) :: post)) =
        some (outValue maps (pre ++ (key, value) :: post) key value) := by
  rw [get_transformFields List.not_mem_nil hproto, List.find?_append]
  have hpre : (pre.find? fun x => outKey (pre ++ (key, value) :: post) x.1 =
      outKey (pre ++ (key, value) :: post) key) = none :=
    List.find?_eq_none.mpr (by simpa using hfirst)
  rw [hpre, List.find?_cons_of_pos (by simp)]
  rfl

/-- The objects that are visited stand at the same places of the expansion. -/
theorem visited_at (hvisit : Visits p path fs) :
    (transformNode maps p).at? path = some (.obj (transformFields maps fs [] fs)) := by
  induction hvisit with
  | here fs => rfl
  | @item xs i x path fs hx _ ih =>
    have hitem : (transformItems maps xs)[i]? = some (transformNode maps x) := by
      rw [transformItems_eq_map, List.getElem?_map, hx]
      rfl
    simp only [transformNode, Payload.at?, hitem, Option.bind_some, ih]
  | @entry pre post key value path fs hrule hfirst _ ih =>
    have hout := outKey_of_none hrule
    have hproto : key ≠ "__proto__" := by
      rintro rfl
      rw [ruleFor_proto] at hrule
      cases hrule
    have hget := @get_first maps value pre post key (by rwa [hout]) (by rwa [hout])
    rw [hout, outValue_of_none hrule] at hget
    simp only [transformNode, Payload.at?, hget, Option.bind_some, ih]

theorem Visits.at? (hvisit : Visits p path fs) (hp : p.Tree) : p.at? path = some (.obj fs) := by
  induction hvisit with
  | here fs => rfl
  | item hx _ ih =>
    simp only [Payload.at?, hx, Option.bind_some]
    exact ih (treeItems_iff.mp hp _ (List.mem_of_getElem? hx))
  | @entry pre post key value path fs _ _ _ ih =>
    have hmem : (key, value) ∈ pre ++ (key, value) :: post := by simp
    have hget : Fields.get key (pre ++ (key, value) :: post) = some value := Entries.lookup_of_mem hp.1 hmem
    simp only [Payload.at?, hget, Option.bind_some]
    exact ih (treeFields_iff.mp hp.2 _ hmem)

/-- What a foreign key with a small id is replaced by. -/
theorem replacement_resolved (hentity : rule.entity = some entity) (hsmall : ∀ id, Denotes value id → id < 2 ^ 53) :
    Resolved rd dir entity value (replacement (lookup rd dir) rule value) := by
  unfold replacement
  rw [hentity, Option.bind_some]
  by_cases hdenotes : ∃ id, Denotes value id
  · obtain ⟨id, hid⟩ := hdenotes
    have hread : toPositiveInt value = some id := toPositiveInt_of_denotes hid (hsmall id hid)
    have hbound : id ≤ bigintMax := by
      have := hsmall id hid
      unfold bigintMax
      omega
    rw [hread, Option.bind_some, lookup_eq_newest hbound]
    cases hfound : newest rd dir entity id with
    | some record => exact Or.inl ⟨id, hid, newest_isRecord hfound⟩
    | none =>
      refine Or.inr ⟨rfl, fun n record hn => ?_⟩
      have hsame : n = id := by
        rw [toPositiveInt_of_denotes hn (hsmall n hn)] at hread
        injection hread
      rw [hsame]
      exact newest_none hfound
  · have hread : toPositiveInt value = none := by
      cases hid : toPositiveInt value with
      | none => rfl
      | some id => exact absurd (denotes_of_toPositiveInt hid) hdenotes
    rw [hread]
    exact Or.inr ⟨rfl, fun id _ hid => absurd ⟨id, hid⟩ hdenotes⟩

def monaListed : Directory where
  users := [{ id := 7, name := "Mona", phone := none, status := "active", avatar := none, contactInfo := none,
              rate := "0.00" }]
  products := []
  messages := []
  conversations := []
  files := []
  categories := some []

/-- A reference deep in a payload, with leading zeros. -/
def nestedReference : Payload := .obj [("fault", .obj [("user_id", .str "007")])]

end Kayan.Fk
