import Kayan.Fk.Lookup
import Kayan.Trees

/-!
# The entries of an expanded object

Which key of an object writes which key of the expanded object, and what is found under it: the
first entry that writes a key counts.
-/
namespace Kayan.Fk
open Payload
variable {maps : Resolver} {node fs : Fields} {seen : List String} {key other o : String} {value : Payload}
  {rule : FkRule} {p q : Payload} {path : List Step}

/-- The key of the expanded object that an entry of `node` writes. -/
def outKey (node : Fields) (key : String) : String :=
  ((ruleFor node key).map fun rule => rule.output key).getD key

/-- What it writes there. -/
def outValue (maps : Resolver) (node : Fields) (key : String) (value : Payload) : Payload :=
  match ruleFor node key with
  | some rule => replacement maps rule value
  | none => transformNode maps value

theorem outKey_of_rule (h : ruleFor node key = some rule) : outKey node key = rule.output key := by
  simp [outKey, h]

theorem outKey_of_none (h : ruleFor node key = none) : outKey node key = key := by
  simp [outKey, h]

theorem outValue_of_rule (h : ruleFor node key = some rule) :
    outValue maps node key value = replacement maps rule value := by
  simp only [outValue, h]

theorem outValue_of_none (h : ruleFor node key = none) :
    outValue maps node key value = transformNode maps value := by
  simp only [outValue, h]

/-- What is inherited from `Object.prototype` acts as a rule without entity. -/
theorem ruleFor_prototype (hown : fkRules.lookup key = none) (hkey : key ∈ prototypeKeys) :
    ruleFor node key = some { entity := none } := by
  simp [ruleFor, fkRule, hown, hkey, FkRule.shouldExpand]

theorem ruleFor_none (hown : fkRules.lookup key = none) (hkey : key ∉ prototypeKeys) : ruleFor node key = none := by
  simp [ruleFor, fkRule, hown, hkey]

theorem ruleFor_own (hown : fkRules.lookup key = some rule) :
    ruleFor node key = if rule.shouldExpand node then some rule else none := by
  simp [ruleFor, fkRule, hown, Option.filter]

theorem prototypeKeys_not_own : ∀ key ∈ prototypeKeys, fkRules.lookup key = none := by
  decide +kernel

theorem ruleFor_proto : ruleFor node "__proto__" = some { entity := none } :=
  ruleFor_prototype (prototypeKeys_not_own _ (by decide)) (by decide)

/-- Each entry is written under its output key, unless that is there already. -/
theorem transformFields_cons (rest : List (String × Payload)) :
    transformFields maps node seen ((key, value) :: rest) =
      if outKey node key ∈ seen ∨ outKey node key = "__proto__" then transformFields maps node seen rest
      else (outKey node key, outValue maps node key value) ::
        transformFields maps node (outKey node key :: seen) rest := by
  cases h : ruleFor node key with
  | some rule => simp only [transformFields, h, outKey_of_rule h, outValue_of_rule h]
  | none =>
    have hproto : key ≠ "__proto__" := by
      rintro rfl
      rw [ruleFor_proto] at h
      cases h
    simp only [transformFields, h, outKey_of_none h, outValue_of_none h, hproto, or_false]

/-- Under each key stands what the first entry writes there. -/
theorem get_transformFields (hseen : o ∉ seen) (ho : o ≠ "__proto__") :
    Fields.get o (transformFields maps node seen fs) =
      (fs.find? fun x => outKey node x.1 = o).map fun x => outValue maps node x.1 x.2 := by
  induction fs generalizing seen with
  | nil => rfl
  | cons x rest ih =>
    obtain ⟨key, value⟩ := x
    rw [transformFields_cons]
    by_cases hkey : outKey node key = o
    · have hnew : ¬ (outKey node key ∈ seen ∨ outKey node key = "__proto__") := by
        rw [hkey]
        exact not_or.mpr ⟨hseen, ho⟩
      rw [if_neg hnew, List.find?_cons_of_pos (by simpa using hkey)]
      simp [Fields.get, hkey]
    · rw [List.find?_cons_of_neg (by simpa using hkey)]
      split
      · exact ih hseen
      · rw [← @ih (outKey node key :: seen) (by simpa using ⟨Ne.symm hkey, hseen⟩)]
        have hne : (o == outKey node key) = false := beq_false_of_ne (Ne.symm hkey)
        simp only [Fields.get, List.lookup_cons, hne]

theorem keys_transformFields :
    ((transformFields maps node seen fs).map Prod.fst).Nodup ∧
      ∀ o ∈ (transformFields maps node seen fs).map Prod.fst, o ∉ seen ∧ o ≠ "__proto__" := by
  induction fs generalizing seen with
  | nil => simp [transformFields]
  | cons x rest ih =>
    obtain ⟨key, value⟩ := x
    rw [transformFields_cons]
    split
    · exact ih
    · rename_i hnew
      obtain ⟨hnodup, hfresh⟩ := @ih (outKey node key :: seen)
      constructor
      · exact List.nodup_cons.mpr ⟨fun hmem => (hfresh _ hmem).1 (List.mem_cons_self ..), hnodup⟩
      · intro o ho
        rcases List.mem_cons.mp ho with rfl | ho
        · exact not_or.mp hnew
        · exact ⟨fun hmem => (hfresh o ho).1 (List.mem_cons_of_mem _ hmem), (hfresh o ho).2⟩

theorem get_proto : Fields.get "__proto__" (transformFields maps node seen fs) = none := by
  cases h : Fields.get "__proto__" (transformFields maps node seen fs) with
  | none => rfl
  | some value => exact absurd rfl (keys_transformFields.2 _ (Entries.mem_keys_of_lookup h)).2

/-- A key that no entry writes is not there. -/
theorem get_unwritten (h : ∀ x ∈ fs, outKey node x.1 ≠ o) : Fields.get o (transformFields maps node [] fs) = none := by
  by_cases hproto : o = "__proto__"
  · subst hproto
    exact get_proto
  · rw [get_transformFields List.not_mem_nil hproto, List.find?_eq_none.mpr (by simpa using h)]
    rfl

/-- Two entries of `FK_RULES` have different output keys. -/
theorem output_injective : ∀ x ∈ fkRules, ∀ y ∈ fkRules, x.2.output x.1 = y.2.output y.1 → x.1 = y.1 := by
  decide +kernel

/-- No output key is inherited from `Object.prototype`, and one that is a foreign key is that of itself. -/
theorem output_plain : ∀ x ∈ fkRules, x.2.output x.1 ∉ prototypeKeys ∧
    ((fkRules.lookup (x.2.output x.1)).isSome → x.2.output x.1 = x.1) := by
  decide +kernel

/-- The id that is collected at an entry. -/
def entryId (node : Fields) (key : String) (value : Payload) : Option (EntityType × Nat) :=
  ((ruleFor node key).bind (·.entity)).bind fun entity => (toPositiveInt value).map (entity, ·)

theorem mem_collectFields_iff {x : EntityType × Nat} : x ∈ collectFields node fs ↔
    ∃ y ∈ fs, entryId node y.1 y.2 = some x ∨ x ∈ collectIds y.2 := by
  induction fs with
  | nil => simp [collectFields]
  | cons y rest ih =>
    obtain ⟨key, value⟩ := y
    rw [collectFields, List.mem_append, List.mem_append, ih, List.exists_mem_cons_iff, Option.mem_toList]
    rfl

/-- The ids below a place are collected. -/
theorem collectIds_at (h : p.at? path = some q) : ∀ x ∈ collectIds q, x ∈ collectIds p := by
  induction path generalizing p with
  | nil =>
    injection h with h
    rw [h]
    exact fun x hx => hx
  | cons step path ih =>
    obtain ⟨xs, i, y, rfl, rfl, hy, hpath⟩ | ⟨gs, k, y, rfl, rfl, hy, hpath⟩ := at?_cons h
    · exact fun x hx => mem_collectItems.mpr ⟨y, List.mem_of_getElem? hy, ih hpath x hx⟩
    · exact fun x hx => mem_collectFields_iff.mpr ⟨(k, y), Entries.mem_of_lookup hy, Or.inr (ih hpath x hx)⟩

theorem deriveOutputKey_prototype : ∀ key ∈ prototypeKeys, deriveOutputKey key = key := by
  decide +kernel

/-- Only a foreign key that is expanded writes another key than its own. -/
theorem outKey_cases (node : Fields) (key : String) :
    outKey node key = key ∨ ∃ rule, fkRules.lookup key = some rule ∧ ruleFor node key = some rule := by
  cases hown : fkRules.lookup key with
  | some rule =>
    by_cases hexpand : rule.shouldExpand node = true
    · exact Or.inr ⟨rule, rfl, by rw [ruleFor_own hown, if_pos hexpand]⟩
    · exact Or.inl (outKey_of_none (by rw [ruleFor_own hown, if_neg hexpand]))
  | none =>
    left
    by_cases hkey : key ∈ prototypeKeys
    · rw [outKey_of_rule (ruleFor_prototype hown hkey)]
      exact deriveOutputKey_prototype key hkey
    · exact outKey_of_none (ruleFor_none hown hkey)

theorem outKey_of_own_none (hown : fkRules.lookup key = none) : outKey node key = key := by
  obtain hsame | ⟨rule, hrule, -⟩ := outKey_cases node key
  · exact hsame
  · rw [hown] at hrule
    cases hrule

theorem outKey_eq_proto (h : outKey node key = "__proto__") : key = "__proto__" := by
  obtain hsame | ⟨rule, hown, hrule⟩ := outKey_cases node key
  · exact hsame.symm.trans h
  · have hplain := (output_plain (key, rule) (Entries.mem_of_lookup hown)).1
    rw [outKey_of_rule hrule] at h
    exact absurd (by rw [h]; decide) hplain

/-- Two keys that write the same key: a foreign key and the name of its record. -/
theorem outKey_clash (h : outKey node key = outKey node other) (hne : key ≠ other) :
    (∃ rule, fkRules.lookup key = some rule ∧ ruleFor node key = some rule ∧ rule.output key = other ∧
      fkRules.lookup other = none ∧ ruleFor node other = none) ∨
    (∃ rule, fkRules.lookup other = some rule ∧ ruleFor node other = some rule ∧ rule.output other = key ∧
      fkRules.lookup key = none ∧ ruleFor node key = none) := by
  have hclash : ∀ {a b : String} {rule : FkRule}, a ≠ b → outKey node a = outKey node b →
      fkRules.lookup a = some rule → ruleFor node a = some rule → outKey node b = b →
      rule.output a = b ∧ fkRules.lookup b = none ∧ ruleFor node b = none := by
    intro a b rule hab heq hown hrule hb
    have hout : rule.output a = b := by rw [← outKey_of_rule hrule, heq, hb]
    obtain ⟨hplain, hself⟩ := output_plain (a, rule) (Entries.mem_of_lookup hown)
    simp only [hout] at hplain hself
    have hnone : fkRules.lookup b = none := by
      cases hb' : fkRules.lookup b with
      | none => rfl
      | some rule' => exact absurd (hself (by simp [hb'])).symm hab
    exact ⟨hout, hnone, ruleFor_none hnone hplain⟩
  obtain hkey | ⟨rule, hown, hrule⟩ := outKey_cases node key
  · obtain hother | ⟨rule, hown, hrule⟩ := outKey_cases node other
    · exact absurd (hkey.symm.trans (h.trans hother)) hne
    · exact Or.inr ⟨rule, hown, hrule, hclash (Ne.symm hne) h.symm hown hrule hkey⟩
  · obtain hother | ⟨rule', hown', hrule'⟩ := outKey_cases node other
    · exact Or.inl ⟨rule, hown, hrule, hclash hne h hown hrule hother⟩
    · rw [outKey_of_rule hrule, outKey_of_rule hrule'] at h
      exact absurd (output_injective (key, rule) (Entries.mem_of_lookup hown) (other, rule')
        (Entries.mem_of_lookup hown') h) hne

/-- A foreign key that shows its record under another name is itself not shown. -/
theorem unwritten_of_output_ne (hown : fkRules.lookup key = some rule) (hrule : ruleFor node key = some rule)
    (hne : rule.output key ≠ key) : outKey node other ≠ key := by
  intro hout
  by_cases hother : other = key
  · rw [hother, outKey_of_rule hrule] at hout
    exact hne hout
  · obtain hsame | ⟨rule', hown', hrule'⟩ := outKey_cases node other
    · exact hother (hsame.symm.trans hout)
    · rw [outKey_of_rule hrule'] at hout
      have hplain := (output_plain (other, rule') (Entries.mem_of_lookup hown')).2
      simp only [hout, hown, Option.isSome_some, forall_const] at hplain
      exact hother hplain.symm

/-- The keys of an object decide which of its keys are expanded. -/
theorem ruleFor_congr {node' : Fields} (h : ∀ k, k ∈ node.map Prod.fst ↔ k ∈ node'.map Prod.fst) (key : String) :
    ruleFor node key = ruleFor node' key := by
  have hexpand : ∀ rule : FkRule, rule.shouldExpand node = rule.shouldExpand node' := by
    intro rule
    simp only [FkRule.shouldExpand, h]
  simp only [ruleFor, hexpand]

theorem entryId_congr {node' : Fields} (h : ∀ k, k ∈ node.map Prod.fst ↔ k ∈ node'.map Prod.fst) (key : String)
    (value : Payload) : entryId node key value = entryId node' key value := by
  rw [entryId, entryId, ruleFor_congr h]

theorem outKey_congr {node' : Fields} (h : ∀ k, k ∈ node.map Prod.fst ↔ k ∈ node'.map Prod.fst) (key : String) :
    outKey node key = outKey node' key := by
  rw [outKey, outKey, ruleFor_congr h]

end Kayan.Fk
