import Kayan.Fk.Fields

/-!
# Trees that expansion leaves alone

A tree comes out of expansion as it went in, up to the order of keys, exactly when no object of it
has a foreign key that is expanded.
-/
namespace Kayan.Fk
open Payload
variable {dir : Directory} {look : Resolver} {node fs gs : Fields} {key : String} {p q v w value : Payload}

mutual

/-- No object has a foreign key that is expanded, nor a name of `Object.prototype`, except with
`null` where `null` is written under the same key again. -/
def Opaque : Payload → Prop
  | .arr xs => OpaqueItems xs
  | .obj fs => OpaqueFields fs fs
  | .custom fs _ => OpaqueFields fs fs
  | _ => True
termination_by structural x => x

def OpaqueItems : List Payload → Prop
  | [] => True
  | x :: xs => Opaque x ∧ OpaqueItems xs
termination_by structural x => x

def OpaqueFields (node : Fields) : List (String × Payload) → Prop
  | [] => True
  | (key, value) :: rest =>
    (if (ruleFor node key).isSome then outKey node key = key ∧ key ≠ "__proto__" ∧ value = .null
      else Opaque value) ∧ OpaqueFields node rest
termination_by structural x => x

end

/-- What is asked of an entry. -/
def OpaqueEntry (node : Fields) (key : String) (value : Payload) : Prop :=
  if (ruleFor node key).isSome then outKey node key = key ∧ key ≠ "__proto__" ∧ value = .null else Opaque value

theorem opaqueItems_iff {xs : List Payload} : OpaqueItems xs ↔ ∀ x ∈ xs, Opaque x := by
  induction xs with
  | nil => simp [OpaqueItems]
  | cons x xs ih => rw [OpaqueItems, ih, List.forall_mem_cons]

theorem opaqueFields_iff : OpaqueFields node fs ↔ ∀ x ∈ fs, OpaqueEntry node x.1 x.2 := by
  induction fs with
  | nil => simp [OpaqueFields]
  | cons x fs ih =>
    rw [OpaqueFields, ih, List.forall_mem_cons]
    rfl

theorem OpaqueEntry.of_rule (h : OpaqueEntry node key value) (hrule : (ruleFor node key).isSome) :
    outKey node key = key ∧ key ≠ "__proto__" ∧ value = .null := by
  rwa [OpaqueEntry, if_pos hrule] at h

theorem OpaqueEntry.of_none (h : OpaqueEntry node key value) (hrule : ruleFor node key = none) : Opaque value := by
  rwa [OpaqueEntry, if_neg (by simp [hrule])] at h

theorem OpaqueEntry.outKey_eq (h : OpaqueEntry node key value) : outKey node key = key ∧ key ≠ "__proto__" := by
  cases hrule : ruleFor node key with
  | some rule =>
    obtain ⟨hout, hproto, -⟩ := h.of_rule (by simp [hrule])
    exact ⟨hout, hproto⟩
  | none =>
    refine ⟨outKey_of_none hrule, ?_⟩
    rintro rfl
    rw [ruleFor_proto] at hrule
    cases hrule

/-- An opaque tree refers to nothing. -/
theorem Opaque.collectIds_nil (hp : p.Tree) (h : Opaque p) : collectIds p = [] := by
  induction p, hp using tree_induction with
  | scalar p _ hscalar => cases p <;> first | rfl | exact hscalar.elim
  | arr xs _ ih =>
    rw [List.eq_nil_iff_forall_not_mem]
    intro x hx
    obtain ⟨y, hy, hx⟩ := mem_collectItems.mp hx
    rw [(ih y hy).2 (opaqueItems_iff.mp h y hy)] at hx
    exact absurd hx List.not_mem_nil
  | obj fs _ ih =>
    rw [List.eq_nil_iff_forall_not_mem]
    intro x hx
    obtain ⟨y, hy, hx⟩ := mem_collectFields_iff.mp hx
    have hentry := opaqueFields_iff.mp h y hy
    cases hrule : ruleFor fs y.1 with
    | some rule =>
      obtain ⟨-, -, hnull⟩ := hentry.of_rule (by simp [hrule])
      rw [hnull] at hx
      simp [entryId, toPositiveInt, collectIds] at hx
    | none =>
      rw [(ih y hy).2 (hentry.of_none hrule)] at hx
      simp [entryId, hrule] at hx

theorem null_of_replacement {rule : FkRule} (hlook : ∀ entity id record, look entity id = some record →
    ∃ fs, record = .obj fs) (h : (replacement look rule v).normal = v.normal) : v = .null := by
  cases hid : toPositiveInt v with
  | none =>
    have hnull : replacement look rule v = .null := by simp [replacement, hid]
    rw [hnull] at h
    exact null_of_normal_eq h.symm
  | some id =>
    -- a value that is read as an id is a scalar, and a record is an object
    have hscalar : v.Scalar := by
      cases v <;> trivial
    have hsame := (hscalar.eq_of_normal h).symm
    cases hrecord : rule.entity.bind fun entity => look entity id with
    | none =>
      have hnull : replacement look rule v = .null := by
        unfold replacement
        cases hentity : rule.entity with
        | none => rfl
        | some entity =>
          rw [hentity, Option.bind_some] at hrecord
          rw [Option.bind_some, hid, Option.bind_some, hrecord]
          rfl
      rw [hsame, hnull]
    | some record =>
      obtain ⟨entity, hentity, hrecord⟩ := Option.bind_eq_some_iff.mp hrecord
      obtain ⟨fs, rfl⟩ := hlook entity id record hrecord
      have hobj : replacement look rule v = .obj fs := by simp [replacement, hentity, hid, hrecord]
      rw [hsame, hobj] at hscalar
      exact hscalar.elim

/-- Where every entry writes its own key, it is shown there. -/
theorem get_same (hnodup : (fs.map Prod.fst).Nodup) (hkeys : ∀ x ∈ fs, outKey fs x.1 = x.1) (hmem : (key, value) ∈ fs)
    (hproto : key ≠ "__proto__") : Fields.get key (transformFields look fs [] fs) = some (outValue look fs key value) := by
  rw [get_transformFields List.not_mem_nil hproto]
  cases hfind : fs.find? fun x => outKey fs x.1 = key with
  | none => exact absurd (List.find?_eq_none.mp hfind _ hmem) (by simpa using hkeys _ hmem)
  | some x =>
    obtain ⟨k, w⟩ := x
    have hx : (k, w) ∈ fs := List.mem_of_find?_eq_some hfind
    have hk : k = key := by
      have hout := List.find?_some hfind
      rw [decide_eq_true_eq, hkeys _ hx] at hout
      exact hout
    subst hk
    have hsame : some w = some value := by
      rw [← Entries.lookup_of_mem hnodup hx, Entries.lookup_of_mem hnodup hmem]
    injection hsame with hsame
    rw [hsame]
    rfl

/-- A tree comes out of the transformation as it went in exactly when it is opaque. -/
theorem transform_same_iff (hlook : ∀ entity id record, look entity id = some record → ∃ fs, record = .obj fs)
    (hp : p.Tree) : (transformNode look p).normal = p.normal ↔ Opaque p := by
  induction p, hp using tree_induction with
  | scalar p _ hscalar => cases p <;> first | exact iff_of_true rfl trivial | exact hscalar.elim
  | arr xs _ ih =>
    rw [transformNode, normal_arr_iff, transformItems_eq_map, List.map_map, Opaque, opaqueItems_iff,
      List.map_inj_left]
    exact forall₂_congr fun x hx => (ih x hx).2
  | obj fs hfs ih =>
    rw [Opaque, opaqueFields_iff]
    constructor
    · intro h x hx
      have hshown := fun k => get_of_normal_eq h k
      have hkeys : ∀ x ∈ fs, outKey fs x.1 = x.1 := by
        intro x hx
        obtain hsame | ⟨rule, hown, hrule⟩ := outKey_cases fs x.1
        · exact hsame
        · rw [outKey_of_rule hrule]
          by_contra hne
          have hnone := hshown x.1
          rw [get_unwritten fun y _ => unwritten_of_output_ne hown hrule hne,
            show Fields.get x.1 fs = some x.2 from Entries.lookup_of_mem hfs.1 hx] at hnone
          cases hnone
      have hproto : x.1 ≠ "__proto__" := by
        intro hx'
        have hnone := hshown x.1
        rw [hx', get_proto, ← hx', show Fields.get x.1 fs = some x.2 from Entries.lookup_of_mem hfs.1 hx] at hnone
        cases hnone
      have hvalue : (outValue look fs x.1 x.2).normal = x.2.normal := by
        have hsome := hshown x.1
        rw [get_same hfs.1 hkeys hx hproto, show Fields.get x.1 fs = some x.2 from Entries.lookup_of_mem hfs.1 hx] at hsome
        injection hsome
      unfold OpaqueEntry
      cases hrule : ruleFor fs x.1 with
      | some rule =>
        rw [outValue_of_rule hrule] at hvalue
        simpa using ⟨hkeys x hx, hproto, null_of_replacement hlook hvalue⟩
      | none =>
        rw [outValue_of_none hrule] at hvalue
        simpa using (ih x hx).2.mp hvalue
    · intro h
      have hkeys : ∀ x ∈ fs, outKey fs x.1 = x.1 := fun x hx => (h x hx).outKey_eq.1
      apply normal_obj_eq keys_transformFields.1 hfs.1
      intro o
      cases ho : Fields.get o fs with
      | none =>
        have hunwritten : ∀ x ∈ fs, outKey fs x.1 ≠ o := by
          intro x hx hout
          rw [hkeys x hx] at hout
          have hsome := Entries.lookup_of_mem hfs.1 (show (o, x.2) ∈ fs from hout ▸ hx)
          rw [show fs.lookup o = none from ho] at hsome
          cases hsome
        rw [get_unwritten hunwritten]
      | some v =>
        have hx : (o, v) ∈ fs := Entries.mem_of_lookup ho
        have hentry := h _ hx
        rw [get_same hfs.1 hkeys hx hentry.outKey_eq.2]
        refine congrArg some ?_
        cases hrule : ruleFor fs o with
        | some rule =>
          obtain ⟨-, -, hnull⟩ := hentry.of_rule (by simp [hrule])
          rw [outValue_of_rule hrule, show v = .null from hnull]
          simp [replacement, toPositiveInt]
        | none =>
          rw [outValue_of_none hrule]
          exact (ih _ hx).2.mpr (hentry.of_none hrule)

/-- Whether a tree is opaque does not depend on the order of keys. -/
theorem opaque_normal (hp : p.Tree) (hq : q.Tree) (h : p.normal = q.normal) (hsealed : Opaque p) : Opaque q := by
  induction p, hp using tree_induction generalizing q with
  | scalar p _ hscalar => rwa [hscalar.eq_of_normal h.symm]
  | arr xs _ ih =>
    obtain ⟨ys, rfl⟩ := arr_of_normal_eq h
    refine opaqueItems_iff.mpr fun y hy => ?_
    obtain ⟨x, hx, hsame⟩ := List.mem_map.mp (normal_arr_iff.mp h ▸ List.mem_map_of_mem hy : y.normal ∈ xs.map normal)
    exact (ih x hx).2 (treeItems_iff.mp hq y hy) hsame (opaqueItems_iff.mp hsealed x hx)
  | obj fs hfs ih =>
    obtain ⟨gs, rfl⟩ := obj_of_normal_eq h
    refine opaqueFields_iff.mpr fun y hy => ?_
    obtain ⟨v, hv, hsame⟩ := entry_normal h hq.1 hy
    have hentry := opaqueFields_iff.mp hsealed _ hv
    have hkeys := mem_keys_normal h
    unfold OpaqueEntry at hentry ⊢
    rw [← ruleFor_congr hkeys, ← outKey_congr hkeys]
    split
    · rename_i hrule
      rw [if_pos hrule] at hentry
      obtain ⟨hout, hproto, rfl⟩ := hentry
      exact ⟨hout, hproto, null_of_normal_eq hsame.symm⟩
    · rename_i hrule
      rw [if_neg hrule] at hentry
      exact (ih _ hv).2 (treeFields_iff.mp hq.2 y hy) hsame hentry

end Kayan.Fk
