import Kayan.Lib.Entries
import Kayan.Payload
import Mathlib.Data.String.Basic

/-!
# Payload trees

JSON trees among the payloads, what stands at a place of a tree, and trees up to the order of the
keys of their objects.
-/
namespace Kayan

namespace Payload

/-- A step into an array or an object. -/
inductive Step where
  | item (i : Nat)
  | key (k : String)

/-- What stands at a place. -/
def at? : Payload → List Step → Option Payload
  | p, [] => some p
  | .arr xs, .item i :: path => xs[i]?.bind fun x => x.at? path
  | .obj fs, .key k :: path => (Fields.get k fs).bind fun x => x.at? path
  | _, _ :: _ => none

theorem at?_step (p : Payload) (step : Step) (path : List Step) :
    p.at? (step :: path) = (p.at? [step]).bind fun x => x.at? path := by
  cases p with
  | arr xs => cases step <;> simp [at?]
  | obj fs => cases step <;> simp [at?]
  | _ => simp [at?]

/-- A step leads into an array by an index or into an object by a key. -/
theorem at?_cons {p q : Payload} {step : Step} {path : List Step} (h : p.at? (step :: path) = some q) :
    (∃ xs i x, p = .arr xs ∧ step = .item i ∧ xs[i]? = some x ∧ x.at? path = some q) ∨
      (∃ fs k x, p = .obj fs ∧ step = .key k ∧ Fields.get k fs = some x ∧ x.at? path = some q) := by
  cases p with
  | arr xs =>
    cases step with
    | item i =>
      obtain ⟨x, hx, hpath⟩ := Option.bind_eq_some_iff.mp h
      exact Or.inl ⟨xs, i, x, rfl, rfl, hx, hpath⟩
    | key k => simp [at?] at h
  | obj fs =>
    cases step with
    | item i => simp [at?] at h
    | key k =>
      obtain ⟨x, hx, hpath⟩ := Option.bind_eq_some_iff.mp h
      exact Or.inr ⟨fs, k, x, rfl, rfl, hx, hpath⟩
  | _ => simp [at?] at h

mutual

/-- A JSON tree: no object has a `toJSON` method, or a key twice. -/
def Tree : Payload → Prop
  | .arr xs => TreeItems xs
  | .obj fs => (fs.map Prod.fst).Nodup ∧ TreeFields fs
  | .custom _ _ => False
  | _ => True
termination_by structural x => x

def TreeItems : List Payload → Prop
  | [] => True
  | x :: xs => Tree x ∧ TreeItems xs
termination_by structural x => x

def TreeFields : List (String × Payload) → Prop
  | [] => True
  | (_, v) :: fs => Tree v ∧ TreeFields fs
termination_by structural x => x

end

mutual

/-- The tree with the entries of its objects in the order of their keys. Two trees are the same up
to the order of keys when their normal forms are equal. -/
def normal : Payload → Payload
  | .arr xs => .arr (normalItems xs)
  | .obj fs => .obj (Entries.sorted (normalFields fs))
  | x => x
termination_by structural x => x

def normalItems : List Payload → List Payload
  | [] => []
  | x :: xs => normal x :: normalItems xs
termination_by structural x => x

def normalFields : List (String × Payload) → List (String × Payload)
  | [] => []
  | (k, v) :: fs => (k, normal v) :: normalFields fs
termination_by structural x => x

end

section Lists
variable {xs : List Payload} {fs : Fields}

theorem treeItems_iff : TreeItems xs ↔ ∀ x ∈ xs, Tree x := by
  induction xs with
  | nil => simp [TreeItems]
  | cons x xs ih => rw [TreeItems, ih, List.forall_mem_cons]

theorem treeFields_iff : TreeFields fs ↔ ∀ x ∈ fs, Tree x.2 := by
  induction fs with
  | nil => simp [TreeFields]
  | cons x fs ih => rw [TreeFields, ih, List.forall_mem_cons]

theorem normalItems_eq_map (xs : List Payload) : normalItems xs = xs.map normal := by
  induction xs with
  | nil => rfl
  | cons x xs ih => rw [normalItems, ih, List.map_cons]

theorem normalFields_eq_map (fs : Fields) : normalFields fs = fs.map fun x => (x.1, x.2.normal) := by
  induction fs with
  | nil => rfl
  | cons x fs ih => rw [normalFields, ih, List.map_cons]

theorem normalFields_keys (fs : Fields) : (normalFields fs).map Prod.fst = fs.map Prod.fst := by
  rw [normalFields_eq_map, List.map_map]
  rfl

theorem get_normalFields (fs : Fields) (k : String) : (normalFields fs).lookup k = (Fields.get k fs).map normal := by
  rw [normalFields_eq_map]
  exact Entries.lookup_map normal fs k

end Lists

/-- What stands at a place of a tree is a tree. -/
theorem Tree.at? {p q : Payload} {path : List Step} (hp : p.Tree) (h : p.at? path = some q) : q.Tree := by
  induction path generalizing p with
  | nil =>
    injection h with h
    rwa [← h]
  | cons step path ih =>
    obtain ⟨xs, i, x, rfl, rfl, hx, hpath⟩ | ⟨fs, k, x, rfl, rfl, hx, hpath⟩ := at?_cons h
    · exact ih (treeItems_iff.mp hp x (List.mem_of_getElem? hx)) hpath
    · exact ih (treeFields_iff.mp hp.2 _ (Entries.mem_of_lookup hx)) hpath

/-- Neither an array nor an object. -/
def Scalar : Payload → Prop
  | .arr _ | .obj _ | .custom _ _ => False
  | _ => True

/-- There is no object in a scalar. -/
theorem Scalar.no_object {p : Payload} {fs : Fields} {path : List Step} (hp : p.Scalar)
    (h : p.at? path = some (.obj fs)) : False := by
  cases path with
  | nil =>
    injection h with h
    subst h
    exact hp
  | cons step path =>
    obtain ⟨xs, i, x, rfl, -⟩ | ⟨gs, k, x, rfl, -⟩ := at?_cons h
    · exact hp
    · exact hp

/-- Induction over a tree, with a hypothesis for each item and each value. -/
theorem tree_induction {motive : (p : Payload) → p.Tree → Prop} (scalar : ∀ p (h : p.Tree), p.Scalar → motive p h)
    (arr : ∀ xs h, (∀ x ∈ xs, ∃ hx : Tree x, motive x hx) → motive (.arr xs) h)
    (obj : ∀ (fs : Fields) h, (∀ x ∈ fs, ∃ hx : Tree x.2, motive x.2 hx) → motive (.obj fs) h) :
    ∀ (p : Payload) (h : p.Tree), motive p h
  | .null, h | .bool _, h | .num _, h | .str _, h => scalar _ h trivial
  | .arr xs, h => arr xs h fun x hx =>
      ⟨treeItems_iff.mp h x hx, tree_induction scalar arr obj x _⟩
  | .obj fs, h => obj fs h fun x hx =>
      ⟨treeFields_iff.mp h.2 x hx, tree_induction scalar arr obj x.2 _⟩
  | .custom _ _, h => h.elim
termination_by p => sizeOf p
decreasing_by
  · have := List.sizeOf_lt_of_mem hx
    simp only [Payload.arr.sizeOf_spec]
    omega
  · have := List.sizeOf_lt_of_mem hx
    have : sizeOf x.2 < sizeOf x := by
      obtain ⟨k, v⟩ := x
      simp only [Prod.mk.sizeOf_spec]
      omega
    simp only [Payload.obj.sizeOf_spec]
    omega

section Normal
variable {p q v w : Payload} {fs gs : Fields} {k : String} {path : List Step}

/-- Objects with the same entries up to order, whose values are the same up to order. -/
theorem normal_obj_eq (hf : (fs.map Prod.fst).Nodup) (hg : (gs.map Prod.fst).Nodup)
    (h : ∀ k, (Fields.get k fs).map normal = (Fields.get k gs).map normal) :
    (obj fs).normal = (obj gs).normal := by
  have hsorted : Entries.sorted (normalFields fs) = Entries.sorted (normalFields gs) := by
    apply Entries.sorted_eq_of_lookup
    · rwa [normalFields_keys]
    · rwa [normalFields_keys]
    · intro k
      rw [get_normalFields, get_normalFields, h k]
  exact congrArg obj hsorted

theorem get_of_normal_eq (h : (obj fs).normal = (obj gs).normal) (k : String) :
    (Fields.get k fs).map normal = (Fields.get k gs).map normal := by
  have hsorted : Entries.sorted (normalFields fs) = Entries.sorted (normalFields gs) := by
    injection h
  rw [← get_normalFields, ← get_normalFields, Entries.lookup_eq_of_sorted hsorted k]

/-- The same objects have the same keys. -/
theorem mem_keys_normal (h : (obj fs).normal = (obj gs).normal) (k : String) :
    k ∈ fs.map Prod.fst ↔ k ∈ gs.map Prod.fst := by
  have hle : ∀ {xs ys : Fields}, (obj xs).normal = (obj ys).normal → k ∈ xs.map Prod.fst → k ∈ ys.map Prod.fst := by
    intro xs ys hsame hk
    obtain ⟨v, hv⟩ := Entries.exists_lookup hk
    have hget := get_of_normal_eq hsame k
    rw [show Fields.get k xs = some v from hv] at hget
    obtain ⟨w, hw, -⟩ := Option.map_eq_some_iff.mp hget.symm
    exact Entries.mem_keys_of_lookup hw
  exact ⟨hle h, hle h.symm⟩

theorem entry_normal (h : (obj fs).normal = (obj gs).normal) (hg : (gs.map Prod.fst).Nodup) {x : String × Payload}
    (hx : x ∈ gs) : ∃ v, (x.1, v) ∈ fs ∧ v.normal = x.2.normal := by
  have hget := get_of_normal_eq h x.1
  rw [show Fields.get x.1 gs = some x.2 from Entries.lookup_of_mem hg hx] at hget
  obtain ⟨v, hv, hsame⟩ := Option.map_eq_some_iff.mp hget
  exact ⟨v, Entries.mem_of_lookup hv, hsame⟩

/-- A scalar is the same as itself only. -/
theorem Scalar.eq_of_normal (hp : p.Scalar) (h : q.normal = p.normal) : q = p := by
  cases p <;> cases q <;> first | exact hp.elim | cases h
  all_goals rfl

theorem normal_arr_iff {xs ys : List Payload} :
    (arr xs).normal = (arr ys).normal ↔ xs.map normal = ys.map normal := by
  rw [← normalItems_eq_map, ← normalItems_eq_map, normal, normal, Payload.arr.injEq]

theorem arr_of_normal_eq {xs : List Payload} (h : (arr xs).normal = q.normal) : ∃ ys, q = .arr ys := by
  cases q with
  | arr ys => exact ⟨ys, rfl⟩
  | _ => cases h

/-- Only an object is the same as an object. -/
theorem obj_of_normal_eq (h : (obj fs).normal = q.normal) : ∃ gs, q = .obj gs := by
  cases q with
  | obj gs => exact ⟨gs, rfl⟩
  | _ => cases h

theorem null_of_normal_eq (h : q.normal = .null) : q = .null := by
  cases q with
  | null => rfl
  | _ => cases h

/-- Trees that are the same have the same at each place. -/
theorem at?_normal (h : p.normal = q.normal) : (p.at? path).map normal = (q.at? path).map normal := by
  induction path generalizing p q with
  | nil => exact congrArg some h
  | cons step path ih =>
    cases p with
    | arr xs =>
      cases q with
      | arr ys =>
        have hitems : xs.map normal = ys.map normal := by
          rw [← normalItems_eq_map, ← normalItems_eq_map]
          injection h
        cases step with
        | item i =>
          have hi : (xs[i]?).map normal = (ys[i]?).map normal := by
            rw [← List.getElem?_map, ← List.getElem?_map, hitems]
          cases hx : xs[i]? with
          | none =>
            have hy : ys[i]? = none := by simpa [hx] using hi.symm
            simp only [at?, hx, hy, Option.bind_none]
          | some x =>
            obtain ⟨y, hy, hxy⟩ : ∃ y, ys[i]? = some y ∧ y.normal = x.normal := by simpa [hx] using hi.symm
            simp only [at?, hx, hy, Option.bind_some]
            exact ih hxy.symm
        | key k => rfl
      | _ => cases h
    | obj fs =>
      obtain ⟨gs, rfl⟩ := obj_of_normal_eq h
      cases step with
      | item i => rfl
      | key k =>
        have hk := get_of_normal_eq h k
        cases hf : Fields.get k fs with
        | none =>
          have hg : Fields.get k gs = none := by simpa [hf] using hk.symm
          simp only [at?, hf, hg, Option.bind_none]
        | some v =>
          obtain ⟨w, hw, hvw⟩ : ∃ w, Fields.get k gs = some w ∧ w.normal = v.normal := by
            simpa [hf] using hk.symm
          simp only [at?, hf, hw, Option.bind_some]
          exact ih hvw.symm
    | null | bool b | num n | str s | custom fs j =>
      cases q <;> cases h
      all_goals rfl

/-- Trees that are the same have the same entries at each place. -/
theorem entry_at_normal (h : p.normal = q.normal) (hpath : p.at? path = some (.obj fs)) (hk : Fields.get k fs = some v) :
    ∃ gs w, q.at? path = some (.obj gs) ∧ Fields.get k gs = some w ∧ w.normal = v.normal := by
  have hplace := @at?_normal _ _ path h
  rw [hpath] at hplace
  obtain ⟨r, hr, hobj⟩ := Option.map_eq_some_iff.mp hplace.symm
  obtain ⟨gs, rfl⟩ := obj_of_normal_eq hobj.symm
  have hget := get_of_normal_eq hobj k
  rw [hk] at hget
  obtain ⟨w, hw, hsame⟩ := Option.map_eq_some_iff.mp hget
  exact ⟨gs, w, hr, hw, hsame⟩

end Normal

section Front
variable {fs : Fields} {k o : String} {v w : Payload}

/-- The object with a value for a key, in front of its other entries. -/
def front (k : String) (v : Payload) (fs : Fields) : Fields := (k, v) :: Fields.drop k fs

theorem get_front : Fields.get o (front k v fs) = if o = k then some v else Fields.get o fs := by
  unfold front Fields.get Fields.drop
  rw [List.lookup_cons]
  by_cases ho : o = k
  · simp [ho]
  · rw [if_neg ho, beq_false_of_ne ho]
    change (fs.filter fun x => x.1 ≠ k).lookup o = fs.lookup o
    induction fs with
    | nil => rfl
    | cons x fs ih =>
      obtain ⟨k', v'⟩ := x
      by_cases hk : k' = k
      · have hne : (o == k') = false := beq_false_of_ne fun h => ho (h.trans hk)
        rw [List.filter_cons_of_neg (by simpa using hk), List.lookup_cons, hne, ih]
      · rw [List.filter_cons_of_pos (by simpa using hk), List.lookup_cons, List.lookup_cons, ih]

theorem mem_keys_front (hk : k ∈ fs.map Prod.fst) : o ∈ (front k v fs).map Prod.fst ↔ o ∈ fs.map Prod.fst := by
  by_cases ho : o = k
  · simpa [front, ho] using hk
  · simp [front, Fields.drop, ho]

theorem tree_front (hfs : (obj fs).Tree) (hv : v.Tree) : (obj (front k v fs)).Tree := by
  constructor
  · have hdrop : ((Fields.drop k fs).map Prod.fst).Nodup := hfs.1.sublist (List.filter_sublist.map _)
    exact List.nodup_cons.mpr ⟨by simp [Fields.drop], hdrop⟩
  · refine treeFields_iff.mpr (List.forall_mem_cons.mpr ⟨hv, fun x hx => ?_⟩)
    exact treeFields_iff.mp hfs.2 x (List.mem_of_mem_filter hx)

/-- Moving an entry to the front keeps the object the same. -/
theorem normal_front (hfs : (obj fs).Tree) (hk : Fields.get k fs = some v) (hv : w.normal = v.normal)
    (hw : w.Tree) : (obj (front k w fs)).normal = (obj fs).normal := by
  apply normal_obj_eq (tree_front hfs hw).1 hfs.1
  intro o
  rw [get_front]
  split
  · rename_i ho
    rw [ho, hk]
    exact congrArg some hv
  · rfl

end Front
end Payload
end Kayan
