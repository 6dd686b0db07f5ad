import Kayan.Fk.Fields
import Kayan.Fk.Reading

/-!
# Expansion keeps the other fields

Every key that is no foreign key of its own stays in the expanded object with the expansion of its
value, and the order of keys does not matter, exactly for the payloads whose objects keep foreign
keys apart from the other keys.
-/
namespace Kayan.Fk
open Payload
variable {rd : Reader} {dir : Directory} {look : Resolver} {node fs gs : Fields} {key o : String}
  {p q v w value : Payload} {rule : FkRule} {path : List Step}

/-- Expansion of a tree keeps, at every object of it and at every key without an entry of its own
in `FK_RULES`, the expansion of the value, and it does not depend on the order of keys. -/
def KeepsFields (rd : Reader) (dir : Directory) (p : Payload) : Prop :=
  ∃ out, expand rd dir p = some out ∧
    (∀ path fs, p.at? path = some (.obj fs) → ∀ key value, Fields.get key fs = some value →
      fkRules.lookup key = none → ∃ gs w, out.at? path = some (.obj gs) ∧ Fields.get key gs = some w ∧
        (expand rd dir value).map normal = some w.normal) ∧
    ∀ q, q.Tree → q.normal = p.normal → (expand rd dir q).map normal = some out.normal

mutual

/-- A record shows what a value stands for: each entry of an object shows in the record, and the
record has no other entry. -/
def Shows (look : Resolver) : Payload → Payload → Prop
  | .arr xs, record => ∃ rs, record = .arr rs ∧ ShowsItems look xs rs
  | .obj fs, record => ∃ gs, record = .obj gs ∧ ShowsFields look fs gs fs ∧
      ∀ o ∈ gs.map Prod.fst, ∃ key ∈ fs.map Prod.fst, outKey fs key = o
  | x, record => record = x
termination_by structural x => x

def ShowsItems (look : Resolver) : List Payload → List Payload → Prop
  | [], rs => rs = []
  | x :: xs, rs => ∃ r rest, rs = r :: rest ∧ Shows look x r ∧ ShowsItems look xs rest
termination_by structural x => x

def ShowsFields (look : Resolver) (node gs : Fields) : List (String × Payload) → Prop
  | [] => True
  | (key, value) :: rest =>
    (∃ r, Fields.get (outKey node key) gs = some r ∧
      match ruleFor node key with
      | some rule => r.normal = (replacement look rule value).normal
      | none => Shows look value r) ∧ ShowsFields look node gs rest
termination_by structural x => x

end

mutual

/-- Objects have foreign keys only. -/
def Bare : Payload → Prop
  | .arr xs => BareItems xs
  | .obj fs => BareFields fs
  | .custom fs _ => BareFields fs
  | _ => True
termination_by structural x => x

def BareItems : List Payload → Prop
  | [] => True
  | x :: xs => Bare x ∧ BareItems xs
termination_by structural x => x

def BareFields : List (String × Payload) → Prop
  | [] => True
  | (key, value) :: rest => fkRules.lookup key ≠ none ∧ Bare value ∧ BareFields rest
termination_by structural x => x

end

/-- Where the name under which a foreign key shows its record is the name of another entry, which
is no foreign key, the record shows what that entry stands for. -/
def Agrees (look : Resolver) (node : Fields) (key : String) (rule : FkRule) (value : Payload) : Prop :=
  fkRules.lookup (rule.output key) = none →
    ∀ other, Fields.get (rule.output key) node = some other → Shows look other (replacement look rule value)

mutual

/-- Foreign keys and other keys keep apart. A foreign key that is expanded has nothing but foreign
keys below it and no rival for the name of its record; a name of `Object.prototype` has `null`. -/
def Separate (look : Resolver) : Payload → Prop
  | .arr xs => SeparateItems look xs
  | .obj fs => SeparateFields look fs fs
  | .custom fs _ => SeparateFields look fs fs
  | _ => True
termination_by structural x => x

def SeparateItems (look : Resolver) : List Payload → Prop
  | [] => True
  | x :: xs => Separate look x ∧ SeparateItems look xs
termination_by structural x => x

def SeparateFields (look : Resolver) (node : Fields) : List (String × Payload) → Prop
  | [] => True
  | (key, value) :: rest =>
    (match ruleFor node key with
      | some rule =>
        if fkRules.lookup key = none then key ≠ "__proto__" ∧ value = .null
        else Bare value ∧ Agrees look node key rule value
      | none => Separate look value) ∧ SeparateFields look node rest
termination_by structural x => x

end

section Lists
variable {xs : List Payload}

theorem showsItems_iff {rs : List Payload} : ShowsItems look xs rs ↔ List.Forall₂ (Shows look) xs rs := by
  induction xs generalizing rs with
  | nil => simp [ShowsItems]
  | cons x xs ih => simp only [ShowsItems, ih, List.forall₂_cons_left_iff]; grind

theorem bareItems_iff : BareItems xs ↔ ∀ x ∈ xs, Bare x := by
  induction xs with
  | nil => simp [BareItems]
  | cons x xs ih => rw [BareItems, ih, List.forall_mem_cons]

theorem bareFields_iff : BareFields fs ↔ ∀ x ∈ fs, fkRules.lookup x.1 ≠ none ∧ Bare x.2 := by
  induction fs with
  | nil => simp [BareFields]
  | cons x fs ih => rw [BareFields, ih, List.forall_mem_cons, and_assoc]

theorem separateItems_iff : SeparateItems look xs ↔ ∀ x ∈ xs, Separate look x := by
  induction xs with
  | nil => simp [SeparateItems]
  | cons x xs ih => rw [SeparateItems, ih, List.forall_mem_cons]

/-- An entry keeps apart from the others of its object. -/
def Apart (look : Resolver) (node : Fields) (key : String) (value : Payload) : Prop :=
  match ruleFor node key with
  | some rule =>
    if fkRules.lookup key = none then key ≠ "__proto__" ∧ value = .null
    else Bare value ∧ Agrees look node key rule value
  | none => Separate look value

theorem separateFields_iff : SeparateFields look node fs ↔ ∀ x ∈ fs, Apart look node x.1 x.2 := by
  induction fs with
  | nil => simp [SeparateFields]
  | cons x fs ih =>
    rw [SeparateFields, ih, List.forall_mem_cons]
    rfl

/-- An entry of an object shows in a record. -/
def Shown (look : Resolver) (node gs : Fields) (key : String) (value : Payload) : Prop :=
  ∃ r, Fields.get (outKey node key) gs = some r ∧
    match ruleFor node key with
    | some rule => r.normal = (replacement look rule value).normal
    | none => Shows look value r

theorem showsFields_iff : ShowsFields look node gs fs ↔ ∀ x ∈ fs, Shown look node gs x.1 x.2 := by
  induction fs with
  | nil => simp [ShowsFields]
  | cons x fs ih =>
    rw [ShowsFields, ih, List.forall_mem_cons]
    rfl

end Lists

/-- All records are trees. -/
def Trees (look : Resolver) : Prop := ∀ entity id record, look entity id = some record → record.Tree

theorem Trees.replacement (hlook : Trees look) : (replacement look rule value).Tree := by
  unfold Fk.replacement
  cases h : rule.entity.bind fun entity => (toPositiveInt value).bind (look entity) with
  | none => trivial
  | some record =>
    obtain ⟨entity, -, hentity⟩ := Option.bind_eq_some_iff.mp h
    obtain ⟨id, -, hid⟩ := Option.bind_eq_some_iff.mp hentity
    exact hlook entity id record hid

theorem Apart.ne_proto (h : Apart look node key value) : key ≠ "__proto__" := by
  rintro rfl
  rw [Apart, ruleFor_proto] at h
  simp only [prototypeKeys_not_own "__proto__" (by decide), if_true] at h
  exact h.1 rfl

theorem Apart.agrees (h : Apart look node key value) (hown : fkRules.lookup key = some rule)
    (hrule : ruleFor node key = some rule) : Bare value ∧ Agrees look node key rule value := by
  simpa only [Apart, hrule, hown, reduceCtorEq, if_false] using h

theorem Apart.separate (h : Apart look node key value) (hrule : ruleFor node key = none) : Separate look value := by
  simpa only [Apart, hrule] using h

/-- What an object shows under a key is what any of the entries that write it would write. -/
theorem get_entry (hlook : Trees look) (hnodup : (fs.map Prod.fst).Nodup)
    (hapart : ∀ x ∈ fs, Apart look fs x.1 x.2)
    (hshows : ∀ x ∈ fs, ruleFor fs x.1 = none → ∀ r, r.Tree → Shows look x.2 r →
      (transformNode look x.2).normal = r.normal) (hmem : (key, value) ∈ fs) :
    (Fields.get (outKey fs key) (transformFields look fs [] fs)).map normal =
      some (outValue look fs key value).normal := by
  have hproto : outKey fs key ≠ "__proto__" := fun h => (hapart _ hmem).ne_proto (outKey_eq_proto h)
  have hrival : ∀ {a b : String} {v w : Payload} {rule : FkRule}, (a, v) ∈ fs → (b, w) ∈ fs →
      fkRules.lookup a = some rule → ruleFor fs a = some rule → rule.output a = b →
      fkRules.lookup b = none → ruleFor fs b = none →
      (outValue look fs a v).normal = (outValue look fs b w).normal := by
    intro a b v w rule ha hb hown hrule hout hnone hplain
    have hagrees := ((hapart _ ha).agrees hown hrule).2 (by rw [hout]; exact hnone) w
      (by rw [hout]; exact Entries.lookup_of_mem hnodup hb)
    rw [outValue_of_rule hrule, outValue_of_none hplain]
    exact (hshows _ hb hplain _ hlook.replacement hagrees).symm
  rw [get_transformFields (List.not_mem_nil) hproto]
  cases hfind : fs.find? fun x => outKey fs x.1 = outKey fs key with
  | none => exact absurd (List.find?_eq_none.mp hfind _ hmem) (by simp)
  | some x =>
    obtain ⟨other, w⟩ := x
    have hsame : outKey fs other = outKey fs key := by simpa using List.find?_some hfind
    have hother : (other, w) ∈ fs := List.mem_of_find?_eq_some hfind
    refine congrArg some ?_
    change (outValue look fs other w).normal = (outValue look fs key value).normal
    by_cases hne : other = key
    · subst hne
      have hval : some w = some value := by
        rw [← Entries.lookup_of_mem hnodup hother, Entries.lookup_of_mem hnodup hmem]
      injection hval with hval
      rw [hval]
    · obtain ⟨rule, hown, hrule, hout, hnone, hplain⟩ | ⟨rule, hown, hrule, hout, hnone, hplain⟩ :=
        outKey_clash hsame hne
      · exact hrival hother hmem hown hrule hout hnone hplain
      · exact (hrival hmem hother hown hrule hout hnone hplain).symm

theorem map_eq_iff_forall₂ {α β γ : Type} {f : α → γ} {g : β → γ} {xs : List α} {ys : List β} :
    xs.map f = ys.map g ↔ List.Forall₂ (fun x y => f x = g y) xs ys := by
  rw [← List.forall₂_eq_eq_eq, List.forall₂_map_left_iff, List.forall₂_map_right_iff]

theorem forall₂_imp {α β : Type} {R S : α → β → Prop} {xs : List α} {ys : List β}
    (h : ∀ x ∈ xs, ∀ y ∈ ys, R x y → S x y) (hR : List.Forall₂ R xs ys) : List.Forall₂ S xs ys := by
  induction hR with
  | nil => exact .nil
  | cons hxy _ ih =>
    apply List.Forall₂.cons
    · exact h _ (List.mem_cons_self ..) _ (List.mem_cons_self ..) hxy
    · exact ih fun a ha b hb => h a (List.mem_cons_of_mem _ ha) b (List.mem_cons_of_mem _ hb)

theorem forall₂_rel_congr {α β : Type} {R S : α → β → Prop} {xs : List α} {ys : List β}
    (h : ∀ x ∈ xs, ∀ y ∈ ys, R x y ↔ S x y) : List.Forall₂ R xs ys ↔ List.Forall₂ S xs ys :=
  ⟨forall₂_imp fun x hx y hy => (h x hx y hy).mp, forall₂_imp fun x hx y hy => (h x hx y hy).mpr⟩

/-- A record shows what a tree stands for when it is what the tree expands to. -/
theorem shows_iff (hlook : Trees look) (hv : v.Tree) (hsep : Separate look v) {r : Payload} (hr : r.Tree) :
    Shows look v r ↔ (transformNode look v).normal = r.normal := by
  induction v, hv using tree_induction generalizing r with
  | scalar v _ hv =>
    have hsame : transformNode look v = v := by cases v <;> first | rfl | exact hv.elim
    have hshows : Shows look v r ↔ r = v := by cases v <;> first | rfl | exact hv.elim
    rw [hshows, hsame]
    exact ⟨fun h => congrArg normal h.symm, fun h => hv.eq_of_normal h.symm⟩
  | arr xs _ ih =>
    have hitems : ∀ x ∈ xs, Separate look x := separateItems_iff.mp hsep
    have hiff : ∀ {rs : List Payload}, TreeItems rs →
        (ShowsItems look xs rs ↔ (transformNode look (.arr xs)).normal = (arr rs).normal) := by
      intro rs hrs
      rw [showsItems_iff, transformNode, normal_arr_iff, transformItems_eq_map, List.map_map, map_eq_iff_forall₂]
      exact forall₂_rel_congr fun x hx y hy => (ih x hx).2 (hitems x hx) (treeItems_iff.mp hrs y hy)
    constructor
    · rintro ⟨rs, rfl, h⟩
      exact (hiff hr).mp h
    · intro h
      obtain ⟨rs, rfl⟩ := arr_of_normal_eq h
      exact ⟨rs, rfl, (hiff hr).mpr h⟩
  | obj fs hfs ih =>
    have hapart : ∀ x ∈ fs, Apart look fs x.1 x.2 := separateFields_iff.mp hsep
    have hentry := fun {key value} (hmem : (key, value) ∈ fs) => get_entry hlook hfs.1 hapart
      (fun x hx hplain r hr h => ((ih x hx).2 ((hapart x hx).separate hplain) hr).mp h) hmem
    have hshown : ∀ {gs : Fields}, TreeFields gs → ∀ x ∈ fs, (Shown look fs gs x.1 x.2 ↔
        (Fields.get (outKey fs x.1) gs).map normal = some (outValue look fs x.1 x.2).normal) := by
      intro gs hgs x hx
      rw [Shown, Option.map_eq_some_iff]
      refine exists_congr fun r => and_congr_right fun hget => ?_
      have htree : r.Tree := treeFields_iff.mp hgs _ (Entries.mem_of_lookup hget)
      cases hrule : ruleFor fs x.1 with
      | some rule => rw [outValue_of_rule hrule]
      | none =>
        rw [outValue_of_none hrule, (ih x hx).2 ((hapart x hx).separate hrule) htree]
        exact eq_comm
    constructor
    · rintro ⟨gs, rfl, hfields, hcover⟩
      apply normal_obj_eq keys_transformFields.1 hr.1
      intro o
      by_cases hwritten : ∃ x ∈ fs, outKey fs x.1 = o
      · obtain ⟨x, hx, rfl⟩ := hwritten
        rw [hentry hx, (hshown hr.2 x hx).mp (showsFields_iff.mp hfields x hx)]
      · have hnone : Fields.get o gs = none := by
          cases hget : Fields.get o gs with
          | none => rfl
          | some r =>
            obtain ⟨key, hkey, hout⟩ := hcover o (Entries.mem_keys_of_lookup hget)
            obtain ⟨x, hx, rfl⟩ := List.mem_map.mp hkey
            exact absurd ⟨x, hx, hout⟩ hwritten
        rw [get_unwritten fun x hx hout => hwritten ⟨x, hx, hout⟩, hnone]
    · intro h
      obtain ⟨gs, rfl⟩ := obj_of_normal_eq h
      refine ⟨gs, rfl, showsFields_iff.mpr fun x hx => ?_, fun o ho => ?_⟩
      · rw [hshown hr.2 x hx, ← get_of_normal_eq h, hentry hx]
      · obtain ⟨r, hget⟩ := Entries.exists_lookup ho
        by_contra hunwritten
        have hnone : Fields.get o (transformFields look fs [] fs) = none :=
          get_unwritten fun x hx hout => hunwritten ⟨x.1, List.mem_map_of_mem hx, hout⟩
        have hsame := get_of_normal_eq h o
        rw [hnone, show Fields.get o gs = some r from hget] at hsame
        cases hsame

theorem toPositiveInt_normal (h : v.normal = w.normal) : toPositiveInt v = toPositiveInt w := by
  cases v <;> cases w <;> first | rfl | cases h
  all_goals rfl

theorem replacement_normal (h : v.normal = w.normal) : replacement look rule v = replacement look rule w := by
  rw [replacement, replacement, toPositiveInt_normal h]

/-- The order of keys does not change which ids are collected. -/
theorem collectIds_normal {x : EntityType × Nat} (hp : p.Tree) (hq : q.Tree) (h : p.normal = q.normal)
    (hx : x ∈ collectIds p) : x ∈ collectIds q := by
  induction p, hp using tree_induction generalizing q with
  | scalar p _ hscalar =>
    cases p <;> first | exact absurd hx List.not_mem_nil | exact hscalar.elim
  | arr xs _ ih =>
    obtain ⟨ys, rfl⟩ := arr_of_normal_eq h
    obtain ⟨p, hp, hx⟩ := mem_collectItems.mp hx
    obtain ⟨q, hq', hsame⟩ := List.mem_map.mp (normal_arr_iff.mp h ▸ List.mem_map_of_mem hp : p.normal ∈ ys.map normal)
    exact mem_collectItems.mpr ⟨q, hq', (ih p hp).2 (treeItems_iff.mp hq q hq') hsame.symm hx⟩
  | obj fs hfs ih =>
    obtain ⟨gs, rfl⟩ := obj_of_normal_eq h
    obtain ⟨y, hy, hy'⟩ := mem_collectFields_iff.mp hx
    obtain ⟨w, hw, hsame⟩ := entry_normal h.symm hfs.1 hy
    refine mem_collectFields_iff.mpr ⟨(y.1, w), hw, hy'.imp ?_ ?_⟩
    · rw [entryId_congr (mem_keys_normal h)]
      simp only [entryId, toPositiveInt_normal hsame]
      exact id
    · exact (ih y hy).2 (treeFields_iff.mp hq.2 _ hw) hsame.symm

theorem lookable_normal (hp : p.Tree) (hq : q.Tree) (h : p.normal = q.normal) (hl : Lookable dir (collectIds p)) :
    Lookable dir (collectIds q) :=
  fun x hx => hl x (collectIds_normal hq hp h.symm hx)

/-- What a tree that keeps its foreign keys apart shows for an entry. -/
theorem Separate.get (hlook : Trees look) (hp : (obj fs).Tree) (hsep : Separate look (obj fs))
    (hmem : (key, value) ∈ fs) : (Fields.get (outKey fs key) (transformFields look fs [] fs)).map normal =
      some (outValue look fs key value).normal := by
  have hapart : ∀ x ∈ fs, Apart look fs x.1 x.2 := separateFields_iff.mp hsep
  exact get_entry hlook hp.1 hapart (fun x hx hplain r hr =>
    (shows_iff hlook (treeFields_iff.mp hp.2 x hx) ((hapart x hx).separate hplain) hr).mp) hmem

/-- The order of keys does not change what a tree that keeps its foreign keys apart expands to. -/
theorem transform_normal (hlook : Trees look) (hp : p.Tree) (hsep : Separate look p) (hq : q.Tree)
    (h : q.normal = p.normal) : (transformNode look q).normal = (transformNode look p).normal := by
  induction p, hp using tree_induction generalizing q with
  | scalar p _ hscalar => rw [hscalar.eq_of_normal h]
  | arr xs _ ih =>
    obtain ⟨ys, rfl⟩ := arr_of_normal_eq h.symm
    have hitems : ∀ x ∈ xs, Separate look x := separateItems_iff.mp hsep
    rw [transformNode, transformNode, normal_arr_iff, transformItems_eq_map, transformItems_eq_map, List.map_map,
      List.map_map, map_eq_iff_forall₂]
    exact forall₂_imp (fun y hy x hx => (ih x hx).2 (hitems x hx) (treeItems_iff.mp hq y hy))
      (map_eq_iff_forall₂.mp (normal_arr_iff.mp h))
  | obj fs hfs ih =>
    obtain ⟨gs, rfl⟩ := obj_of_normal_eq h.symm
    have hapart : ∀ x ∈ fs, Apart look fs x.1 x.2 := separateFields_iff.mp hsep
    have hkeys := mem_keys_normal h
    apply normal_obj_eq keys_transformFields.1 keys_transformFields.1
    intro o
    by_cases hwritten : ∃ x ∈ gs, outKey gs x.1 = o
    · -- the first entry of `gs` that writes `o` is an entry of `fs` too
      obtain ⟨y, hy⟩ : ∃ y, (gs.find? fun x => outKey gs x.1 = o) = some y := by
        rw [← Option.isSome_iff_exists, List.find?_isSome]
        obtain ⟨x, hx, hout⟩ := hwritten
        exact ⟨x, hx, by simpa using hout⟩
      have hmem : y ∈ gs := List.mem_of_find?_eq_some hy
      obtain ⟨v, hv, hsame⟩ := entry_normal h.symm hq.1 hmem
      have hout : outKey fs y.1 = o := by
        rw [← outKey_congr hkeys]
        simpa using List.find?_some hy
      have hproto : o ≠ "__proto__" := fun ho => (hapart _ hv).ne_proto (outKey_eq_proto (hout.trans ho))
      rw [get_transformFields List.not_mem_nil hproto, hy, ← hout, hsep.get hlook hfs hv]
      refine congrArg some ?_
      change (outValue look gs y.1 y.2).normal = (outValue look fs y.1 v).normal
      cases hrule : ruleFor fs y.1 with
      | some rule =>
        rw [outValue_of_rule hrule, outValue_of_rule ((ruleFor_congr hkeys _).trans hrule), replacement_normal hsame]
      | none =>
        rw [outValue_of_none hrule, outValue_of_none ((ruleFor_congr hkeys _).trans hrule)]
        exact (ih _ hv).2 ((hapart _ hv).separate hrule) (treeFields_iff.mp hq.2 y hmem) hsame.symm
    · have hnone : ∀ x ∈ fs, outKey fs x.1 ≠ o := by
        intro x hx hout
        obtain ⟨w, hw, -⟩ := entry_normal h hfs.1 hx
        exact hwritten ⟨(x.1, w), hw, (outKey_congr hkeys _).trans hout⟩
      rw [get_unwritten hnone, get_unwritten fun x hx hout => hwritten ⟨x, hx, hout⟩]

theorem Bare.at? (hv : v.Tree) (h : Bare v) (hpath : v.at? path = some (.obj fs)) (hkey : Fields.get key fs = some value) :
    fkRules.lookup key ≠ none := by
  induction path generalizing v with
  | nil =>
    injection hpath with hpath
    subst hpath
    exact (bareFields_iff.mp h _ (Entries.mem_of_lookup hkey)).1
  | cons step path ih =>
    obtain ⟨xs, i, x, rfl, rfl, hx, hpath⟩ | ⟨gs, k, x, rfl, rfl, hx, hpath⟩ := at?_cons hpath
    · have hmem : x ∈ xs := List.mem_of_getElem? hx
      exact ih (treeItems_iff.mp hv x hmem) (bareItems_iff.mp h x hmem) hpath
    · have hmem : (k, x) ∈ gs := Entries.mem_of_lookup hx
      exact ih (treeFields_iff.mp hv.2 _ hmem) (bareFields_iff.mp h _ hmem).2 hpath

/-- The object at each place of a tree that keeps its foreign keys apart is expanded at the same
place, with the expansion of the value of each key that is no foreign key. -/
theorem Separate.keeps_at (hlook : Trees look) (hp : p.Tree) (hsep : Separate look p)
    (hpath : p.at? path = some (.obj fs)) (hkey : Fields.get key fs = some value) (hown : fkRules.lookup key = none) :
    ∃ gs w, (transformNode look p).at? path = some (.obj gs) ∧ Fields.get key gs = some w ∧
      (transformNode look value).normal = w.normal := by
  induction path generalizing p with
  | nil =>
    injection hpath with hpath
    subst hpath
    have hmem : (key, value) ∈ fs := Entries.mem_of_lookup hkey
    have hentry := hsep.get hlook hp hmem
    rw [outKey_of_own_none hown] at hentry
    obtain ⟨w, hw, hsame⟩ := Option.map_eq_some_iff.mp hentry
    refine ⟨_, w, rfl, hw, ?_⟩
    rw [hsame]
    by_cases hproto : key ∈ prototypeKeys
    · have hnull := separateFields_iff.mp hsep _ hmem
      simp only [Apart, ruleFor_prototype hown hproto, hown, if_true] at hnull
      rw [outValue_of_rule (ruleFor_prototype hown hproto), hnull.2]
      rfl
    · rw [outValue_of_none (ruleFor_none hown hproto)]
  | cons step path ih =>
    obtain ⟨xs, i, x, rfl, rfl, hx, hpath⟩ | ⟨fs', k, x, rfl, rfl, hx, hpath⟩ := at?_cons hpath
    · have hmem : x ∈ xs := List.mem_of_getElem? hx
      obtain ⟨gs, w, hat, hw, hsame⟩ := ih (treeItems_iff.mp hp x hmem) (separateItems_iff.mp hsep x hmem) hpath
      refine ⟨gs, w, ?_, hw, hsame⟩
      have hitem : (transformItems look xs)[i]? = some (transformNode look x) := by
        rw [transformItems_eq_map, List.getElem?_map, hx]
        rfl
      simp only [transformNode, Payload.at?, hitem, Option.bind_some, hat]
    · have hmem : (k, x) ∈ fs' := Entries.mem_of_lookup hx
      have htree : x.Tree := treeFields_iff.mp hp.2 _ hmem
      have hapart := separateFields_iff.mp hsep _ hmem
      cases hrule : ruleFor fs' k with
      | some rule =>
        -- below a foreign key there are foreign keys only, and below `null` there is nothing
        exfalso
        simp only [Apart, hrule] at hapart
        split at hapart
        · rw [hapart.2] at hpath
          exact (show Scalar .null from trivial).no_object hpath
        · exact hapart.1.at? htree hpath hkey hown
      | none =>
        obtain ⟨gs, w, hat, hw, hsame⟩ := ih htree (hapart.separate hrule) hpath
        have hentry := hsep.get hlook hp hmem
        rw [outKey_of_none hrule, outValue_of_none hrule] at hentry
        obtain ⟨u, hu, hsame'⟩ := Option.map_eq_some_iff.mp hentry
        obtain ⟨gs', w', hr, hw', hsame''⟩ := entry_at_normal hsame'.symm hat hw
        refine ⟨gs', w', ?_, hw', hsame.trans hsame''.symm⟩
        simp only [transformNode, Payload.at?, hu, Option.bind_some, hr]

theorem expand_normal_iff {n : Payload} : (expand rd dir v).map normal = some n ↔
    Lookable dir (collectIds v) ∧ (transformNode (lookup rd dir) v).normal = n := by
  rw [expand_eq]
  split <;> simp [*]

theorem KeepsFields.lookable (h : KeepsFields rd dir p) : Lookable dir (collectIds p) := by
  obtain ⟨out, hout, -⟩ := h
  exact (expand_normal_iff.mp (by rw [hout]; rfl)).1

theorem KeepsFields.keeps (h : KeepsFields rd dir p) (hpath : p.at? path = some (.obj fs))
    (hkey : Fields.get key fs = some value) (hown : fkRules.lookup key = none) :
    ∃ gs w, (transformNode (lookup rd dir) p).at? path = some (.obj gs) ∧ Fields.get key gs = some w ∧
      (transformNode (lookup rd dir) value).normal = w.normal := by
  obtain ⟨out, hout, hkeeps, -⟩ := h
  obtain ⟨gs, w, hgs, hw, hsame⟩ := hkeeps path fs hpath key value hkey hown
  exact ⟨gs, w, expand_some hout ▸ hgs, hw, (expand_normal_iff.mp hsame).2⟩

theorem KeepsFields.reorder (h : KeepsFields rd dir p) (hq : q.Tree) (hsame : q.normal = p.normal) :
    (transformNode (lookup rd dir) q).normal = (transformNode (lookup rd dir) p).normal := by
  obtain ⟨out, hout, -, hall⟩ := h
  exact expand_some hout ▸ (expand_normal_iff.mp (hall q hq hsame)).2

/-- Keeping the fields, in terms of what the ids are replaced by. -/
theorem keepsFields_of (hl : Lookable dir (collectIds p)) (hp : p.Tree)
    (hkeeps : ∀ path fs, p.at? path = some (.obj fs) → ∀ key value, Fields.get key fs = some value →
      fkRules.lookup key = none → ∃ gs w, (transformNode (lookup rd dir) p).at? path = some (.obj gs) ∧
        Fields.get key gs = some w ∧ (transformNode (lookup rd dir) value).normal = w.normal)
    (hall : ∀ q, q.Tree → q.normal = p.normal →
      (transformNode (lookup rd dir) q).normal = (transformNode (lookup rd dir) p).normal) : KeepsFields rd dir p := by
  refine ⟨transformNode (lookup rd dir) p, by rw [expand_eq, if_pos hl], ?_, ?_⟩
  · intro path fs hpath key value hkey hown
    obtain ⟨gs, w, hgs, hw, hsame⟩ := hkeeps path fs hpath key value hkey hown
    have hvalue : ∀ x ∈ collectIds value, x ∈ collectIds (.obj fs) := fun x hx =>
      mem_collectFields_iff.mpr ⟨(key, value), Entries.mem_of_lookup hkey, Or.inr hx⟩
    have hl' : Lookable dir (collectIds value) := fun x hx => hl x (collectIds_at hpath x (hvalue x hx))
    exact ⟨gs, w, hgs, hw, expand_normal_iff.mpr ⟨hl', hsame⟩⟩
  · exact fun q hq hsame => expand_normal_iff.mpr ⟨lookable_normal hp hq hsame.symm hl, hall q hq hsame⟩

theorem outValue_congr {node' : Fields} (h : ∀ k, k ∈ node.map Prod.fst ↔ k ∈ node'.map Prod.fst) :
    outValue look node key value = outValue look node' key value := by
  rw [outValue, outValue, ruleFor_congr h]

/-- With any entry put first, the object shows what that entry writes. -/
theorem KeepsFields.first (h : KeepsFields rd dir (.obj fs)) (hp : (obj fs).Tree)
    (hkey : Fields.get key fs = some value) (hw : w.Tree) (hsame : w.normal = value.normal)
    (hproto : outKey fs key ≠ "__proto__") :
    (Fields.get (outKey fs key) (transformFields (lookup rd dir) fs [] fs)).map normal =
      some (outValue (lookup rd dir) fs key w).normal := by
  have hkeys := fun k => mem_keys_front (o := k) (v := w) (Entries.mem_keys_of_lookup hkey)
  have hfront := h.reorder (tree_front hp hw) (normal_front hp hkey hsame hw)
  have hget := get_of_normal_eq hfront (outKey fs key)
  have hfind : ((front key w fs).find? fun x => outKey (front key w fs) x.1 = outKey fs key) = some (key, w) :=
    List.find?_cons_of_pos (by simpa using outKey_congr hkeys key)
  rw [← hget, get_transformFields List.not_mem_nil hproto, hfind]
  exact congrArg (fun x => some x.normal) (outValue_congr hkeys)

/-- A tree keeps its fields below a step where the expansion shows what is below it, whatever the
order of keys. -/
theorem KeepsFields.below {x : Payload} (h : KeepsFields rd dir p) (step : Step) (hx : x.Tree)
    (hat : p.at? [step] = some x)
    (hshown : ((transformNode (lookup rd dir) p).at? [step]).map normal = some (transformNode (lookup rd dir) x).normal)
    (hall : ∀ y, y.Tree → y.normal = x.normal →
      (transformNode (lookup rd dir) y).normal = (transformNode (lookup rd dir) x).normal) : KeepsFields rd dir x := by
  apply keepsFields_of (fun y hy => h.lookable y (collectIds_at hat y hy)) hx _ hall
  intro path fs hpath key value hkey hown
  have hpath' : p.at? (step :: path) = some (.obj fs) := by rw [at?_step, hat, Option.bind_some, hpath]
  obtain ⟨gs, w, hgs, hw, hsame⟩ := h.keeps hpath' hkey hown
  obtain ⟨u, hu, hsame'⟩ := Option.map_eq_some_iff.mp hshown
  rw [at?_step, hu, Option.bind_some] at hgs
  obtain ⟨gs', w', hgs', hw', hsame''⟩ := entry_at_normal hsame' hgs hw
  exact ⟨gs', w', hgs', hw', hsame.trans hsame''.symm⟩

theorem KeepsFields.item {xs : List Payload} (h : KeepsFields rd dir (.arr xs)) (hp : (arr xs).Tree) {x : Payload}
    (hx : x ∈ xs) : KeepsFields rd dir x := by
  obtain ⟨i, hi, rfl⟩ := List.getElem_of_mem hx
  have hitem : ∀ ys : List Payload, (transformItems (lookup rd dir) ys)[i]? =
      (ys[i]?).map (transformNode (lookup rd dir)) := by
    intro ys
    rw [transformItems_eq_map, List.getElem?_map]
  apply h.below (.item i) (treeItems_iff.mp hp _ hx)
  · simp [Payload.at?, hi]
  · simp [transformNode, Payload.at?, hitem, hi]
  · intro y hy hsame
    have htree : (arr (xs.set i y)).Tree := by
      refine treeItems_iff.mpr fun z hz => ?_
      rcases List.mem_or_eq_of_mem_set hz with hz | rfl
      · exact treeItems_iff.mp hp z hz
      · exact hy
    have hset : (arr (xs.set i y)).normal = (arr xs).normal := by
      rw [normal_arr_iff, List.map_set, hsame]
      apply List.ext_getElem? fun j => ?_
      by_cases hij : i = j
      · subst hij
        simp [hi]
      · simp [hij]
    have hsame' := normal_arr_iff.mp (h.reorder htree hset)
    have hget : ((transformItems (lookup rd dir) (xs.set i y)).map normal)[i]? =
        ((transformItems (lookup rd dir) xs).map normal)[i]? := by rw [hsame']
    simpa [hitem, hi] using hget

theorem KeepsFields.entry (h : KeepsFields rd dir (.obj fs)) (hp : (obj fs).Tree) (hkey : Fields.get key fs = some value)
    (hrule : ruleFor fs key = none) : KeepsFields rd dir value := by
  have htree : value.Tree := treeFields_iff.mp hp.2 _ (Entries.mem_of_lookup hkey)
  have hproto : outKey fs key ≠ "__proto__" := by
    intro hout
    rw [outKey_eq_proto hout, ruleFor_proto] at hrule
    cases hrule
  have hfirst : ∀ w : Payload, w.Tree → w.normal = value.normal →
      (Fields.get key (transformFields (lookup rd dir) fs [] fs)).map normal =
        some (transformNode (lookup rd dir) w).normal := by
    intro w hw hsame
    rw [← outValue_of_none hrule, ← h.first hp hkey hw hsame hproto, outKey_of_none hrule]
  apply h.below (.key key) htree
  · simp [Payload.at?, hkey]
  · simpa [transformNode, Payload.at?] using hfirst value htree rfl
  · intro y hy hsame
    have hboth := (hfirst y hy hsame).symm.trans (hfirst value htree rfl)
    injection hboth

/-- Where a tree has more than foreign keys, an object of it has another key. -/
theorem bare_of_at? (hv : v.Tree) (h : ∀ path fs key value, v.at? path = some (.obj fs) → Fields.get key fs = some value →
    fkRules.lookup key ≠ none) : Bare v := by
  induction v, hv using tree_induction with
  | scalar v _ hscalar => cases v <;> trivial
  | arr xs _ ih =>
    refine bareItems_iff.mpr fun x hx => (ih x hx).2 fun path fs key value hpath hkey => ?_
    obtain ⟨i, hi⟩ := List.getElem?_of_mem hx
    exact h (.item i :: path) fs key value (by simp [Payload.at?, hi, hpath]) hkey
  | obj fs hfs ih =>
    refine bareFields_iff.mpr fun x hx => ?_
    have hget : Fields.get x.1 fs = some x.2 := Entries.lookup_of_mem hfs.1 hx
    constructor
    · exact h [] fs x.1 x.2 rfl hget
    · refine (ih x hx).2 fun path gs key value hpath hkey => ?_
      exact h (.key x.1 :: path) gs key value (by simp [Payload.at?, hget, hpath]) hkey

theorem replacement_object (hpath : v.at? path = some (.obj fs)) : replacement look rule v = .null := by
  have hnone : toPositiveInt v = none := by
    cases v with
    | arr xs => rfl
    | obj gs => rfl
    | custom gs j => rfl
      | _ => exact (Scalar.no_object (by trivial) hpath).elim
  simp [replacement, hnone]

/-- What stands below a foreign key that is expanded is lost. -/
theorem KeepsFields.bare (h : KeepsFields rd dir (.obj fs)) (hp : (obj fs).Tree) (hkey : Fields.get key fs = some v)
    (hown : fkRules.lookup key = some rule) (hrule : ruleFor fs key = some rule) : Bare v := by
  have htree : v.Tree := treeFields_iff.mp hp.2 _ (Entries.mem_of_lookup hkey)
  refine bare_of_at? htree fun path gs other value hpath hother hnone => ?_
  have hpath' : (obj fs).at? (.key key :: path) = some (.obj gs) := by simp [Payload.at?, hkey, hpath]
  obtain ⟨gs', w, hgs', -⟩ := h.keeps hpath' hother hnone
  obtain ⟨hs, k, u, hobj, hstep, hu, hat⟩ : ∃ hs k u, transformNode (lookup rd dir) (.obj fs) = .obj hs ∧
      Step.key key = .key k ∧ Fields.get k hs = some u ∧ u.at? path = some (.obj gs') := by
    obtain ⟨_, _, _, _, hstep, -⟩ | hfields := at?_cons hgs'
    · cases hstep
    · exact hfields
  injection hstep with hstep
  injection hobj with hobj
  subst hstep hobj
  by_cases hself : rule.output key = key
  · have hout : outKey fs key = key := (outKey_of_rule hrule).trans hself
    have hproto : outKey fs key ≠ "__proto__" := by
      intro hout'
      rw [outKey_eq_proto hout', prototypeKeys_not_own _ (by decide)] at hown
      cases hown
    have hfirst := h.first hp hkey htree rfl hproto
    rw [hout, hu, outValue_of_rule hrule, replacement_object hpath] at hfirst
    injection hfirst with hfirst
    rw [null_of_normal_eq hfirst] at hat
    exact (show Scalar .null from trivial).no_object hat
  · have hnone : Fields.get key (transformFields (lookup rd dir) fs [] fs) = none :=
      get_unwritten fun x _ => unwritten_of_output_ne hown hrule hself
    rw [hnone] at hu
    cases hu

theorem null_of_transform (h : (transformNode look v).normal = .null) : v = .null := by
  have hnull := null_of_normal_eq h
  cases v with
  | null => rfl
  | _ => cases hnull

theorem ofText_tree (text : Option String) : (Payload.ofText text).Tree := by
  cases text <;> trivial

theorem filePayload_tree (file : FileRow) : (filePayload rd file).Tree := by
  simp [filePayload, Payload.Tree, TreeFields, Driver.bigint, ofText_tree]

theorem avatarPayload_tree (avatar : Option FileRow) : (avatarPayload rd avatar).Tree := by
  cases avatar with
  | none => trivial
  | some file =>
    by_cases hkey : file.objectKey = ""
    · simp [avatarPayload, hkey, Payload.Tree]
    · simp only [avatarPayload, hkey, if_false]
      exact filePayload_tree file

theorem userPayload_tree (row : UserRow) : (userPayload rd row).Tree := by
  simp [userPayload, Payload.Tree, TreeFields, ofText_tree, avatarPayload_tree]

theorem ownerPayload_tree (id : Nat) : (ownerPayload rd dir id).Tree := by
  unfold ownerPayload
  split
  · split
    · trivial
    · exact userPayload_tree _
  · trivial

theorem lookup_trees : Trees (lookup rd dir) := by
  intro entity id record h
  have hrecord := newest_isRecord (lookup_some h)
  cases entity with
  | user =>
    obtain ⟨row, -, -, -, rfl⟩ := hrecord
    exact userPayload_tree row
  | product =>
    obtain ⟨row, -, -, -, rfl⟩ := hrecord
    simp [productPayload, Payload.Tree, TreeFields, Driver.bigint, ownerPayload_tree]
  | message =>
    obtain ⟨row, -, -, rfl⟩ := hrecord
    simp [messagePayload, Payload.Tree, TreeFields, Driver.bigint, ofText_tree]
  | conversation =>
    obtain ⟨row, -, -, rfl⟩ := hrecord
    simp [conversationPayload, Payload.Tree, TreeFields, Driver.bigint]
  | file =>
    obtain ⟨row, -, -, rfl⟩ := hrecord
    exact filePayload_tree row
  | category =>
    obtain ⟨rows, -, row, -, -, rfl⟩ := hrecord
    cases hparent : row.parentId <;> simp [categoryPayload, Payload.Tree, TreeFields, Driver.bigint, hparent]

theorem own_of_rule (hown : fkRules.lookup key ≠ none) (hrule : ruleFor node key = some rule) :
    fkRules.lookup key = some rule := by
  obtain ⟨rule', hrule'⟩ := Option.ne_none_iff_exists'.mp hown
  rw [ruleFor_own hrule'] at hrule
  split at hrule
  · injection hrule with hrule
    rw [hrule', hrule]
  · cases hrule

theorem replacement_prototype (hnone : fkRules.lookup key = none) (hrule : ruleFor node key = some rule) :
    replacement look rule value = .null := by
  by_cases hkey : key ∈ prototypeKeys
  · rw [ruleFor_prototype hnone hkey] at hrule
    injection hrule with hrule
    subst hrule
    rfl
  · rw [ruleFor_none hnone hkey] at hrule
    cases hrule

/-- A tree that keeps its fields keeps its foreign keys apart. -/
theorem KeepsFields.separate (h : KeepsFields rd dir p) (hp : p.Tree) : Separate (lookup rd dir) p := by
  induction p, hp using tree_induction with
  | scalar p _ hscalar => cases p <;> trivial
  | arr xs hp ih => exact separateItems_iff.mpr fun x hx => (ih x hx).2 (h.item hp hx)
  | obj fs hp ih =>
    refine separateFields_iff.mpr fun x hx => ?_
    have hkey : Fields.get x.1 fs = some x.2 := Entries.lookup_of_mem hp.1 hx
    have htree : x.2.Tree := (ih x hx).1
    unfold Apart
    split
    · rename_i rule hrule
      split
      · rename_i hnone
        obtain ⟨gs, w, hgs, hw, hsame⟩ := h.keeps (show (obj fs).at? [] = _ from rfl) hkey hnone
        injection hgs with hgs
        injection hgs with hgs
        subst hgs
        have hproto : x.1 ≠ "__proto__" := by
          intro hx'
          rw [hx', get_proto] at hw
          cases hw
        have hout : outKey fs x.1 = x.1 := outKey_of_own_none hnone
        have hfirst := h.first hp hkey htree rfl (by rwa [hout])
        rw [hout, hw, outValue_of_rule hrule, replacement_prototype hnone hrule] at hfirst
        injection hfirst with hfirst
        exact ⟨hproto, null_of_transform (hsame.trans hfirst)⟩
      · rename_i hown
        have hown' : fkRules.lookup x.1 = some rule := own_of_rule hown hrule
        refine ⟨h.bare hp hkey hown' hrule, fun hnone other hother => ?_⟩
        have hplain : ruleFor fs (rule.output x.1) = none :=
          ruleFor_none hnone (output_plain (x.1, rule) (Entries.mem_of_lookup hown')).1
        have hmem : (rule.output x.1, other) ∈ fs := Entries.mem_of_lookup hother
        have hout : outKey fs (rule.output x.1) = rule.output x.1 := outKey_of_none hplain
        have hproto : rule.output x.1 ≠ "__proto__" := by
          intro hx'
          rw [hx', ruleFor_proto] at hplain
          cases hplain
        -- put first, either of the two entries is shown
        have hvalue := h.first hp hkey htree rfl (by rwa [outKey_of_rule hrule])
        have hrival := h.first hp hother (ih _ hmem).1 rfl (by rwa [hout])
        rw [outKey_of_rule hrule, outValue_of_rule hrule] at hvalue
        rw [hout, outValue_of_none hplain, hvalue] at hrival
        injection hrival with hrival
        have hsep := (ih _ hmem).2 (h.entry hp hother hplain)
        exact (shows_iff lookup_trees (ih _ hmem).1 hsep lookup_trees.replacement).mpr hrival.symm
    · rename_i hrule
      exact (ih x hx).2 (h.entry hp hkey hrule)

/-- The user of the account has been deleted. -/
def deletedMona : Directory where
  users := [{ id := 7, name := "Mona", phone := none, status := "active", avatar := none, contactInfo := none,
              rate := "0.00", deleted := true }]
  products := []
  messages := []
  conversations := []
  files := []
  categories := none

/-- A fault report without its user, and with the user that the list for admins puts next to `user_id`. -/
def faultFields : Fields := [("id", .str "3"), ("user_id", .str "7"), ("title", .str "No power")]

def listedFault : Payload :=
  .obj (faultFields ++ [("user", .obj [("id", .num 7), ("name", .str "Mona"), ("email", .null), ("phone", .null)])])

end Kayan.Fk
