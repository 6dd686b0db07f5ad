import Kayan.Fk.Lookup

/-!
# Values that read alike

Two values read alike when they agree entry by entry: equal scalars, items in the same
order, and the same keys, where a foreign key reads as the record that it refers to. The
comparison builds no expanded value; the main result says that it decides whether two
values are expanded to the same JSON.
-/
namespace Kayan.Fk
open Payload
variable {look : Resolver}

/-- Something to read: a value whose foreign keys are still ids, or a finished one. -/
inductive Cell where
  | live (value : Payload)
  | fixed (json : Json)

/-- The outermost constructor of what is read, over its parts. -/
inductive Shape (α : Type) where
  | null
  | bool (b : Bool)
  | num (n : ℚ)
  | str (s : String)
  | arr (items : List α)
  | obj (entries : List (String × α))

/-- The entries of an object, in the order in which they are read. -/
def entries (look : Resolver) (node : Fields) (seen : List String) :
    List (String × Payload) → List (String × Cell)
  | [] => []
  | (key, value) :: rest =>
    match ruleFor node key with
    | some rule =>
      if rule.output key ∈ seen ∨ rule.output key = "__proto__" then entries look node seen rest
      else (rule.output key, .fixed (replacement look rule value).json) ::
        entries look node (rule.output key :: seen) rest
    | none =>
      if key ∈ seen then entries look node seen rest
      else (key, .live value) :: entries look node (key :: seen) rest

namespace Cell

def shape (look : Resolver) : Cell → Shape Cell
  | live .null => .null
  | live (.bool b) => .bool b
  | live (.num n) => .num n
  | live (.str s) => .str s
  | live (.arr xs) => .arr (xs.map live)
  | live (.obj fs) => .obj (entries look fs [] fs)
  | live (.custom fs _) => .obj (entries look fs [] fs)
  | fixed .null => .null
  | fixed (.bool b) => .bool b
  | fixed (.num n) => .num n
  | fixed (.str s) => .str s
  | fixed (.arr xs) => .arr (xs.map fixed)
  | fixed (.obj fs) => .obj (fs.map fun x => (x.1, fixed x.2))

/-- The JSON that expansion makes of it. -/
def shown (look : Resolver) : Cell → Json
  | live p => (transformNode look p).json
  | fixed j => j

end Cell

namespace Shape
variable {α β : Type}

/-- Equal constructors and keys, with related parts. -/
def Rel (R : α → β → Prop) : Shape α → Shape β → Prop
  | null, null => True
  | bool a, bool b => a = b
  | num a, num b => a = b
  | str a, str b => a = b
  | arr xs, arr ys => List.Forall₂ R xs ys
  | obj fs, obj gs => List.Forall₂ (fun a b => a.1 = b.1 ∧ R a.2 b.2) fs gs
  | _, _ => False

/-- The JSON of a shape, given the JSON of its parts. -/
def json (f : α → Json) : Shape α → Json
  | null => .null
  | bool b => .bool b
  | num n => .num n
  | str s => .str s
  | arr xs => .arr (xs.map f)
  | obj fs => .obj (fs.map fun x => (x.1, f x.2))

theorem forall₂_of_map_eq {γ : Type} {f : α → γ} {g : β → γ} {R : α → β → Prop}
    (hR : ∀ a b, f a = g b → R a b) : ∀ {xs : List α} {ys : List β}, xs.map f = ys.map g → List.Forall₂ R xs ys
  | [], [], _ => .nil
  | x :: xs, y :: ys, h => by
    rw [List.map_cons, List.map_cons, List.cons.injEq] at h
    exact .cons (hR x y h.1) (forall₂_of_map_eq hR h.2)
  | [], _ :: _, h => by cases h
  | _ :: _, [], h => by cases h

theorem map_eq_of_forall₂ {γ : Type} {f : α → γ} {g : β → γ} {R : α → β → Prop} {xs : List α} {ys : List β}
    (h : List.Forall₂ R xs ys) (hR : ∀ a ∈ xs, ∀ b, R a b → f a = g b) : xs.map f = ys.map g := by
  induction h with
  | nil => rfl
  | cons hab _ ih =>
    rw [List.map_cons, List.map_cons, hR _ (List.mem_cons_self ..) _ hab,
      ih fun a ha => hR a (List.mem_cons_of_mem _ ha)]

end Shape

/-- Two cells read alike: a relation that the parts inherit holds of them. -/
def ReadAlike (look : Resolver) (c d : Cell) : Prop :=
  ∃ R : Cell → Cell → Prop, (∀ a b, R a b → (a.shape look).Rel R (b.shape look)) ∧ R c d

theorem jsonItems_eq_map : ∀ xs : List Payload, jsonItems xs = xs.map json
  | [] => rfl
  | x :: xs => congrArg (x.json :: ·) (jsonItems_eq_map xs)

/-- The entries that are read are those that expansion adds. -/
theorem jsonFields_transformFields (node : Fields) : ∀ (seen : List String) (fs : List (String × Payload)),
    jsonFields (transformFields look node seen fs) =
      (entries look node seen fs).map fun x => (x.1, x.2.shown look)
  | _, [] => rfl
  | seen, (key, value) :: rest => by
    have ih := fun seen => jsonFields_transformFields node seen rest
    cases hrule : ruleFor node key with
    | some rule =>
      simp only [transformFields, entries, hrule]
      split
      · exact ih seen
      · simp only [jsonFields, ih, List.map_cons, Cell.shown]
    | none =>
      simp only [transformFields, entries, hrule]
      split
      · exact ih seen
      · simp only [jsonFields, ih, List.map_cons, Cell.shown]

theorem shown_shape (c : Cell) : c.shown look = (c.shape look).json (Cell.shown look) := by
  cases c with
  | live p =>
    cases p with
    | arr xs =>
      simp [Cell.shown, Cell.shape, Shape.json, transformNode, json, jsonItems_eq_map,
        transformItems_eq_map]
    | obj fs => exact congrArg Json.obj (jsonFields_transformFields fs [] fs)
    | custom fs _ => exact congrArg Json.obj (jsonFields_transformFields fs [] fs)
    | _ => rfl
  | fixed j => cases j <;> simp [Cell.shown, Cell.shape, Shape.json, Function.comp_def]

/-- Values that read alike are expanded to the same JSON. -/
theorem ReadAlike.shown_eq {c d : Cell} (h : ReadAlike look c d) : c.shown look = d.shown look := by
  obtain ⟨R, hstep, hcd⟩ := h
  -- Induction on the size of the JSON of `c`: the parts of `c` show parts of that JSON.
  induction hn : sizeOf (c.shown look) using Nat.strong_induction_on generalizing c d with
  | _ n ih =>
    have hrel := hstep c d hcd
    have hc : c.shown look = _ := shown_shape c
    have hd : d.shown look = _ := shown_shape d
    rw [hc, hd]
    rw [hc] at hn
    generalize c.shape look = s at hrel hn
    generalize d.shape look = t at hrel
    cases s <;> cases t <;> simp only [Shape.Rel] at hrel
    case null.null => rfl
    case bool.bool => rw [hrel]
    case num.num => rw [hrel]
    case str.str => rw [hrel]
    case arr.arr xs ys =>
      refine congrArg Json.arr (Shape.map_eq_of_forall₂ hrel fun a ha b hab => ?_)
      have hmem : a.shown look ∈ xs.map (Cell.shown look) := List.mem_map_of_mem ha
      have hlt := List.sizeOf_lt_of_mem hmem
      exact ih _ (by subst hn; simp only [Shape.json, Json.arr.sizeOf_spec]; omega) hab rfl
    case obj.obj fs gs =>
      refine congrArg Json.obj (Shape.map_eq_of_forall₂ hrel fun a ha b hab => ?_)
      have hmem : (a.1, a.2.shown look) ∈ fs.map fun x => (x.1, x.2.shown look) :=
        List.mem_map_of_mem (f := fun x : String × Cell => (x.1, x.2.shown look)) ha
      have hlt := List.sizeOf_lt_of_mem hmem
      rw [Prod.mk.sizeOf_spec] at hlt
      have heq := ih _ (by subst hn; simp only [Shape.json, Json.obj.sizeOf_spec]; omega) hab.2 rfl
      rw [hab.1, heq]

/-- Reading alike is being expanded to the same JSON. -/
theorem readAlike_iff {c d : Cell} : ReadAlike look c d ↔ c.shown look = d.shown look := by
  refine ⟨ReadAlike.shown_eq, fun h => ⟨fun a b => a.shown look = b.shown look, fun a b hab => ?_, h⟩⟩
  have hab : (a.shape look).json (Cell.shown look) = (b.shape look).json (Cell.shown look) := by
    rw [← shown_shape, ← shown_shape]
    exact hab
  generalize a.shape look = s at hab
  generalize b.shape look = t at hab
  cases s <;> cases t <;> simp only [Shape.json, reduceCtorEq, Json.bool.injEq, Json.num.injEq,
    Json.str.injEq, Json.arr.injEq, Json.obj.injEq] at hab
  case null.null => trivial
  case bool.bool => exact hab
  case num.num => exact hab
  case str.str => exact hab
  case arr.arr => exact Shape.forall₂_of_map_eq (fun _ _ h => h) hab
  case obj.obj => exact Shape.forall₂_of_map_eq (fun _ _ h => Prod.mk.injEq .. ▸ h) hab

/-- An object reads like no string, number, boolean, array or `null`. -/
theorem ReadAlike.obj {fs : Fields} {p : Payload} (h : ReadAlike look (.live (.obj fs)) (.live p)) :
    (∃ gs, p = .obj gs) ∨ ∃ gs j, p = .custom gs j := by
  obtain ⟨R, hstep, hR⟩ := h
  have hrel := hstep _ _ hR
  cases p with
  | obj gs => exact Or.inl ⟨gs, rfl⟩
  | custom gs j => exact Or.inr ⟨gs, j, rfl⟩
  | _ => exact hrel.elim

end Kayan.Fk
