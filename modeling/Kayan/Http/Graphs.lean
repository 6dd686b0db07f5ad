import Kayan.Http.Logging

/-!
# Logged graphs

`sanitizeForLog` on objects and arrays that point to one another, also in circles: it ends, and
what it returns is small.
-/
namespace Kayan.Http

/-- A value that is logged as it is: `undefined`, or a `NaN`, an infinity, a bigint, a symbol or a
function, or one of those that JSON has as well. -/
inductive Atom where
  | null
  | undefined
  | bool (b : Bool)
  | num (n : ℚ)
  | other (n : Nat)

inductive Slot where
  | atom (a : Atom)
  | str (s : JsString)
  | ref (i : Nat)

/-- An array, or an object with its own enumerable properties. -/
inductive Node where
  | arr (xs : List Slot)
  | obj (fs : List (String × Slot))

/-- The arrays and objects that there are. -/
abbrev Heap := Nat → Node

/-- What is logged. -/
inductive Logged where
  | atom (a : Atom)
  | str (s : JsString)
  | arr (xs : List Logged)
  | obj (fs : List (String × Logged))

section Sanitizing

def limitItems (n : Nat) (items : List Logged) : List Logged :=
  if maxArrayLength < n then items ++ [.str (ascii (truncationMark (n - maxArrayLength)))] else items

/-- The entries that `out` gets: assigning to `__proto__` adds none. -/
def limitEntries (fs : List (String × Slot)) : List (String × Slot) :=
  (fs.take maxObjectKeys).filter fun x => x.1 ≠ "__proto__"

/-- `sanitizeForLog(value, depth)`. -/
def Heap.sanitizeForLog (heap : Heap) (value : Slot) (depth : Nat) : Logged :=
  match value with
  | .atom a => .atom a
  | .str s => .str (shorten s)
  | .ref i =>
    if maxDepth ≤ depth then .str (ascii "[depth-limited]")
    else
      match heap i with
      | .arr xs =>
        .arr (limitItems xs.length ((xs.take maxArrayLength).map fun item => heap.sanitizeForLog item (depth + 1)))
      | .obj fs =>
        .obj ((limitEntries fs).map fun x =>
          (x.1, if isSensitive x.1 then .str (ascii "[REDACTED]") else heap.sanitizeForLog x.2 (depth + 1)))
termination_by maxDepth - depth

end Sanitizing

section Sizes

mutual

/-- How deep arrays and objects stand in one another. -/
def Logged.nesting : Logged → Nat
  | .atom _ => 0
  | .str _ => 0
  | .arr xs => itemsNesting xs + 1
  | .obj fs => entriesNesting fs + 1
termination_by structural x => x

def itemsNesting : List Logged → Nat
  | [] => 0
  | x :: xs => max x.nesting (itemsNesting xs)
termination_by structural x => x

def entriesNesting : List (String × Logged) → Nat
  | [] => 0
  | (_, x) :: fs => max x.nesting (entriesNesting fs)
termination_by structural x => x

end

/-- The first value is the second one, or inside it. -/
inductive Part : Logged → Logged → Prop where
  | self {t : Logged} : Part t t
  | item {t x : Logged} {xs : List Logged} (hx : x ∈ xs) (h : Part t x) : Part t (.arr xs)
  | entry {t : Logged} {x : String × Logged} {fs : List (String × Logged)} (hx : x ∈ fs) (h : Part t x.2) :
      Part t (.obj fs)

/-- The second value can be reached from the first. -/
inductive Reaches (heap : Heap) : Slot → Slot → Prop where
  | self {x : Slot} : Reaches heap x x
  | item {i : Nat} {xs : List Slot} {x y : Slot} (hi : heap i = .arr xs) (hx : x ∈ xs) (h : Reaches heap x y) :
      Reaches heap (.ref i) y
  | entry {i : Nat} {fs : List (String × Slot)} {x : String × Slot} {y : Slot} (hi : heap i = .obj fs)
      (hx : x ∈ fs) (h : Reaches heap x.2 y) : Reaches heap (.ref i) y

/-- The string, or a prefix of it with the number of the characters that are cut off. -/
def Shortened (s out : JsString) : Prop :=
  (s.length ≤ maxStringLength ∧ out = s) ∨
    (maxStringLength < s.length ∧
      out = s.take maxStringLength ++ ascii ("...[truncated:" ++ toString (s.length - maxStringLength) ++ "]"))

/-- The texts that stand for what is left out. -/
def Mark (out : JsString) : Prop :=
  out = ascii "[depth-limited]" ∨ out = ascii "[REDACTED]" ∨ ∃ n, 0 < n ∧ out = ascii (truncationMark n)

/-- A logged value is as small as it has to be; its strings and keys are those of the input. -/
def Fits (heap : Heap) (value : Slot) : Logged → Prop
  | .atom a => Reaches heap value (.atom a)
  | .str out => Mark out ∨ ∃ s, Reaches heap value (.str s) ∧ Shortened s out
  | .arr xs => xs.length ≤ maxArrayLength + 1
  | .obj fs => fs.length ≤ maxObjectKeys ∧
    ∀ x ∈ fs, ∃ i gs, Reaches heap value (.ref i) ∧ heap i = .obj gs ∧ x.1 ∈ gs.map Prod.fst

end Sizes

section Bounds
variable {heap : Heap} {value x : Slot} {depth i n : Nat} {t u : Logged} {xs : List Logged}
  {fs : List (String × Logged)}

theorem itemsNesting_le (h : ∀ x ∈ xs, x.nesting ≤ n) : itemsNesting xs ≤ n := by
  induction xs with
  | nil => exact Nat.zero_le _
  | cons x xs ih =>
    apply Nat.max_le.mpr
    exact ⟨h x List.mem_cons_self, ih fun y hy => h y (List.mem_cons_of_mem _ hy)⟩

theorem entriesNesting_le (h : ∀ x ∈ fs, x.2.nesting ≤ n) : entriesNesting fs ≤ n := by
  induction fs with
  | nil => exact Nat.zero_le _
  | cons x fs ih =>
    apply Nat.max_le.mpr
    exact ⟨h x List.mem_cons_self, ih fun y hy => h y (List.mem_cons_of_mem _ hy)⟩

theorem mem_limitItems {items : List Logged} (h : t ∈ limitItems n items) :
    t ∈ items ∨ ∃ m, 0 < m ∧ t = .str (ascii (truncationMark m)) := by
  unfold limitItems at h
  split at h
  · rename_i hn
    rcases List.mem_append.mp h with h | h
    · exact Or.inl h
    · exact Or.inr ⟨n - maxArrayLength, by omega, List.mem_singleton.mp h⟩
  · exact Or.inl h

theorem length_limitItems {items : List Logged} (h : items.length ≤ maxArrayLength) :
    (limitItems n items).length ≤ maxArrayLength + 1 := by
  unfold limitItems
  split
  · rw [List.length_append, List.length_singleton]
    omega
  · omega

/-- Each level of the input goes one level down, and there are `maxDepth` of them. -/
theorem nesting_le : (heap.sanitizeForLog value depth).nesting ≤ maxDepth - depth := by
  fun_induction Heap.sanitizeForLog heap value depth with
  | case1 depth a => exact Nat.zero_le _
  | case2 depth s => exact Nat.zero_le _
  | case3 depth i hd => exact Nat.zero_le _
  | case4 depth i hd xs hi ih =>
    have hitems : ∀ x ∈ limitItems xs.length
        ((xs.take maxArrayLength).map fun item => heap.sanitizeForLog item (depth + 1)),
        x.nesting ≤ maxDepth - (depth + 1) := by
      intro x hx
      rcases mem_limitItems hx with hx | ⟨m, -, rfl⟩
      · obtain ⟨item, -, rfl⟩ := List.mem_map.mp hx
        exact ih item
      · exact Nat.zero_le _
    have hle := itemsNesting_le hitems
    simp only [Logged.nesting]
    omega
  | case5 depth i hd fs hi ih =>
    have hentries : ∀ x ∈ (limitEntries fs).map fun x =>
        (x.1, if isSensitive x.1 then .str (ascii "[REDACTED]") else heap.sanitizeForLog x.2 (depth + 1)),
        x.2.nesting ≤ maxDepth - (depth + 1) := by
      intro y hy
      obtain ⟨x, -, rfl⟩ := List.mem_map.mp hy
      dsimp only
      split
      · exact Nat.zero_le _
      · exact ih x
    have hle := entriesNesting_le hentries
    simp only [Logged.nesting]
    omega

/-- What fits for a value that is reached fits for where it is reached from. -/
theorem Fits.reached (hr : ∀ y, Reaches heap x y → Reaches heap value y) (h : Fits heap x t) :
    Fits heap value t := by
  cases t with
  | atom a => exact hr _ h
  | str out =>
    rcases h with hm | ⟨s, hs, hout⟩
    · exact Or.inl hm
    · exact Or.inr ⟨s, hr _ hs, hout⟩
  | arr xs => exact h
  | obj fs =>
    refine ⟨h.1, fun y hy => ?_⟩
    obtain ⟨i, gs, hi, hgs, hk⟩ := h.2 y hy
    exact ⟨i, gs, hr _ hi, hgs, hk⟩

theorem shortened_shorten {s : JsString} : Shortened s (shorten s) := by
  by_cases h : maxStringLength < s.length
  · refine Or.inr ⟨h, ?_⟩
    rw [shorten, if_pos h]
    simp only [truncationMark, String.append_assoc]
    rfl
  · exact Or.inl ⟨Nat.le_of_not_lt h, by rw [shorten, if_neg h]⟩

/-- Every part of what is logged fits. -/
theorem fits_of_part (h : Part t (heap.sanitizeForLog value depth)) : Fits heap value t := by
  fun_induction Heap.sanitizeForLog heap value depth generalizing t with
  | case1 depth a =>
    cases h
    exact .self
  | case2 depth s =>
    cases h
    exact Or.inr ⟨s, .self, shortened_shorten⟩
  | case3 depth i hd =>
    cases h
    exact Or.inl (Or.inl rfl)
  | case4 depth i hd xs hi ih =>
    cases h with
    | self => exact length_limitItems (by simp)
    | item hx h =>
      rcases mem_limitItems hx with hx | ⟨m, hm, rfl⟩
      · obtain ⟨item, hitem, rfl⟩ := List.mem_map.mp hx
        exact (ih item h).reached fun y hy => .item hi (List.mem_of_mem_take hitem) hy
      · cases h
        exact Or.inl (Or.inr (Or.inr ⟨m, hm, rfl⟩))
  | case5 depth i hd fs hi ih =>
    have hlogged : ∀ x ∈ limitEntries fs, x ∈ fs :=
      fun x hx => List.mem_of_mem_take (List.mem_of_mem_filter hx)
    cases h with
    | self =>
      constructor
      · rw [List.length_map]
        exact Nat.le_trans (List.length_filter_le _ _) (List.length_take_le _ _)
      · intro y hy
        obtain ⟨x, hx, rfl⟩ := List.mem_map.mp hy
        exact ⟨i, fs, .self, hi, List.mem_map_of_mem (hlogged x hx)⟩
    | entry hy h =>
      obtain ⟨x, hx, rfl⟩ := List.mem_map.mp hy
      dsimp only at h
      split at h
      · cases h
        exact Or.inl (Or.inr (Or.inl rfl))
      · exact (ih x h).reached fun y hr => .entry hi (hlogged x hx) hr

/-- What is logged of any value, also of a cyclic one, is bounded in depth and width, and so are the
strings in it, though not the keys. -/
theorem sanitizeForLog_bounded (heap : Heap) (value : Slot) :
    (heap.sanitizeForLog value 0).nesting ≤ maxDepth ∧
      ∀ t, Part t (heap.sanitizeForLog value 0) → Fits heap value t :=
  ⟨nesting_le, fun _ => fits_of_part⟩

end Bounds

section Trees

mutual

/-- What is logged of a value of a request body. -/
def Value.logged : Value → Logged
  | .null => .atom .null
  | .bool b => .atom (.bool b)
  | .num n => .atom (.num n)
  | .str s => .str s
  | .arr xs => .arr (itemsLogged xs)
  | .obj fs => .obj (entriesLogged fs)
termination_by structural x => x

def itemsLogged : List Value → List Logged
  | [] => []
  | x :: xs => x.logged :: itemsLogged xs
termination_by structural x => x

def entriesLogged : List (String × Value) → List (String × Logged)
  | [] => []
  | (k, x) :: fs => (k, x.logged) :: entriesLogged fs
termination_by structural x => x

end

mutual

/-- The heap holds the tree at the slot. -/
def Holds (heap : Heap) : Slot → Value → Prop
  | .atom .null, .null => True
  | .atom (.bool b), .bool c => b = c
  | .atom (.num m), .num n => m = n
  | .str s, .str t => s = t
  | .ref i, .arr ys => ∃ xs, heap i = .arr xs ∧ HoldsItems heap xs ys
  | .ref i, .obj gs => ∃ fs, heap i = .obj fs ∧ HoldsEntries heap fs gs
  | _, _ => False
termination_by structural _ x => x

def HoldsItems (heap : Heap) : List Slot → List Value → Prop
  | [], [] => True
  | x :: xs, y :: ys => Holds heap x y ∧ HoldsItems heap xs ys
  | _, _ => False
termination_by structural _ x => x

def HoldsEntries (heap : Heap) : List (String × Slot) → List (String × Value) → Prop
  | [], [] => True
  | (k, x) :: fs, (l, y) :: gs => (k = l ∧ Holds heap x y) ∧ HoldsEntries heap fs gs
  | _, _ => False
termination_by structural _ x => x

end

variable {heap : Heap} {value : Slot} {depth : Nat} {v : Value}

theorem itemsLogged_eq_map {xs : List Value} : itemsLogged xs = xs.map Value.logged := by
  induction xs with
  | nil => rfl
  | cons x xs ih => rw [itemsLogged, List.map_cons, ih]

theorem entriesLogged_eq_map {fs : List (String × Value)} :
    entriesLogged fs = fs.map fun x => (x.1, x.2.logged) := by
  induction fs with
  | nil => rfl
  | cons x fs ih => rw [entriesLogged, List.map_cons, ih]

theorem holdsItems_iff {xs : List Slot} {ys : List Value} :
    HoldsItems heap xs ys ↔ List.Forall₂ (Holds heap) xs ys := by
  induction ys generalizing xs with
  | nil => cases xs <;> simp [HoldsItems]
  | cons y ys ih =>
    cases xs with
    | nil => simp [HoldsItems]
    | cons x xs => rw [HoldsItems, List.forall₂_cons, ih]

theorem holdsEntries_iff {fs : List (String × Slot)} {gs : Members} :
    HoldsEntries heap fs gs ↔ List.Forall₂ (fun x y => x.1 = y.1 ∧ Holds heap x.2 y.2) fs gs := by
  induction gs generalizing fs with
  | nil => cases fs <;> simp [HoldsEntries]
  | cons y gs ih =>
    cases fs with
    | nil => simp [HoldsEntries]
    | cons x fs => rw [HoldsEntries, List.forall₂_cons, ih]

theorem map_eq_of_forall₂ {α β γ : Type} {R : α → β → Prop} {f : α → γ} {g : β → γ} {xs : List α}
    {ys : List β} (h : List.Forall₂ R xs ys) (hfg : ∀ x y, R x y → f x = g y) : xs.map f = ys.map g := by
  rw [← List.forall₂_eq_eq_eq, List.forall₂_map_left_iff, List.forall₂_map_right_iff]
  exact h.imp hfg

/-- The same entries are logged of an object and of the tree it holds. -/
theorem limitEntries_forall₂ {fs : List (String × Slot)} {gs : Members}
    (h : List.Forall₂ (fun x y => x.1 = y.1 ∧ Holds heap x.2 y.2) fs gs) :
    List.Forall₂ (fun x y => x.1 = y.1 ∧ Holds heap x.2 y.2) (limitEntries fs) (loggedMembers gs) := by
  refine List.rel_filter (fun x y hxy => ?_) (List.forall₂_take maxObjectKeys h)
  dsimp only
  rw [hxy.1]

theorem map_withMark {n : Nat} {xs : List Value} :
    (withMark n xs).map Value.logged = limitItems n (xs.map Value.logged) := by
  unfold withMark limitItems
  split
  · rw [List.map_append]
    rfl
  · rfl

/-- On a tree in the heap the function is that of request bodies. -/
theorem sanitizeForLog_tree (h : Holds heap value v) :
    heap.sanitizeForLog value depth = (sanitizeForLog v depth).logged := by
  unfold sanitizeForLog
  generalize hl : maxDepth - depth = levels
  induction levels generalizing value v depth with
  | zero =>
    have hd : maxDepth ≤ depth := by omega
    rcases value with (_ | _ | _ | _ | _) | _ | _ <;> cases v <;> simp only [Holds] at h
    all_goals unfold Heap.sanitizeForLog
    all_goals simp [sanitizeWithin, Value.logged, hd, h]
  | succ levels ih =>
    have hd : ¬ maxDepth ≤ depth := by omega
    have hl : maxDepth - (depth + 1) = levels := by omega
    rcases value with (_ | _ | _ | _ | _) | _ | i <;> cases v <;> simp only [Holds] at h
    case ref.arr ys =>
      obtain ⟨xs, hi, hxs⟩ := h
      have hitems := holdsItems_iff.mp hxs
      have hmap : (xs.take maxArrayLength).map (fun item => heap.sanitizeForLog item (depth + 1)) =
          (ys.take maxArrayLength).map fun y => (sanitizeWithin levels y).logged :=
        map_eq_of_forall₂ (List.forall₂_take maxArrayLength hitems) fun x y hxy => ih hxy hl
      unfold Heap.sanitizeForLog
      simp only [hd, if_false, hi, hmap, sanitizeWithin, Value.logged, itemsLogged_eq_map, hitems.length_eq,
        map_withMark, List.map_map, Function.comp_def]
    case ref.obj gs =>
      obtain ⟨fs, hi, hfs⟩ := h
      have hentries := limitEntries_forall₂ (holdsEntries_iff.mp hfs)
      have hmap : (limitEntries fs).map (fun x => (x.1, if isSensitive x.1 then Logged.str (ascii "[REDACTED]")
            else heap.sanitizeForLog x.2 (depth + 1))) =
          (loggedMembers gs).map fun y => (y.1, (if isSensitive y.1 then Value.str (ascii "[REDACTED]")
            else sanitizeWithin levels y.2).logged) := by
        refine map_eq_of_forall₂ hentries fun x y hxy => ?_
        rw [hxy.1, ih hxy.2 hl, apply_ite Value.logged]
        rfl
      unfold Heap.sanitizeForLog
      simp only [hd, if_false, hi, hmap, sanitizeWithin, Value.logged, entriesLogged_eq_map, List.map_map,
        Function.comp_def]
    all_goals unfold Heap.sanitizeForLog
    all_goals simp [sanitizeWithin, Value.logged, h]

end Trees

section Keys
variable {n : Nat}

/-- A key of so many letters. -/
def longKey (n : Nat) : String := String.ofList (List.replicate n 'a')

/-- An object whose one key is logged in full. -/
def longEntry (n : Nat) : Heap := fun _ => .obj [(longKey n, .atom .null)]

theorem longKey_not_shortened {s : JsString} (h : maxStringLength < n) : ¬ Shortened s (ascii (longKey n)) := by
  have hkey : ascii (longKey n) = List.replicate n 97 := by
    rw [ascii, longKey, String.toList_ofList, List.map_replicate]
    rfl
  rw [hkey]
  rintro (⟨hs, hout⟩ | ⟨-, hout⟩)
  · rw [← hout, List.length_replicate] at hs
    omega
  · -- A mark ends with a bracket.
    have hbracket : (93 : Nat) ∈ List.replicate n 97 := by
      rw [hout]
      simp [ascii]
    exact absurd (List.eq_of_mem_replicate hbracket) (by decide)

theorem longEntry_logged (h : maxStringLength < n) :
    ∃ x, Heap.sanitizeForLog (longEntry n) (.ref 0) 0 = .obj [(longKey n, x)] := by
  have hkept : limitEntries [(longKey n, .atom .null)] = [(longKey n, .atom .null)] := by
    have hne : longKey n ≠ "__proto__" := by
      intro he
      have hlen := congrArg (fun s => s.toList.length) he
      simp [longKey] at hlen
      simp [hlen, maxStringLength] at h
    simp [limitEntries, maxObjectKeys, hne]
  rw [Heap.sanitizeForLog, if_neg (by decide)]
  simp only [longEntry, hkept]
  exact ⟨_, rfl⟩

/-- A key is a string of the input that is not cut off. -/
theorem longKey_logged : ¬ ∀ (heap : Heap) (value : Slot) fs, Part (.obj fs) (heap.sanitizeForLog value 0) →
    ∀ x ∈ fs, ∃ s, Shortened s (ascii x.1) := by
  intro h
  obtain ⟨x, hx⟩ := longEntry_logged (n := 301) (by decide)
  obtain ⟨s, hs⟩ := h (longEntry 301) (.ref 0) [(longKey 301, x)] (hx ▸ .self) (longKey 301, x) List.mem_cons_self
  exact longKey_not_shortened (by decide) hs

end Keys

end Kayan.Http
