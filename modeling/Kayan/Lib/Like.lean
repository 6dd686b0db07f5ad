import Mathlib.Data.List.Infix

/-!
# `LIKE` patterns

Patterns with `%`, `_` and the escape character `\`, and matching without regard to case. A pattern
made of an escaped text between two `%` matches what contains the text.
-/
namespace Like

def special (c : Char) : Bool := c = '%' || c = '_' || c = '\\'

/-- One part of a pattern. -/
inductive Token where
  | lit (c : Char)
  | one
  | many
  deriving DecidableEq

/-- The parts of a pattern. A pattern must not end with the escape character. -/
def tokens : List Char → Option (List Token)
  | [] => some []
  | ['\\'] => none
  | '\\' :: c :: rest => (tokens rest).map (.lit c :: ·)
  | '%' :: rest => (tokens rest).map (.many :: ·)
  | '_' :: rest => (tokens rest).map (.one :: ·)
  | c :: rest => (tokens rest).map (.lit c :: ·)

def accepts : List Token → List Char → Bool
  | [], text => text.isEmpty
  | .lit c :: rest, text => text.head? = some c && accepts rest text.tail
  | .one :: rest, text => !text.isEmpty && accepts rest text.tail
  | .many :: rest, text => text.tails.any (accepts rest)

/-- `text LIKE pattern ESCAPE '\'` holds. -/
inductive Matches : List Char → List Char → Prop
  | nil : Matches [] []
  | escaped {c : Char} {pattern text : List Char} (h : Matches pattern text) :
      Matches ('\\' :: c :: pattern) (c :: text)
  | one {c : Char} {pattern text : List Char} (h : Matches pattern text) : Matches ('_' :: pattern) (c :: text)
  | many {pattern front text : List Char} (h : Matches pattern text) : Matches ('%' :: pattern) (front ++ text)
  | lit {c : Char} {pattern text : List Char} (hc : special c = false) (h : Matches pattern text) :
      Matches (c :: pattern) (c :: text)

/-- `text ILIKE pattern ESCAPE '\'`; `none` is an error. -/
def ilike (fold : Char → Char) (pattern text : List Char) : Option Bool :=
  (tokens (pattern.map fold)).map fun parts => accepts parts (text.map fold)

/-- Puts the escape character before each special character. -/
def escape (text : List Char) : List Char := text.flatMap fun c => if special c then ['\\', c] else [c]

/-- A case folding changes no special character, and makes none. -/
structure Folding where
  fold : Char → Char
  keeps : ∀ c, special c = true → fold c = c
  special_fold : ∀ c, special (fold c) = special c

/-- Texts without case. -/
def Folding.none : Folding where
  fold := id
  keeps := fun _ _ => rfl
  special_fold := fun _ => rfl

theorem special_iff {c : Char} : special c = true ↔ c = '%' ∨ c = '_' ∨ c = '\\' := by
  simp [special, or_assoc]

theorem tokens_plain {c : Char} (h : special c = false) (rest : List Char) :
    tokens (c :: rest) = (tokens rest).map (.lit c :: ·) := by
  have hne : ¬ (c = '%' ∨ c = '_' ∨ c = '\\') := by
    rw [← special_iff, h]
    exact Bool.false_ne_true
  rw [tokens]
  all_goals simp_all

/-- An escaped text stands for itself. -/
theorem tokens_escape (text rest : List Char) :
    tokens (escape text ++ rest) = (tokens rest).map (text.map .lit ++ ·) := by
  induction text with
  | nil => simp [escape]
  | cons c text ih =>
    have hstep : tokens (escape (c :: text) ++ rest) = (tokens (escape text ++ rest)).map (.lit c :: ·) := by
      cases hc : special c with
      | true => simp [escape, hc, tokens]
      | false => simpa [escape, hc] using tokens_plain hc _
    rw [hstep, ih, Option.map_map]
    rfl

theorem mem_escape {c : Char} (h : c ≠ '\\') (text : List Char) : c ∈ escape text ↔ c ∈ text := by
  simp only [escape, List.mem_flatMap]
  constructor
  · rintro ⟨d, hd, hc⟩
    split at hc
    · simp only [List.mem_cons, List.not_mem_nil, or_false, h, false_or] at hc
      exact hc ▸ hd
    · exact List.mem_singleton.mp hc ▸ hd
  · intro hc
    refine ⟨c, hc, ?_⟩
    split <;> simp

theorem map_escape (f : Folding) (text : List Char) : (escape text).map f.fold = escape (text.map f.fold) := by
  have hslash : f.fold '\\' = '\\' := f.keeps _ rfl
  induction text with
  | nil => rfl
  | cons c text ih =>
    have hfront : (if special c then ['\\', c] else [c]).map f.fold =
        if special (f.fold c) then ['\\', f.fold c] else [f.fold c] := by
      rw [f.special_fold]
      split <;> simp [hslash]
    rw [escape, List.flatMap_cons, List.map_append, hfront]
    exact congrArg _ ih

theorem accepts_lits {lits : List Char} {rest : List Token} {text : List Char} :
    accepts (lits.map .lit ++ rest) text = true ↔ ∃ tail, text = lits ++ tail ∧ accepts rest tail = true := by
  induction lits generalizing text with
  | nil => simp
  | cons c lits ih =>
    rw [List.map_cons, List.cons_append, accepts, Bool.and_eq_true, ih, decide_eq_true_eq]
    constructor
    · rintro ⟨hhead, tail, htail, hrest⟩
      refine ⟨tail, ?_, hrest⟩
      rw [List.cons_append, ← htail]
      exact (List.cons_head?_tail hhead).symm
    · rintro ⟨tail, rfl, hrest⟩
      exact ⟨rfl, tail, rfl, hrest⟩

theorem accepts_many {rest : List Token} {text : List Char} :
    accepts (.many :: rest) text = true ↔ ∃ tail, tail <:+ text ∧ accepts rest tail = true := by
  simp [accepts, List.any_eq_true, List.mem_tails]

theorem accepts_lit {c : Char} {rest : List Token} {text : List Char} :
    accepts (.lit c :: rest) text = true ↔ ∃ tail, text = c :: tail ∧ accepts rest tail = true :=
  @accepts_lits [c] rest text

theorem accepts_one {rest : List Token} {text : List Char} :
    accepts (.one :: rest) text = true ↔ ∃ c tail, text = c :: tail ∧ accepts rest tail = true := by
  cases text with
  | nil => simp [accepts]
  | cons c text => simp [accepts]

/-- The parts of a pattern accept what the pattern matches. -/
theorem accepts_iff_matches {pattern text : List Char} {parts : List Token} (h : tokens pattern = some parts) :
    accepts parts text = true ↔ Matches pattern text := by
  induction pattern using tokens.induct generalizing parts text with
  | case1 =>
    cases h
    constructor
    · intro ht
      rw [List.isEmpty_iff.mp ht]
      exact .nil
    · rintro ⟨⟩
      rfl
  | case2 => cases h
  | case3 c rest ih =>
    obtain ⟨parts, hrest, rfl⟩ := Option.map_eq_some_iff.mp h
    rw [accepts_lit]
    constructor
    · rintro ⟨tail, rfl, ht⟩
      exact .escaped ((ih hrest).mp ht)
    · intro hm
      cases hm with
      | escaped hm => exact ⟨_, rfl, (ih hrest).mpr hm⟩
      | lit hc hm => cases hc
  | case4 rest ih =>
    obtain ⟨parts, hrest, rfl⟩ := Option.map_eq_some_iff.mp h
    rw [accepts_many]
    constructor
    · rintro ⟨tail, ⟨front, rfl⟩, ht⟩
      exact .many ((ih hrest).mp ht)
    · intro hm
      cases hm with
      | many hm => exact ⟨_, List.suffix_append _ _, (ih hrest).mpr hm⟩
      | lit hc hm => cases hc
  | case5 rest ih =>
    obtain ⟨parts, hrest, rfl⟩ := Option.map_eq_some_iff.mp h
    rw [accepts_one]
    constructor
    · rintro ⟨c, tail, rfl, ht⟩
      exact .one ((ih hrest).mp ht)
    · intro hm
      cases hm with
      | one hm => exact ⟨_, _, rfl, (ih hrest).mpr hm⟩
      | lit hc hm => cases hc
  | case6 c rest hend hslash hmany hone ih =>
    have hplain : special c = false := by
      apply Bool.eq_false_iff.mpr
      intro hc
      rcases special_iff.mp hc with rfl | rfl | rfl
      · exact hmany rfl
      · exact hone rfl
      · cases rest with
        | nil => exact hend rfl rfl
        | cons d rest => exact hslash d rest rfl rfl
    rw [tokens_plain hplain] at h
    obtain ⟨parts, hrest, rfl⟩ := Option.map_eq_some_iff.mp h
    rw [accepts_lit]
    constructor
    · rintro ⟨tail, rfl, ht⟩
      exact .lit hplain ((ih hrest).mp ht)
    · intro hm
      cases hm with
      | lit hc hm => exact ⟨_, rfl, (ih hrest).mpr hm⟩
      | _ => cases hplain

theorem accepts_all (text : List Char) : accepts [.many] text = true :=
  accepts_many.mpr ⟨[], List.nil_suffix, rfl⟩

theorem accepts_contains {lits text : List Char} :
    accepts (.many :: (lits.map .lit ++ [.many])) text = true ↔ lits <:+: text := by
  rw [accepts_many]
  constructor
  · rintro ⟨tail, hsuffix, htail⟩
    obtain ⟨rest, rfl, -⟩ := accepts_lits.mp htail
    exact (List.prefix_append lits rest).isInfix.trans hsuffix.isInfix
  · rintro ⟨front, back, rfl⟩
    refine ⟨lits ++ back, ⟨front, (List.append_assoc ..).symm⟩, ?_⟩
    exact accepts_lits.mpr ⟨back, rfl, accepts_all back⟩

theorem tokens_contains (part : List Char) :
    tokens ('%' :: (escape part ++ ['%'])) = some (.many :: (part.map .lit ++ [.many])) := by
  rw [tokens, tokens_escape]
  rfl

theorem map_contains (f : Folding) (part : List Char) :
    ('%' :: (escape part ++ ['%'])).map f.fold = '%' :: (escape (part.map f.fold) ++ ['%']) := by
  have hmany : f.fold '%' = '%' := f.keeps _ rfl
  rw [List.map_cons, List.map_append, map_escape, List.map_singleton, hmany]

/-- An escaped text between two `%` matches what contains the text. -/
theorem matches_contains (part text : List Char) :
    Matches ('%' :: (escape part ++ ['%'])) text ↔ part <:+: text := by
  rw [← accepts_iff_matches (tokens_contains part), accepts_contains]

/-- The same up to case. -/
theorem ilike_contains (f : Folding) (part text : List Char) :
    ilike f.fold ('%' :: (escape part ++ ['%'])) text = some (decide (part.map f.fold <:+: text.map f.fold)) := by
  rw [ilike, map_contains, tokens_contains, Option.map_some, Option.some_inj, Bool.eq_iff_iff, accepts_contains,
    decide_eq_true_eq]

end Like
