import Mathlib.Data.List.Basic
import Mathlib.Data.List.Range

/-!
# Placeholders

The placeholders `$1`, `$2`, ... in the text of a statement, as PostgreSQL reads them in texts without
comments and dollar quotes, and the parameters in their places. A text whose placeholders are
numbered from one piece to the next gets each parameter in its piece.
-/
namespace Placeholders

/-- Where the reader is: between words or in one, between quotes, after a `$`, or in a number. -/
inductive Mode where
  | text (word : Bool)
  | quoted (mark : Char)
  | dollar
  | number (n : ℕ)
  deriving DecidableEq

inductive Part where
  | char (c : Char)
  | placeholder (n : ℕ)
  deriving DecidableEq

def isWord (c : Char) : Bool := c.isAlphanum || c == '_'

/-- Reads a character outside quotes and placeholders. A `$` in a word belongs to the word. -/
def readText (word : Bool) (c : Char) : List Part × Mode :=
  if c = '\x27' ∨ c = '\x22' then ([.char c], .quoted c)
  else if c = '$' then if word then ([.char c], .text true) else ([], .dollar)
  else ([.char c], .text (isWord c))

namespace Mode

def step : Mode → Char → List Part × Mode
  | text word, c => readText word c
  | quoted mark, c => ([.char c], if c = mark then .text false else .quoted mark)
  | dollar, c =>
    if c.isDigit then ([], .number (c.toNat - 48))
    else (.char '$' :: (readText false c).1, (readText false c).2)
  | number n, c =>
    if c.isDigit then ([], .number (10 * n + (c.toNat - 48)))
    else (.placeholder n :: (readText false c).1, (readText false c).2)

/-- What is left at the end. -/
def last : Mode → List Part
  | dollar => [.char '$']
  | number n => [.placeholder n]
  | _ => []

/-- The text that is read from this place. -/
def read : Mode → List Char → List Part
  | m, [] => m.last
  | m, c :: cs => (m.step c).1 ++ (m.step c).2.read cs

/-- From this place the text has no placeholder, and it ends outside words and quotes. -/
def closes : Mode → List Char → Bool
  | m, [] => m = .text false
  | m, c :: cs => (m.step c).1 = [.char c] && (m.step c).2.closes cs

end Mode

/-- The parts of a text. -/
def parts (sql : String) : List Part := (Mode.text false).read sql.toList

def Part.number? : Part → Option ℕ
  | char _ => none
  | placeholder n => some n

/-- The numbers of the placeholders, in their order. -/
def placeholders (sql : String) : List ℕ := (parts sql).filterMap Part.number?

/-- A piece of a text with its parameters. -/
inductive Bound (V : Type) where
  | char (c : Char)
  | value (v : V)
  | missing

section Binding
variable {V : Type}

/-- The parameter for a part: the first one is `$1`. -/
def Part.bind (params : List V) : Part → Bound V
  | .char c => .char c
  | .placeholder 0 => .missing
  | .placeholder (n + 1) => (params[n]?).elim .missing .value

/-- The text with the parameters in the places of their placeholders. -/
def substitute (params : List V) (sql : String) : List (Bound V) := (parts sql).map (Part.bind params)

/-- A piece of a text with a parameter in it. -/
structure Piece (V : Type) where
  before : String
  value : V
  after : String := ""

/-- The text of some pieces, whose placeholders have the numbers from `n` on. -/
def numbered : ℕ → List (Piece V) → String
  | _, [] => ""
  | n, p :: ps => p.before ++ "$" ++ toString n ++ p.after ++ numbered (n + 1) ps

def chars (s : String) : List (Bound V) := s.toList.map .char

/-- The pieces with their own parameters. -/
def filled (ps : List (Piece V)) : List (Bound V) :=
  ps.flatMap fun p => chars p.before ++ [.value p.value] ++ chars p.after

/-- No digit comes first. -/
def noDigit (cs : List Char) : Bool := cs.head?.all fun c => !c.isDigit

/-- A piece that other pieces may stand next to. -/
def Piece.plain (p : Piece V) : Bool :=
  (Mode.text false).closes p.before.toList && (Mode.text false).closes p.after.toList &&
    p.before != "" && noDigit p.before.toList && noDigit p.after.toList

/-- What value a piece has does not matter. -/
theorem Piece.plain_value {before after : String} {v : V} (w : V) :
    (⟨before, v, after⟩ : Piece V).plain = (⟨before, w, after⟩ : Piece V).plain := rfl

/-- A written text is closed if its characters are. -/
theorem closes_ofList {m : Mode} {cs : List Char} (h : m.closes cs = true) :
    m.closes (String.ofList cs).toList = true := by
  rw [String.toList_ofList]
  exact h

theorem Piece.plain_ofList {before after : List Char} {v : V}
    (h : ((Mode.text false).closes before && (Mode.text false).closes after && before != [] && noDigit before &&
      noDigit after) = true) : (⟨String.ofList before, v, String.ofList after⟩ : Piece V).plain = true := by
  have hne : (String.ofList before != "") = (before != []) := by
    apply Bool.eq_iff_iff.mpr
    simp only [bne_iff_ne]
    exact not_congr String.ofList_eq_empty_iff
  rw [Piece.plain, String.toList_ofList, String.toList_ofList, hne]
  exact h

end Binding

section Reading
variable {V : Type} {cs rest : List Char} {m : Mode} {n : ℕ} {p : Piece V} {ps : List (Piece V)}

/-- A closed text is read as it is, whatever comes behind it. -/
theorem read_closes (h : m.closes cs = true) : m.read (cs ++ rest) = cs.map .char ++ (Mode.text false).read rest := by
  induction cs generalizing m with
  | nil =>
    obtain rfl : m = .text false := of_decide_eq_true h
    rfl
  | cons c cs ih =>
    simp only [Mode.closes, Bool.and_eq_true, decide_eq_true_eq] at h
    rw [List.cons_append, Mode.read, h.1, ih h.2]
    rfl

/-- A number ends before what is no digit. -/
theorem read_number (h : noDigit rest = true) :
    (Mode.number n).read rest = .placeholder n :: (Mode.text false).read rest := by
  cases rest with
  | nil => rfl
  | cons c cs =>
    have hc : c.isDigit = false := by simpa [noDigit] using h
    simp [Mode.read, Mode.step, hc]

theorem read_digits (hd : ∀ c ∈ cs, c.isDigit = true) :
    (Mode.number n).read (cs ++ rest) = (Mode.number (Nat.ofDigitChars 10 cs n)).read rest := by
  induction cs generalizing n with
  | nil => rfl
  | cons c cs ih =>
    have hc := hd c List.mem_cons_self
    rw [List.cons_append, Mode.read]
    simp only [Mode.step, hc, if_true, List.nil_append]
    rw [ih fun c hc => hd c (List.mem_cons_of_mem _ hc), Nat.ofDigitChars_cons]
    rfl

/-- A placeholder is read with its number. -/
theorem read_placeholder (h : noDigit rest = true) :
    (Mode.text false).read ('$' :: (Nat.toDigits 10 n ++ rest)) = .placeholder n :: (Mode.text false).read rest := by
  have hdigits : ∀ c ∈ Nat.toDigits 10 n, c.isDigit = true :=
    fun c hc => Nat.isDigit_of_mem_toDigits (by omega) (by omega) hc
  -- The first digit opens the number, and the others go on with it.
  obtain ⟨c, cs, hcs⟩ : ∃ c cs, Nat.toDigits 10 n = c :: cs := List.exists_cons_of_ne_nil Nat.toDigits_ne_nil
  have hvalue : Nat.ofDigitChars 10 cs (c.toNat - 48) = n := by
    have hread : Nat.ofDigitChars 10 (Nat.toDigits 10 n) 0 = n := Nat.ofDigitChars_ten_toDigits
    rw [hcs, Nat.ofDigitChars_cons] at hread
    simpa using hread
  rw [hcs] at hdigits ⊢
  have hc := hdigits c List.mem_cons_self
  have hopen : (Mode.text false).read ('$' :: (c :: cs ++ rest)) = (Mode.number (c.toNat - 48)).read (cs ++ rest) := by
    simp [Mode.read, Mode.step, readText, hc]
  rw [hopen, read_digits fun c hc => hdigits c (List.mem_cons_of_mem _ hc), hvalue, read_number h]

/-- The parts of numbered pieces. -/
def numberedParts : ℕ → List (Piece V) → List Part
  | _, [] => []
  | n, p :: ps =>
    p.before.toList.map .char ++ .placeholder n :: (p.after.toList.map .char ++ numberedParts (n + 1) ps)

theorem noDigit_append (hc : noDigit cs = true) (hr : noDigit rest = true) : noDigit (cs ++ rest) = true := by
  cases cs with
  | nil => exact hr
  | cons c cs => exact hc

theorem noDigit_numbered (hp : ∀ p ∈ ps, p.plain = true) (hr : noDigit rest = true) :
    noDigit ((numbered n ps).toList ++ rest) = true := by
  cases ps with
  | nil => simpa [numbered] using hr
  | cons p ps =>
    have h := hp p List.mem_cons_self
    simp only [Piece.plain, Bool.and_eq_true, bne_iff_ne] at h
    obtain ⟨⟨⟨-, hne⟩, hbefore⟩, -⟩ := h
    obtain ⟨c, cs, hcs⟩ := List.exists_cons_of_ne_nil (mt String.toList_eq_nil_iff.mp hne)
    rw [hcs] at hbefore
    simpa [numbered, String.toList_append, hcs, noDigit] using hbefore

/-- Pieces are read piece by piece. -/
theorem read_numbered (hp : ∀ p ∈ ps, p.plain = true) (hr : noDigit rest = true) :
    (Mode.text false).read ((numbered n ps).toList ++ rest) = numberedParts n ps ++ (Mode.text false).read rest := by
  induction ps generalizing n with
  | nil => simp [numbered, numberedParts]
  | cons p ps ih =>
    have htail : ∀ q ∈ ps, q.plain = true := fun q hq => hp q (List.mem_cons_of_mem _ hq)
    have h := hp p List.mem_cons_self
    simp only [Piece.plain, Bool.and_eq_true] at h
    obtain ⟨⟨⟨⟨hbefore, hafter⟩, -⟩, -⟩, hdigit⟩ := h
    have hnext := noDigit_append hdigit (noDigit_numbered (n := n + 1) htail hr)
    have htext : (numbered n (p :: ps)).toList ++ rest =
        p.before.toList ++ '$' :: (Nat.toDigits 10 n ++ (p.after.toList ++ ((numbered (n + 1) ps).toList ++ rest))) := by
      simp [numbered, String.toList_append]
    rw [htext, read_closes hbefore, read_placeholder hnext, read_closes hafter, ih htail]
    simp [numberedParts]

end Reading

section Substitution
variable {V : Type} {header : String} {ps : List (Piece V)} {n : ℕ} {leading more : List V}

theorem number?_chars {cs : List Char} : (cs.map Part.char).filterMap Part.number? = [] := by
  induction cs with
  | nil => rfl
  | cons c cs ih => simp [Part.number?]

theorem number?_parts : (numberedParts n ps).filterMap Part.number? = List.range' n ps.length := by
  induction ps generalizing n with
  | nil => rfl
  | cons p ps ih =>
    simp only [numberedParts, List.filterMap_append, List.filterMap_cons, number?_chars, Part.number?, ih,
      List.nil_append, List.length_cons, List.range'_succ]

theorem bind_chars {params : List V} {cs : List Char} :
    (cs.map Part.char).map (Part.bind params) = cs.map Bound.char := by
  rw [List.map_map]
  rfl

/-- A parameter stands at its number, behind those that were there before. -/
theorem bind_parts :
    (numberedParts (leading.length + 1) ps).map (Part.bind (leading ++ ps.map Piece.value ++ more)) = filled ps := by
  induction ps generalizing leading with
  | nil => rfl
  | cons p ps ih =>
    have hparams : leading ++ (p :: ps).map Piece.value ++ more =
        (leading ++ [p.value]) ++ ps.map Piece.value ++ more := by simp
    have hown : Part.bind (leading ++ (p :: ps).map Piece.value ++ more) (.placeholder (leading.length + 1)) =
        .value p.value := by
      simp [Part.bind]
    have hnext := @ih (leading ++ [p.value])
    rw [List.length_append, List.length_singleton, ← hparams] at hnext
    generalize leading ++ (p :: ps).map Piece.value ++ more = params at hown hnext
    rw [numberedParts, List.map_append, List.map_cons, List.map_append, hown, hnext, bind_chars, bind_chars, filled,
      filled, List.flatMap_cons, List.append_assoc, List.append_assoc]
    rfl

theorem parts_numbered (hh : (Mode.text false).closes header.toList = true) (hp : ∀ p ∈ ps, p.plain = true) :
    parts (header ++ numbered n ps) = header.toList.map .char ++ numberedParts n ps := by
  have hps := @read_numbered V [] n ps hp rfl
  rw [List.append_nil] at hps
  rw [parts, String.toList_append, read_closes hh, hps]
  simp [Mode.read, Mode.last]

/-- The placeholders of a text with numbered pieces. -/
theorem placeholders_numbered (hh : (Mode.text false).closes header.toList = true)
    (hp : ∀ p ∈ ps, p.plain = true) : placeholders (header ++ numbered n ps) = List.range' n ps.length := by
  rw [placeholders, parts_numbered hh hp, List.filterMap_append, number?_chars, number?_parts, List.nil_append]

/-- Each parameter comes into its piece, when as many parameters stand before them as numbers are
left out. -/
theorem substitute_numbered (hh : (Mode.text false).closes header.toList = true) (hp : ∀ p ∈ ps, p.plain = true) :
    substitute (leading ++ ps.map Piece.value ++ more) (header ++ numbered (leading.length + 1) ps) =
      chars header ++ filled ps := by
  rw [substitute, parts_numbered hh hp, List.map_append, bind_chars, bind_parts]
  rfl

end Substitution

end Placeholders
