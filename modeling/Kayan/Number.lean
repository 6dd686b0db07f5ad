import Kayan.Payload
import Mathlib.Algebra.Field.Rat
import Mathlib.Data.List.TakeWhile

/-!
# Numbers in claims

What JavaScript's `Number` makes of a JSON value, less the rounding to a double: `none`
stands for `NaN` and the infinities, which are no integers.
-/
namespace Kayan

/-- White space and line terminators, which `Number` and `trim` skip at both ends. -/
def isSpace (c : Char) : Bool :=
  c ∈ ['\t', '\n', '\x0b', '\x0c', '\r', ' ', '\u00a0', '\u1680', '\u2028', '\u2029', '\u202f', '\u205f',
    '\u3000', '\ufeff'] || ('\u2000' ≤ c && c ≤ '\u200a')

def trimmed (s : String) : List Char := ((s.toList.dropWhile isSpace).reverse.dropWhile isSpace).reverse

/-- The value of a digit. -/
def digitOf (base : Nat) (c : Char) : Option Nat :=
  let n := if c.isDigit then c.toNat - 48 else if 'a' ≤ c ∧ c ≤ 'f' then c.toNat - 87
    else if 'A' ≤ c ∧ c ≤ 'F' then c.toNat - 55 else base
  if n < base then some n else none

/-- The natural number that digits denote; there has to be one. -/
def numeral (base : Nat) (digits : List Char) : Option Nat :=
  if digits = [] then none
  else digits.foldl (fun n c => n.bind fun n => (digitOf base c).map (base * n + ·)) (some 0)

/-- Digits with a point in them. -/
def mantissa (cs : List Char) : Option ℚ :=
  let fraction := (cs.dropWhile (· ≠ '.')).drop 1
  (numeral 10 (cs.takeWhile (· ≠ '.') ++ fraction)).map fun n => (n : ℚ) / 10 ^ fraction.length

def exponent : List Char → Option Int
  | [] => some 0
  | _ :: '-' :: digits => (numeral 10 digits).map fun n => -(n : Int)
  | _ :: '+' :: digits => (numeral 10 digits).map (↑·)
  | _ :: digits => (numeral 10 digits).map (↑·)

def unsignedDecimal (cs : List Char) : Option ℚ :=
  let body := cs.takeWhile fun c => c ≠ 'e' ∧ c ≠ 'E'
  (mantissa body).bind fun m => (exponent (cs.drop body.length)).map fun e => m * 10 ^ e

/-- `Number` of a string. -/
def stringToNumber (s : String) : Option ℚ :=
  match trimmed s with
  | [] => some 0
  | '0' :: 'x' :: digits | '0' :: 'X' :: digits => (numeral 16 digits).map (↑·)
  | '0' :: 'o' :: digits | '0' :: 'O' :: digits => (numeral 8 digits).map (↑·)
  | '0' :: 'b' :: digits | '0' :: 'B' :: digits => (numeral 2 digits).map (↑·)
  | '-' :: cs => (unsignedDecimal cs).map (- ·)
  | '+' :: cs => unsignedDecimal cs
  | cs => unsignedDecimal cs

mutual

/-- `Number(value)`. -/
def number : Payload → Option ℚ
  | .null => some 0
  | .bool b => some (if b then 1 else 0)
  | .num q => some q
  | .str s => stringToNumber s
  | .arr xs => itemsToNumber xs
  | .obj _ => none
  | .custom _ _ => none
termination_by structural x => x

/-- `Number` of an array, which is that of its elements joined by commas. -/
def itemsToNumber : List Payload → Option ℚ
  | [] => some 0
  | x :: xs =>
    match xs, x with
    | [], .bool _ => none
    | [], _ => number x
    | _ :: _, _ => none
termination_by structural x => x

end

/-- `Number.isInteger(n) && n > 0`. -/
def positiveInteger (q : ℚ) : Option Nat := if q.den = 1 ∧ 0 < q then some q.num.toNat else none

section Decimals
variable {n : Nat} {c : Char} {cs : List Char}

theorem digitOf_ten (h : c.isDigit = true) : digitOf 10 c = some (c.toNat - 48) := by
  have hc : c.toNat - 48 < 10 := by
    have h9 := (Char.isDigit_iff_toNat.mp h).2
    have hv : ('9' : Char).toNat = 57 := rfl
    omega
  simp [digitOf, h, hc]

theorem foldl_digits (h : ∀ c ∈ cs, c.isDigit = true) :
    cs.foldl (fun n c => n.bind fun n => (digitOf 10 c).map (10 * n + ·)) (some n) =
      some (Nat.ofDigitChars 10 cs n) := by
  induction cs generalizing n with
  | nil => simp
  | cons c cs ih =>
    have hc := h c List.mem_cons_self
    rw [List.foldl_cons, Option.bind_some, digitOf_ten hc, Option.map_some,
      ih fun c hc => h c (List.mem_cons_of_mem _ hc), Nat.ofDigitChars_cons]
    rfl

theorem isDigit_of_mem (h : c ∈ Nat.toDigits 10 n) : c.isDigit = true :=
  Nat.isDigit_of_mem_toDigits (by omega) (by omega) h

theorem numeral_toDigits : numeral 10 (Nat.toDigits 10 n) = some n := by
  rw [numeral, if_neg Nat.toDigits_ne_nil, foldl_digits fun c => isDigit_of_mem, Nat.ofDigitChars_ten_toDigits]

/-- Digits are all of the body of a number, and all of its mantissa. -/
theorem takeWhile_digits {p : Char → Bool} (hp : ∀ c, c.isDigit = true → p c = true) :
    (Nat.toDigits 10 n).takeWhile p = Nat.toDigits 10 n :=
  List.takeWhile_eq_self_iff.mpr fun c hc => hp c (isDigit_of_mem hc)

theorem isSpace_of_isDigit (h : c.isDigit = true) : isSpace c = false := by
  have hd := Char.isDigit_iff_toNat.mp h
  have h0 : ('0' : Char).toNat = 48 := rfl
  have h9 : ('9' : Char).toNat = 57 := rfl
  have hne : ∀ b : Char, (b.toNat < 48 ∨ 57 < b.toNat) → c ≠ b := by
    rintro b hb rfl
    omega
  have hlow : ¬ ('\u2000' : Char) ≤ c := by
    intro hle
    have hle : ('\u2000' : Char).toNat ≤ c.toNat := hle
    have hu : ('\u2000' : Char).toNat = 8192 := rfl
    omega
  simp only [isSpace, List.mem_cons, List.not_mem_nil, or_false, hlow, decide_false, Bool.false_and,
    Bool.or_false, decide_eq_false_iff_not, not_or]
  refine ⟨?_, ?_, ?_, ?_, ?_, ?_, ?_, ?_, ?_, ?_, ?_, ?_, ?_, ?_⟩ <;> exact hne _ (by decide)

theorem trimmed_toString : trimmed (toString n) = Nat.toDigits 10 n := by
  have hdrop : ∀ l : List Char, (∀ c ∈ l, c.isDigit = true) → l.dropWhile isSpace = l := by
    intro l hl
    cases l with
    | nil => rfl
    | cons c l => simp [List.dropWhile, isSpace_of_isDigit (hl c List.mem_cons_self)]
  have hrev : ∀ c ∈ (Nat.toDigits 10 n).reverse, c.isDigit = true :=
    fun c hc => isDigit_of_mem (List.mem_reverse.mp hc)
  rw [trimmed, Nat.toString_eq_ofList_toDigits, String.toList_ofList, hdrop _ fun c => isDigit_of_mem,
    hdrop _ hrev, List.reverse_reverse]

theorem unsignedDecimal_digits : unsignedDecimal (Nat.toDigits 10 n) = some (n : ℚ) := by
  have hbody : (Nat.toDigits 10 n).takeWhile (fun c => decide (c ≠ 'e' ∧ c ≠ 'E')) = Nat.toDigits 10 n := by
    refine takeWhile_digits fun c hc => ?_
    have he : c ≠ 'e' ∧ c ≠ 'E' := by
      constructor <;> rintro rfl <;> exact absurd hc (by decide)
    simpa using he
  have hpoint : ∀ c : Char, c.isDigit = true → decide (c ≠ '.') = true := by
    intro c hc
    have hne : c ≠ '.' := by
      rintro rfl
      exact absurd hc (by decide)
    simpa using hne
  have hfrac : (Nat.toDigits 10 n).dropWhile (fun c => decide (c ≠ '.')) = [] :=
    List.dropWhile_eq_nil_iff.mpr fun c hc => hpoint c (isDigit_of_mem hc)
  have hmant : mantissa (Nat.toDigits 10 n) = some (n : ℚ) := by
    simp only [mantissa, hfrac, takeWhile_digits hpoint]
    simp [numeral_toDigits]
  simp only [unsignedDecimal, hbody, hmant]
  simp [exponent]

/-- The text of a natural number is read back. -/
theorem stringToNumber_toString : stringToNumber (toString n) = some (n : ℚ) := by
  have hnot : ∀ {cs : List Char} (c : Char), c.isDigit = false → Nat.toDigits 10 n = cs → c ∉ cs := by
    rintro cs c hc rfl hmem
    rw [isDigit_of_mem hmem] at hc
    cases hc
  unfold stringToNumber
  rw [trimmed_toString]
  split
  · rename_i h
    exact absurd h Nat.toDigits_ne_nil
  · rename_i h
    exact absurd (by simp) (hnot 'x' rfl h)
  · rename_i h
    exact absurd (by simp) (hnot 'X' rfl h)
  · rename_i h
    exact absurd (by simp) (hnot 'o' rfl h)
  · rename_i h
    exact absurd (by simp) (hnot 'O' rfl h)
  · rename_i h
    exact absurd (by simp) (hnot 'b' rfl h)
  · rename_i h
    exact absurd (by simp) (hnot 'B' rfl h)
  · rename_i h
    exact absurd (by simp) (hnot '-' rfl h)
  · rename_i h
    exact absurd (by simp) (hnot '+' rfl h)
  · exact unsignedDecimal_digits

theorem positiveInteger_natCast (h : 0 < n) : positiveInteger (n : ℚ) = some n := by
  simp [positiveInteger, h]

end Decimals

end Kayan
