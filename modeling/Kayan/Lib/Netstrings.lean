import Mathlib.Data.List.TakeWhile
import Mathlib.Data.Nat.Digits.Defs

/-!
# Netstrings

A text with its length before it, so that texts of any content can be put one after another
and read back.
-/
namespace Netstrings

/-- The length in decimal, a colon, and the text. -/
def net (text : List Char) : List Char := Nat.toDigits 10 text.length ++ ':' :: text

/-- The first text of a sequence, and what follows it. -/
def readNet (cs : List Char) : Option (List Char × List Char) :=
  match cs.dropWhile Char.isDigit with
  | ':' :: rest =>
    let n := Nat.ofDigitChars 10 (cs.takeWhile Char.isDigit) 0
    if n ≤ rest.length then some (rest.take n, rest.drop n) else none
  | _ => none

/-- So many texts and nothing else. -/
def readNets : Nat → List Char → Option (List (List Char))
  | 0, cs => if cs = [] then some [] else none
  | k + 1, cs => (readNet cs).bind fun x => (readNets k x.2).map (x.1 :: ·)

variable {text rest : List Char} {texts : List (List Char)}

theorem isDigit_of_mem {n : Nat} : ∀ c ∈ Nat.toDigits 10 n, Char.isDigit c = true :=
  fun _ => Nat.isDigit_of_mem_toDigits (by omega) (by omega)

theorem readNet_net : readNet (net text ++ rest) = some (text, rest) := by
  have hdrop : (net text ++ rest).dropWhile Char.isDigit = ':' :: (text ++ rest) := by
    rw [net, List.append_assoc, List.dropWhile_append_of_pos isDigit_of_mem]
    rfl
  have htake : (net text ++ rest).takeWhile Char.isDigit = Nat.toDigits 10 text.length := by
    rw [net, List.append_assoc, List.takeWhile_append_of_pos isDigit_of_mem]
    simp
  simp only [readNet, hdrop, htake, Nat.ofDigitChars_ten_toDigits]
  simp

/-- Texts that were put one after another are read back. -/
theorem readNets_nets : readNets texts.length (texts.flatMap net) = some texts := by
  induction texts with
  | nil => rfl
  | cons text texts ih =>
    simp only [List.length_cons, readNets, List.flatMap_cons, readNet_net, Option.bind_some, ih]
    rfl

end Netstrings
