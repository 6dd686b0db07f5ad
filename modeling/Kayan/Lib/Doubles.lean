import Mathlib.Data.Nat.Log
import Mathlib.Data.Int.Order.Basic
import Mathlib.Tactic.Ring

/-!
# Integers as doubles

The double that an integer is rounded to, and the decimal digits that a double is written with.
Below 2^53 nothing is lost.
-/
namespace Doubles
variable {m : ℕ} {i : ℤ}

/-- The bits by which a number is too long for the 53 of a double. -/
def excess (m : ℕ) : ℕ := Nat.log 2 m + 1 - 53

/-- The nearest number with 53 bits, of two the one with an even last bit. -/
def nearest (m : ℕ) : ℕ :=
  let unit := 2 ^ excess m
  let q := m / unit
  let r := m % unit
  (if unit < 2 * r ∨ (2 * r = unit ∧ q % 2 = 1) then q + 1 else q) * unit

/-- The double nearest to an integer. -/
def toDouble (i : ℤ) : ℤ := i.sign * nearest i.natAbs

/-- The two numbers around `m` that end in so many zeros, the nearer one first. -/
def around (m zeros : ℕ) : List ℕ :=
  let low := m / 10 ^ zeros * 10 ^ zeros
  if 2 * (m % 10 ^ zeros) ≤ 10 ^ zeros then [low, low + 10 ^ zeros] else [low + 10 ^ zeros, low]

/-- What is written for a double below 10^21: of the numbers that are rounded to it the nearest one
with the fewest digits before its zeros. -/
def shortest (m : ℕ) : ℕ :=
  (((List.range 21).reverse.flatMap (around m)).find? fun n => nearest n = m).getD m

/-- The number that is written for a double. -/
def written (i : ℤ) : ℤ := i.sign * shortest i.natAbs

theorem excess_of_lt (h : m < 2 ^ 53) : excess m = 0 := by
  have hlog : Nat.log 2 m < 53 := by
    by_cases hm : m = 0
    · simp [hm]
    · exact Nat.log_lt_of_lt_pow hm h
  unfold excess
  omega

theorem nearest_of_lt (h : m < 2 ^ 53) : nearest m = m := by
  simp only [nearest, excess_of_lt h, Nat.pow_zero, Nat.div_one, Nat.mod_one]
  simp

theorem le_nearest (h : 2 ^ 53 ≤ m) : 2 ^ 53 ≤ nearest m := by
  have hm : m ≠ 0 := by
    intro hm
    simp [hm] at h
  have hlog : 53 ≤ Nat.log 2 m := Nat.le_log_of_pow_le (by decide) h
  have hpow : 2 ^ 52 * 2 ^ excess m ≤ m := by
    rw [← Nat.pow_add]
    have hexp : 52 + excess m = Nat.log 2 m := by
      unfold excess
      omega
    rw [hexp]
    exact Nat.pow_log_le_self 2 hm
  have hquot : 2 ^ 52 ≤ m / 2 ^ excess m := (Nat.le_div_iff_mul_le (Nat.two_pow_pos _)).mpr hpow
  have hunit : 2 ^ 1 ≤ 2 ^ excess m := by
    have hone : 1 ≤ excess m := by
      unfold excess
      omega
    exact Nat.pow_le_pow_right (by omega) hone
  have hround : 2 ^ 52 * 2 ≤ nearest m := by
    unfold nearest
    dsimp only
    split
    · exact Nat.mul_le_mul (by omega) hunit
    · exact Nat.mul_le_mul hquot hunit
  exact hround

/-- No other number is rounded to a small one. -/
theorem eq_of_nearest {n : ℕ} (h : m < 2 ^ 53) (hn : nearest n = m) : n = m := by
  by_cases hlt : n < 2 ^ 53
  · rwa [nearest_of_lt hlt] at hn
  · have hle := le_nearest (Nat.le_of_not_lt hlt)
    omega

theorem shortest_of_lt (h : m < 2 ^ 53) : shortest m = m := by
  unfold shortest
  rcases hf : ((List.range 21).reverse.flatMap (around m)).find? fun n => nearest n = m with - | n
  · rfl
  · have hn := List.find?_some hf
    exact eq_of_nearest h (of_decide_eq_true hn)

theorem toDouble_of_lt (h : i.natAbs < 2 ^ 53) : toDouble i = i := by
  rw [toDouble, nearest_of_lt h]
  exact Int.sign_mul_natAbs i

theorem written_of_lt (h : i.natAbs < 2 ^ 53) : written i = i := by
  rw [written, shortest_of_lt h]
  exact Int.sign_mul_natAbs i

example : toDouble 9007199254740993 = 9007199254740992 ∧ written 1152921504606846976 = 1152921504606847000 := by
  decide +kernel

end Doubles
