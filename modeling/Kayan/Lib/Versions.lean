import Mathlib.Order.Basic

/-!
# Versions

A value whose version is raised whenever the value changes. A copy taken at some time stays
behind its original from then on, and a copy with the version of the original is equal to it.
-/
namespace Versions

@[ext] structure Versioned (A : Type) where
  value : A
  version : Nat

variable {A : Type} {a b : Versioned A}

namespace Versioned

/-- `a ≤ b`: equal, or of an earlier version. -/
instance : PartialOrder (Versioned A) where
  le a b := a = b ∨ a.version < b.version
  le_refl a := Or.inl rfl
  le_trans a b c := by
    rintro (rfl | hab) (rfl | hbc)
    · exact Or.inl rfl
    · exact Or.inr hbc
    · exact Or.inr hab
    · exact Or.inr (Nat.lt_trans hab hbc)
  le_antisymm a b := by
    rintro (h | hab) (h' | hba)
    · exact h
    · exact h
    · exact h'.symm
    · omega

theorem version_le (h : a ≤ b) : a.version ≤ b.version := by
  rcases h with rfl | h
  · exact Nat.le_refl _
  · exact Nat.le_of_lt h

/-- A copy of the current version is current. -/
theorem eq_of_version (h : a ≤ b) (hv : a.version = b.version) : a = b := by
  rcases h with h | h
  · exact h
  · omega

/-- A new value needs a new version. -/
theorem le_bump (v : A) : a ≤ ⟨v, a.version + 1⟩ := Or.inr (Nat.lt_succ_self a.version)

end Versioned

end Versions
