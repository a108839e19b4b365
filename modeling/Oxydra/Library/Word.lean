import Mathlib.Tactic.Ring

/-!
# Unsigned 64-bit arithmetic on natural numbers

The additions and subtractions of a 64-bit unsigned word, on natural numbers below `2^64`: the
wrapping ones, which the atomic read-modify-write operations use, and the saturating ones.
-/

namespace U64

/-- One past the largest word. -/
abbrev size : ℕ := 2^64

/-- The largest word. -/
abbrev max : ℕ := size - 1

/-- Addition that stops at the largest word. -/
def saturatingAdd (a b : ℕ) : ℕ := min (a + b) max

/-- Addition modulo `2^64`. -/
def wrappingAdd (a b : ℕ) : ℕ := (a + b) % size

/-- Subtraction modulo `2^64`. -/
def wrappingSub (a b : ℕ) : ℕ := (a + (size - b % size)) % size

/-- Multiplication modulo `2^64`. -/
def wrappingMul (a b : ℕ) : ℕ := a * b % size

/-- A sum that fits in a word does not wrap. -/
theorem wrappingAdd_of_lt {a b : ℕ} (h : a + b < size) : wrappingAdd a b = a + b :=
  Nat.mod_eq_of_lt h

/-- A difference that does not go below zero does not wrap. -/
theorem wrappingSub_of_le {a b : ℕ} (h : b ≤ a) (ha : a < size) : wrappingSub a b = a - b := by
  unfold wrappingSub
  rw [Nat.mod_eq_of_lt (lt_of_le_of_lt h ha)]
  have e : a + (size - b) = (a - b) + size := by omega
  rw [e, Nat.add_mod_right]
  exact Nat.mod_eq_of_lt (by omega)

/-- Adding zero to a word changes nothing. -/
theorem wrappingAdd_zero {a : ℕ} (h : a < size) : wrappingAdd a 0 = a := by
  rw [wrappingAdd_of_lt (by omega), Nat.add_zero]

/-- A saturating sum that fits is the sum. -/
theorem saturatingAdd_of_le {a b : ℕ} (h : a + b ≤ max) : saturatingAdd a b = a + b :=
  min_eq_left h

end U64
