import Oxydra.Library.Word

/-!
# Arithmetic that is checked for overflow

The operations of 64-bit words where an overflow is a panic, which is `none`. The unsigned words are
natural numbers and the signed ones are integers.
-/

namespace U64

/-- A number that fits in a word. -/
def checked (n : ℕ) : Option ℕ := if n < size then some n else none

/-- A sum that fits in a word. -/
def checkedAdd (a b : ℕ) : Option ℕ := checked (a + b)

/-- A product that fits in a word. -/
def checkedMul (a b : ℕ) : Option ℕ := checked (a * b)

/-- A difference that is not below zero. -/
def checkedSub (a b : ℕ) : Option ℕ := if b ≤ a then some (a - b) else none

theorem checkedAdd_of_lt {a b : ℕ} (h : a + b < size) : checkedAdd a b = some (a + b) :=
  if_pos h

theorem checkedMul_of_lt {a b : ℕ} (h : a * b < size) : checkedMul a b = some (a * b) :=
  if_pos h

theorem checkedSub_of_le {a b : ℕ} (h : b ≤ a) : checkedSub a b = some (a - b) :=
  if_pos h

end U64

namespace I64

/-- Whether an integer is a signed word. -/
def IsWord (n : ℤ) : Prop := -2^63 ≤ n ∧ n < 2^63

instance (n : ℤ) : Decidable (IsWord n) := inferInstanceAs (Decidable (_ ∧ _))

/-- An integer that is a signed word. -/
def checked (n : ℤ) : Option ℤ := if IsWord n then some n else none

/-- A sum that is a signed word. -/
def checkedAdd (a b : ℤ) : Option ℤ := checked (a + b)

/-- A difference that is a signed word. -/
def checkedSub (a b : ℤ) : Option ℤ := checked (a - b)

/-- A product that is a signed word. -/
def checkedMul (a b : ℤ) : Option ℤ := checked (a * b)

/-- `as i64` of an unsigned word. -/
def ofU64 (n : ℕ) : ℤ := (n : ℤ).bmod (2^64)

/-- `as u64` of a signed word. -/
def toU64 (n : ℤ) : ℕ := (n % 2^64).toNat

theorem checked_of_isWord {n : ℤ} (h : IsWord n) : checked n = some n := if_pos h

theorem ofU64_of_lt {n : ℕ} (h : n < 2^63) : ofU64 n = n := by
  unfold ofU64
  exact Int.bmod_eq_of_le (by omega) (by omega)

theorem toU64_of_nonneg {n : ℤ} (h : 0 ≤ n) (hn : IsWord n) : toU64 n = n.toNat := by
  unfold toU64
  rw [Int.emod_eq_of_lt h (by have := hn.2; omega)]

end I64
