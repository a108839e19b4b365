import Mathlib.Tactic.Positivity
import Mathlib.Tactic.FieldSimp
import Oxydra.Library.TextOrder

/-!
# Decimal fractions and their digits

The digits behind a decimal point, as a number (`value`) and as characters. Where two fractions part
at a digit, their numbers are in the order of the digits (`value_lt_of_lt`); where the one goes on
behind the other, it is the larger one exactly if it has a digit there that is not zero
(`value_lt_append_iff`).
-/

namespace DecimalFraction

/-- The number of the digits behind a point. -/
def value : List ℕ → ℚ
  | [] => 0
  | d :: ds => (d + value ds) / 10

/-- The characters of digits. -/
def chars (digits : List ℕ) : List Char := digits.map Nat.digitChar

theorem value_nonneg (ds : List ℕ) : 0 ≤ value ds := by
  induction ds with
  | nil => exact le_refl 0
  | cons d ds ih =>
    rw [value]
    positivity

theorem value_lt_one {ds : List ℕ} (h : ∀ d ∈ ds, d < 10) : value ds < 1 := by
  induction ds with
  | nil => exact one_pos
  | cons d ds ih =>
    obtain ⟨hd, hds⟩ := List.forall_mem_cons.mp h
    have hrest := ih hds
    have hdigit : (d : ℚ) ≤ 9 := by exact_mod_cast Nat.le_of_lt_succ hd
    rw [value, div_lt_one (by norm_num)]
    linarith

/-- A number is not zero exactly where a digit is not. -/
theorem value_pos_iff (ds : List ℕ) : 0 < value ds ↔ ∃ d ∈ ds, d ≠ 0 := by
  induction ds with
  | nil => simp [value]
  | cons d ds ih =>
    have hrest := value_nonneg ds
    rw [value, List.exists_mem_cons_iff, ← ih]
    constructor
    · intro h
      by_cases hd : d = 0
      · refine .inr ?_
        rw [hd] at h
        simpa using h
      · exact .inl hd
    · rintro (hd | hpos)
      · have hd' : (0 : ℚ) < d := by exact_mod_cast Nat.pos_of_ne_zero hd
        positivity
      · positivity

theorem append_value_lt_iff (p ds ds' : List ℕ) :
    value (p ++ ds) < value (p ++ ds') ↔ value ds < value ds' := by
  induction p with
  | nil => rfl
  | cons d p ih =>
    rw [List.cons_append, List.cons_append, value, value, div_lt_div_iff_of_pos_right (by norm_num),
      add_lt_add_iff_left, ih]

/-- The first digits that are not the same decide. -/
theorem value_lt_iff_of_ne {x y : ℕ} (hne : x ≠ y) {p ds ds' : List ℕ} (h : ∀ d ∈ ds, d < 10)
    (h' : ∀ d ∈ ds', d < 10) : value (p ++ x :: ds) < value (p ++ y :: ds') ↔ x < y := by
  have hlt : ∀ {x y : ℕ} {ds ds' : List ℕ}, (∀ d ∈ ds, d < 10) → x < y →
      value (x :: ds) < value (y :: ds') := by
    intro x y ds ds' h hxy
    have hbelow := value_lt_one h
    have habove := value_nonneg ds'
    have hdigit : (x : ℚ) + 1 ≤ y := by exact_mod_cast hxy
    rw [value, value, div_lt_div_iff_of_pos_right (by norm_num)]
    linarith
  rw [append_value_lt_iff]
  refine ⟨fun hvalue => ?_, hlt h⟩
  by_contra hnot
  exact (hlt h' (by omega)).not_gt hvalue

/-- Digits behind the others make the number larger exactly where one of them is not zero. -/
theorem value_lt_append_iff (p ds : List ℕ) : value p < value (p ++ ds) ↔ ∃ d ∈ ds, d ≠ 0 := by
  have h := append_value_lt_iff p [] ds
  rw [List.append_nil] at h
  rw [h, ← value_pos_iff]
  rfl

/-- And never smaller. -/
theorem value_le_append (p ds : List ℕ) : value p ≤ value (p ++ ds) := by
  have h := append_value_lt_iff p ds []
  rw [List.append_nil] at h
  rw [← not_lt, h]
  exact (value_nonneg ds).not_gt

end DecimalFraction

namespace TextOrder

variable {α : Type*}

/-- Two lists are the same, or one goes on behind the other, or they part at some place. -/
theorem parting (l l' : List α) : l = l' ∨ (∃ x e, l = l' ++ x :: e) ∨ (∃ x e, l' = l ++ x :: e) ∨
    ∃ p x y r r', x ≠ y ∧ l = p ++ x :: r ∧ l' = p ++ y :: r' := by
  induction l generalizing l' with
  | nil =>
    cases l' with
    | nil => exact .inl rfl
    | cons y r' => exact .inr (.inr (.inl ⟨y, r', rfl⟩))
  | cons x l ih =>
    cases l' with
    | nil => exact .inr (.inl ⟨x, l, rfl⟩)
    | cons y l' =>
      by_cases hxy : x = y
      · subst hxy
        rcases ih l' with rfl | ⟨z, e, rfl⟩ | ⟨z, e, rfl⟩ | ⟨p, z, w, r, r', hne, rfl, rfl⟩
        · exact .inl rfl
        · exact .inr (.inl ⟨z, e, rfl⟩)
        · exact .inr (.inr (.inl ⟨z, e, rfl⟩))
        · exact .inr (.inr (.inr ⟨x :: p, z, w, r, r', hne, rfl, rfl⟩))
      · exact .inr (.inr (.inr ⟨[], x, y, l, l', hxy, rfl, rfl⟩))

/-- What stands before both of two texts does not count. -/
theorem append_lt_append_iff [LinearOrder α] (a : List α) {c d : List α} :
    a ++ c < a ++ d ↔ c < d := by
  induction a with
  | nil => rfl
  | cons x a ih =>
    rw [List.cons_append, List.cons_append, List.cons_lt_cons_iff, ih]
    simp

/-- The first characters that are not the same decide. -/
theorem cons_lt_cons_iff_of_ne [LinearOrder α] {x y : α} (h : x ≠ y) {c d : List α} :
    x :: c < y :: d ↔ x < y := by
  rw [List.cons_lt_cons_iff]
  simp [h]

end TextOrder
