import Mathlib.Data.List.Lex
import Mathlib.Data.Nat.Digits.Defs
import Mathlib.Tactic.IntervalCases

/-!
# The order of texts and of the numbers in them

Texts are compared character by character. A number that is written with a fixed count of digits
comes before the larger ones (`fixed_lt_fixed`). Of two fractions with different counts of digits
the smaller one comes first, if the shorter one is followed by a character that comes before every
digit (`fraction_lt_fraction`).
-/

namespace TextOrder

open List

section

variable {α : Type*} [LT α]

/-- Two texts whose first parts have one length are in the order of these parts. -/
theorem append_lt_of_lt : ∀ {a b c d : List α}, a.length = b.length → a < b → a ++ c < b ++ d
  | [], [], _, _, _, h => by simp at h
  | x :: a, y :: b, c, d, hlen, h => by
    simp only [cons_append]
    rw [cons_lt_cons_iff] at h ⊢
    obtain h | ⟨rfl, h⟩ := h
    · exact .inl h
    · exact .inr ⟨rfl, append_lt_of_lt (by simpa using hlen) h⟩

/-- Two texts with one first character are in the order of their rests. -/
theorem cons_lt_cons_of_lt (x : α) {c d : List α} (h : c < d) : x :: c < x :: d :=
  cons_lt_cons_iff.mpr (.inr ⟨rfl, h⟩)

/-- A text comes before another one whose first character is larger. -/
theorem cons_lt_of_lt {x y : α} {c d : List α} (h : x < y) : x :: c < y :: d :=
  cons_lt_cons_iff.mpr (.inl h)

/-- A function that keeps the order of the characters of two texts keeps the order of the texts. -/
theorem map_lt_map {β : Type*} [LT β] {f : α → β} : ∀ {l l' : List α},
    (∀ x ∈ l, ∀ y ∈ l', x < y → f x < f y) → l < l' → l.map f < l'.map f
  | _, [], _, h => by simp at h
  | [], y :: l', _, _ => by simp
  | x :: l, y :: l', hf, h => by
    rw [map_cons, map_cons]
    obtain hlt | ⟨rfl, hrest⟩ := cons_lt_cons_iff.mp h
    · exact cons_lt_of_lt (hf x (by simp) y (by simp) hlt)
    · have hf' : ∀ a ∈ l, ∀ b ∈ l', a < b → f a < f b := fun a ha b hb =>
        hf a (mem_cons_of_mem _ ha) b (mem_cons_of_mem _ hb)
      exact cons_lt_cons_of_lt _ (map_lt_map hf' hrest)

end

/-! ## Bytes -/

/-- The bytes of a text in UTF-8. -/
def bytes (s : String) : List UInt8 := s.toByteArray.data.toList

/-- An ASCII character is one byte. -/
theorem utf8EncodeChar_ascii {c : Char} (h : c.toNat < 128) :
    String.utf8EncodeChar c = [c.val.toUInt8] := by
  apply String.utf8EncodeChar_eq_singleton
  rw [Char.utf8Size, if_pos]
  exact UInt32.le_iff_toNat_le.mpr (Nat.le_of_lt_succ h)

theorem bytes_ofList_ascii {l : List Char} (h : ∀ c ∈ l, c.toNat < 128) :
    bytes (String.ofList l) = l.map fun c => c.val.toUInt8 := by
  have hflat : l.flatMap String.utf8EncodeChar = l.map fun c => c.val.toUInt8 := by
    induction l with
    | nil => rfl
    | cons c l ih =>
      rw [flatMap_cons, utf8EncodeChar_ascii (h c (by simp)),
        ih fun c hc => h c (mem_cons_of_mem _ hc)]
      rfl
  rw [bytes, String.toByteArray_ofList, List.utf8Encode, hflat]
  simp

/-- The bytes of two ASCII texts are in the order of the texts. -/
theorem bytes_lt_of_lt {l l' : List Char} (hl : ∀ c ∈ l, c.toNat < 128)
    (hl' : ∀ c ∈ l', c.toNat < 128) (h : l < l') :
    bytes (String.ofList l) < bytes (String.ofList l') := by
  rw [bytes_ofList_ascii hl, bytes_ofList_ascii hl']
  refine map_lt_map (fun x hx y hy hlt => ?_) h
  have hx := hl x hx
  have hy := hl' y hy
  have hlt : x.toNat < y.toNat := hlt
  rw [UInt8.lt_iff_toNat_lt, UInt32.toNat_toUInt8, UInt32.toNat_toUInt8]
  change x.toNat % 2^8 < y.toNat % 2^8
  omega

/-! ## Numbers with a fixed count of digits -/

/-- A number below `10^w` with `w` digits. -/
def fixed : ℕ → ℕ → List Char
  | 0, _ => []
  | w + 1, n => Nat.digitChar (n / 10^w) :: fixed w (n % 10^w)

@[simp]
theorem length_fixed (w n : ℕ) : (fixed w n).length = w := by
  induction w generalizing n with
  | zero => rfl
  | succ w ih => rw [fixed, length_cons, ih]

theorem digitChar_ascii (d : ℕ) : (Nat.digitChar d).toNat < 128 := by
  by_cases h : d < 16
  · interval_cases d <;> decide
  · have hstar : Nat.digitChar d = '*' := by
      unfold Nat.digitChar
      repeat rw [if_neg (by omega)]
    rw [hstar]
    decide

/-- Digits are ASCII characters. -/
theorem fixed_ascii (w n : ℕ) : ∀ c ∈ fixed w n, c.toNat < 128 := by
  induction w generalizing n with
  | zero => simp [fixed]
  | succ w ih =>
    intro c hc
    obtain rfl | hc := mem_cons.mp hc
    · exact digitChar_ascii _
    · exact ih _ c hc

theorem digitChar_lt {d e : ℕ} (he : e < 10) (h : d < e) : Nat.digitChar d < Nat.digitChar e := by
  interval_cases e <;> interval_cases d <;> decide

/-- The first digit of a number. -/
theorem div_lt_ten {w n : ℕ} (hn : n < 10^(w + 1)) : n / 10^w < 10 := by
  rw [pow_succ, Nat.mul_comm] at hn
  exact Nat.div_lt_of_lt_mul (by rwa [Nat.mul_comm])

/-- The order of numbers is the order of their digits. -/
theorem fixed_lt_fixed {w n m : ℕ} (hm : m < 10^w) (h : n < m) : fixed w n < fixed w m := by
  induction w generalizing n m with
  | zero => omega
  | succ w ih =>
    have hpos : 0 < 10^w := by positivity
    have hle : n / 10^w ≤ m / 10^w := Nat.div_le_div_right h.le
    rw [fixed, fixed, cons_lt_cons_iff]
    obtain hlt | heq := hle.lt_or_eq
    · exact .inl (digitChar_lt (div_lt_ten hm) hlt)
    · refine .inr ⟨by rw [heq], ih (Nat.mod_lt _ hpos) ?_⟩
      have hn := Nat.div_add_mod n (10^w)
      have hm := Nat.div_add_mod m (10^w)
      rw [heq] at hn
      omega

/-- Two texts that start with numbers are in the order of the numbers. -/
theorem fixed_append_lt {w n m : ℕ} {c d : List Char} (hm : m < 10^w) (h : n < m) :
    fixed w n ++ c < fixed w m ++ d :=
  append_lt_of_lt (by rw [length_fixed, length_fixed]) (fixed_lt_fixed hm h)

/-- A number with `v + w` digits is one with `v` digits and one with `w`. -/
theorem fixed_append (v w n : ℕ) (hn : n < 10^(v + w)) :
    fixed (v + w) n = fixed v (n / 10^w) ++ fixed w (n % 10^w) := by
  induction v generalizing n with
  | zero =>
    rw [Nat.zero_add] at hn ⊢
    rw [fixed, nil_append, Nat.mod_eq_of_lt hn]
  | succ v ih =>
    have hpos : 0 < 10^(v + w) := by positivity
    have hsplit : v + 1 + w = v + w + 1 := by ring
    rw [hsplit, fixed, fixed, ih _ (Nat.mod_lt _ hpos), cons_append]
    have hpow : 10^(v + w) = 10^w * 10^v := by rw [pow_add, Nat.mul_comm]
    congr 1
    · rw [Nat.div_div_eq_div_mul, hpow]
    · congr 2
      · rw [hpow, Nat.mod_mul_right_div_self]
      · rw [hpow, Nat.mod_mul_right_mod]

/-! ## Fractions

Two fractions are given by their digits after the point: `n` with `k` of them, and `m` with `j`
more. -/

section

variable {k j n m : ℕ} {c d : List Char}

theorem div_lt_pow (hm : m < 10^(k + j)) : m / 10^j < 10^k := by
  rw [pow_add] at hm
  exact Nat.div_lt_of_lt_mul (by rwa [Nat.mul_comm])

/-- The shorter fraction is smaller, and comes first if it is followed by a character below every
digit. -/
theorem fixed_lt_longer {stop : Char} (hj : 0 < j) (hm : m < 10^(k + j))
    (hstop : ∀ e < 10, stop < Nat.digitChar e) (h : n * 10^j < m) :
    fixed k n ++ stop :: c < fixed (k + j) m ++ d := by
  have hle : n ≤ m / 10^j := (Nat.le_div_iff_mul_le (by positivity)).mpr h.le
  rw [fixed_append k j m hm, append_assoc]
  obtain hlt | rfl := hle.lt_or_eq
  · exact fixed_append_lt (div_lt_pow hm) hlt
  · -- the shorter one ends where the longer one has a digit
    apply append_left_lt
    obtain ⟨i, rfl⟩ := Nat.exists_eq_succ_of_ne_zero hj.ne'
    rw [fixed, cons_append]
    apply cons_lt_of_lt
    apply hstop
    exact div_lt_ten (Nat.mod_lt _ (by positivity))

/-- The longer fraction is smaller, and comes first. -/
theorem longer_lt_fixed (hm : m < 10^(k + j)) (hn : n < 10^k) (h : m < n * 10^j) :
    fixed (k + j) m ++ c < fixed k n ++ d := by
  have hlt : m / 10^j < n := (Nat.div_lt_iff_lt_mul (by positivity)).mpr h
  rw [fixed_append k j m hm, append_assoc]
  exact fixed_append_lt hn hlt

/-- Two fractions, given in units of `10^(-k)`, of which zeros at the end are left out. -/
theorem fraction_lt_fraction {w v : ℕ} {stop : Char} (hw : w ≤ k) (hv : v ≤ k)
    (hn : 10^(k - w) ∣ n) (hm : 10^(k - v) ∣ m) (hmk : m < 10^k) (h : n < m)
    (hstop : ∀ e < 10, stop < Nat.digitChar e) :
    fixed w (n / 10^(k - w)) ++ stop :: c < fixed v (m / 10^(k - v)) ++ stop :: d := by
  obtain ⟨n, rfl⟩ := hn
  obtain ⟨m, rfl⟩ := hm
  have hmv : m < 10^v := by
    have hk : 10^k = 10^(k - v) * 10^v := by rw [← pow_add, Nat.sub_add_cancel hv]
    rw [hk] at hmk
    exact Nat.lt_of_mul_lt_mul_left hmk
  rw [Nat.mul_div_cancel_left n (by positivity), Nat.mul_div_cancel_left m (by positivity)]
  obtain hlt | rfl | hgt := lt_trichotomy w v
  · obtain ⟨j, rfl⟩ := Nat.exists_eq_add_of_lt hlt
    -- the common unit is that of the longer one
    have hunit : 10^(k - w) = 10^(k - (w + j + 1)) * 10^(j + 1) := by
      rw [← pow_add]
      congr 1
      omega
    rw [hunit, Nat.mul_assoc] at h
    have h' : n * 10^(j + 1) < m := by
      rw [Nat.mul_comm n]
      exact Nat.lt_of_mul_lt_mul_left h
    exact fixed_lt_longer (Nat.succ_pos j) hmv hstop h'
  · exact fixed_append_lt hmv (Nat.lt_of_mul_lt_mul_left h)
  · obtain ⟨j, rfl⟩ := Nat.exists_eq_add_of_lt hgt
    have hunit : 10^(k - v) = 10^(k - (v + j + 1)) * 10^(j + 1) := by
      rw [← pow_add]
      congr 1
      omega
    rw [hunit, Nat.mul_assoc] at h
    have h' : n < m * 10^(j + 1) := by
      rw [Nat.mul_comm m]
      exact Nat.lt_of_mul_lt_mul_left h
    have hlong : n < 10^(v + (j + 1)) := by
      rw [pow_add]
      exact h'.trans (Nat.mul_lt_mul_of_pos_right hmv (by positivity))
    exact longer_lt_fixed hlong hmv h'

end

end TextOrder
