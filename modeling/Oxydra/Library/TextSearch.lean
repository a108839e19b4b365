import Mathlib.Data.List.Infix
import Mathlib.Data.String.Basic
import Oxydra.Library.Text

/-!
# Searching a text

Letter case within ASCII, the texts that a text contains and where the last one stands, its first
word, what is cut off its front, and the integers that it may spell.
-/

namespace Text

/-- `str::to_ascii_lowercase`. -/
def asciiLower (s : String) : String := String.ofList (s.toList.map Char.toLower)

/-- `str::contains`. -/
def contains (pattern s : String) : Bool := decide (pattern.toList <:+: s.toList)

/-- `split_whitespace().next()`. -/
def firstWord (s : String) : Option String :=
  match (s.toList.dropWhile isWhitespace).takeWhile fun c => !isWhitespace c with
  | [] => none
  | word => some (String.ofList word)

/-- `str::trim_start_matches` of a character. -/
def trimStartMatches (c : Char) (s : String) : String := String.ofList (s.toList.dropWhile (· == c))

/-- `str::rfind`, with the characters before the last occurrence counted, not their bytes. -/
def rfind (pattern : List Char) : List Char → Option ℕ
  | [] => if pattern = [] then some 0 else none
  | c :: cs =>
    match rfind pattern cs with
    | some i => some (i + 1)
    | none => if pattern.isPrefixOf (c :: cs) then some 0 else none

theorem rfind_eq_none_iff {pattern : List Char} (hne : pattern ≠ []) :
    ∀ {cs : List Char}, rfind pattern cs = none ↔ ¬pattern <:+: cs
  | [] => by simp [rfind, hne]
  | c :: cs => by
    rw [rfind, List.infix_cons_iff, ← List.isPrefixOf_iff_prefix]
    have ih := @rfind_eq_none_iff pattern hne cs
    cases hlast : rfind pattern cs with
    | none => simpa using fun _ => ih.mp hlast
    | some i =>
      have hin : pattern <:+: cs := by
        by_contra hout
        rw [ih.mpr hout] at hlast
        exact absurd hlast (by simp)
      simp [hin]

/-- What is found is an occurrence. -/
theorem prefix_of_rfind {pattern : List Char} :
    ∀ {cs : List Char} {i : ℕ}, rfind pattern cs = some i → pattern <+: cs.drop i ∧ i ≤ cs.length
  | [], i, h => by
    rw [rfind] at h
    split_ifs at h with hempty
    cases h
    exact ⟨by simp [hempty], Nat.zero_le _⟩
  | c :: cs, i, h => by
    rw [rfind] at h
    cases hlast : rfind pattern cs with
    | none =>
      rw [hlast] at h
      split_ifs at h with hstarts
      cases h
      exact ⟨List.isPrefixOf_iff_prefix.mp hstarts, Nat.zero_le _⟩
    | some j =>
      rw [hlast] at h
      cases h
      obtain ⟨hfound, hle⟩ := prefix_of_rfind hlast
      exact ⟨hfound, Nat.succ_le_succ hle⟩

/-- The last occurrence is at the start where there is no other. -/
theorem rfind_eq_zero_iff {pattern cs : List Char} {c : Char} (hne : pattern ≠ []) :
    rfind pattern (c :: cs) = some 0 ↔ pattern <+: c :: cs ∧ ¬pattern <:+: cs := by
  rw [rfind, ← rfind_eq_none_iff hne, ← List.isPrefixOf_iff_prefix]
  cases rfind pattern cs with
  | none => simp
  | some i => simp

/-- `str::parse` of a signed integer of `width` bits. -/
def parseInt (width : ℕ) (cs : List Char) : Option ℤ :=
  let digits := if cs.head? = some '-' ∨ cs.head? = some '+' then cs.tail else cs
  let magnitude : ℤ := Nat.ofDigitChars 10 digits 0
  let value := if cs.head? = some '-' then -magnitude else magnitude
  if digits ≠ [] ∧ digits.all Char.isDigit ∧ -2 ^ (width - 1) ≤ value ∧ value < 2 ^ (width - 1)
  then some value
  else none

@[simp] theorem toList_asciiLower (s : String) :
    (asciiLower s).toList = s.toList.map Char.toLower := String.toList_ofList

/-- The upper case letters are moved by 32, the others stay. -/
theorem toNat_toLower (c : Char) :
    c.toLower.toNat = if 65 ≤ c.toNat ∧ c.toNat ≤ 90 then c.toNat + 32 else c.toNat := by
  have hletter : (c.val ≥ 'A'.val ∧ c.val ≤ 'Z'.val) ↔ 65 ≤ c.toNat ∧ c.toNat ≤ 90 :=
    and_congr UInt32.le_iff_toNat_le UInt32.le_iff_toNat_le
  unfold Char.toLower
  by_cases h : c.val ≥ 'A'.val ∧ c.val ≤ 'Z'.val
  · rw [dif_pos h, if_pos (hletter.mp h)]
    have hle := (hletter.mp h).2
    have hoff : ('a'.val - 'A'.val).toNat = 32 := by decide
    show (c.val + ('a'.val - 'A'.val)).toNat = c.toNat + 32
    rw [UInt32.toNat_add, hoff]
    exact Nat.mod_eq_of_lt (by unfold Char.toNat at hle; omega)
  · rw [dif_neg h, if_neg (mt hletter.mpr h)]

/-- Lowering the case of a character twice is lowering it once. -/
@[simp] theorem toLower_toLower (c : Char) : c.toLower.toLower = c.toLower := by
  refine Char.toNat_inj.mp ?_
  rw [toNat_toLower]
  refine if_neg ?_
  rw [toNat_toLower]
  split_ifs <;> omega

/-- So for a text. -/
@[simp] theorem asciiLower_asciiLower (s : String) : asciiLower (asciiLower s) = asciiLower s := by
  refine String.toList_inj.mp ?_
  simp only [toList_asciiLower, List.map_map]
  exact List.map_congr_left fun c _ => toLower_toLower c

/-- A character before the letters is the lower case of itself alone. -/
theorem toLower_eq_iff {x : Char} (hx : x.toNat < 65) (c : Char) : c.toLower = x ↔ c = x := by
  rw [← Char.toNat_inj, ← Char.toNat_inj, toNat_toLower]
  split_ifs <;> omega

end Text
