import Mathlib.Algebra.BigOperators.Group.List.Basic
import Mathlib.Data.Nat.Digits.Defs
import Mathlib.Tactic.IntervalCases

/-!
# JSON texts and their sizes

What a compact JSON writer writes for texts, arrays, and objects, and how many bytes that takes in
UTF-8: a control character takes two or six (`charBytes`), and each item of an array or an object
one more than itself (`size_array`, `size_object`).
-/

namespace JsonSize

open List

/-- The bytes of characters in UTF-8. -/
def size (text : List Char) : ℕ := (text.map Char.utf8Size).sum

@[simp]
theorem size_cons (c : Char) (text : List Char) : size (c :: text) = c.utf8Size + size text := by
  rw [size, map_cons, sum_cons]
  rfl

@[simp]
theorem size_append (a b : List Char) : size (a ++ b) = size a + size b := by
  rw [size, map_append, sum_append]
  rfl

/-! ## Texts -/

/-- What stands behind the backslash of a character that has a short escape. -/
def shortEscape : Char → Option Char
  | '"' => some '"'
  | '\\' => some '\\'
  | '\x08' => some 'b'
  | '\x0c' => some 'f'
  | '\n' => some 'n'
  | '\r' => some 'r'
  | '\t' => some 't'
  | _ => none

/-- A character inside quotes. -/
def escapeChar (c : Char) : List Char :=
  match shortEscape c with
  | some d => ['\\', d]
  | none =>
    if c.toNat < 0x20 then
      ['\\', 'u', '0', '0', Nat.digitChar (c.toNat / 16), Nat.digitChar (c.toNat % 16)]
    else [c]

/-- A text in quotes. -/
def string (s : String) : List Char := '"' :: s.toList.flatMap escapeChar ++ ['"']

/-- The bytes of a character inside quotes. -/
def charBytes (c : Char) : ℕ :=
  if (shortEscape c).isSome then 2
  else if c.toNat < 0x20 then 6
  else c.utf8Size

/-- The bytes of a text in quotes. -/
def textBytes (s : String) : ℕ := 2 + (s.toList.map charBytes).sum

theorem size_escapeChar (c : Char) : size (escapeChar c) = charBytes c := by
  have hhex : ∀ d < 16, (Nat.digitChar d).utf8Size = 1 := by
    intro d hd
    interval_cases d <;> rfl
  unfold escapeChar charBytes
  cases hshort : shortEscape c with
  | some d =>
    have hd : d.utf8Size = 1 := by
      unfold shortEscape at hshort
      split at hshort <;> cases hshort <;> rfl
    rw [size_cons, size_cons, hd]
    rfl
  | none =>
    have hnone : ¬(none : Option Char).isSome := by decide
    rw [if_neg hnone]
    split_ifs with hcontrol
    · have hhigh := hhex (c.toNat / 16) (by omega)
      have hlow := hhex (c.toNat % 16) (Nat.mod_lt _ (by decide))
      simp only [size_cons, hhigh, hlow]
      rfl
    · rw [size_cons]
      rfl

theorem size_string (s : String) : size (string s) = textBytes s := by
  have hinner : ∀ text : List Char,
      size (text.flatMap escapeChar) = (text.map charBytes).sum := by
    intro text
    induction text with
    | nil => rfl
    | cons c text ih =>
      rw [flatMap_cons, size_append, size_escapeChar, ih, map_cons, sum_cons]
  have hquote : '"'.utf8Size = 1 := by decide
  rw [string, size_append, size_cons, hinner, size_cons, hquote, textBytes]
  change 1 + _ + (1 + 0) = _
  omega

/-! ## Arrays and objects -/

/-- Items with commas between them. -/
def separated : List (List Char) → List Char
  | [] => []
  | item :: items => item ++ items.flatMap (',' :: ·)

/-- An array of items. -/
def array (items : List (List Char)) : List Char := '[' :: separated items ++ [']']

/-- An object of fields. -/
def object (fields : List (String × List Char)) : List Char :=
  '\x7b' :: separated (fields.map fun field => string field.1 ++ ':' :: field.2) ++ ['\x7d']

/-- The bytes of items in brackets, which are of the sizes `sizes`. -/
def bracketBytes (sizes : List ℕ) : ℕ := max 2 (1 + (sizes.map (· + 1)).sum)

theorem size_separated (items : List (List Char)) :
    size (separated items) + 2 = bracketBytes (items.map size) := by
  have hrest : ∀ items : List (List Char),
      size (items.flatMap (',' :: ·)) = ((items.map size).map (· + 1)).sum := by
    intro items
    induction items with
    | nil => rfl
    | cons item items ih =>
      have hcomma : ','.utf8Size = 1 := by decide
      rw [flatMap_cons, size_append, ih, size_cons, hcomma]
      simp only [map_cons, sum_cons]
      omega
  cases items with
  | nil => rfl
  | cons item items =>
    rw [separated, size_append, hrest]
    simp only [bracketBytes, map_cons, sum_cons]
    omega

theorem size_array (items : List (List Char)) :
    size (array items) = bracketBytes (items.map size) := by
  have hbrackets : '['.utf8Size = 1 ∧ ']'.utf8Size = 1 := by decide
  rw [← size_separated, array, size_append, size_cons, size_cons, hbrackets.1, hbrackets.2]
  change 1 + _ + (1 + 0) = _
  omega

theorem size_object (fields : List (String × List Char)) : size (object fields) =
    bracketBytes (fields.map fun field => textBytes field.1 + 1 + size field.2) := by
  have hbraces : '\x7b'.utf8Size = 1 ∧ '\x7d'.utf8Size = 1 ∧ ':'.utf8Size = 1 := by decide
  have hfields : (fields.map fun field => string field.1 ++ ':' :: field.2).map size =
      fields.map fun field => textBytes field.1 + 1 + size field.2 := by
    rw [map_map]
    refine map_congr_left fun field _ => ?_
    rw [Function.comp_apply, size_append, size_string, size_cons, hbraces.2.2, Nat.add_assoc]
  rw [← hfields, ← size_separated, object, size_append, size_cons, size_cons, hbraces.1, hbraces.2.1]
  change 1 + _ + (1 + 0) = _
  omega

end JsonSize
