import Oxydra.Library.YamlScalars

/-!
# Front matters

A front matter is a YAML mapping between two lines of three dashes at the top of a text. The ones
that are read here have an entry on each line: a key and a scalar, or a key alone, whose value is a
sequence with one scalar on each of the lines below it. Of other front matters, which YAML may allow
as well, nothing is said.

What a writer puts together of such lines is read back line by line (`readMapping_*`).
-/

namespace Yaml

open List

/-- The value of an entry. -/
inductive Node where
  | scalar (value : Scalar)
  | sequence (items : List Scalar)
  deriving DecidableEq, Repr

/-- The entries of a mapping. -/
abbrev Mapping := List (List Char × Node)

/-- A line of a mapping. -/
inductive Line where
  | entry (key : List Char) (value : Scalar)
  | start (key : List Char)
  | item (value : Scalar)

/-- The line around a front matter. -/
def dashes : List Char := ['-', '-', '-']

/-- The keys that are read: simple ones that are texts for the schema. -/
def isKeyChar (c : Char) : Bool := c.isLower || c == '_'

/-- A key of a mapping. -/
def isKey (key : List Char) : Bool :=
  !key.isEmpty && key.all isKeyChar && key.length ≤ 1024 && IsText key

/-- A line, by what it begins with. -/
def readLine (line : List Char) : Option Line :=
  match line with
  | ' ' :: ' ' :: '-' :: ' ' :: item => (readScalar item).map .item
  | _ =>
    let key := line.takeWhile isKeyChar
    if isKey key then
      match line.dropWhile isKeyChar with
      | [':'] => some (.start key)
      | ':' :: ' ' :: value => (readScalar value).map (.entry key)
      | _ => none
    else none

/-- The lines up to the closing dashes: the items that no key stands above of, the entries, and the
lines behind the dashes. -/
def readMapping : List (List Char) → Option (List Scalar × Mapping × List (List Char))
  | [] => none
  | line :: lines =>
    if line = dashes then some ([], [], lines)
    else
      match readLine line, readMapping lines with
      | some (.item value), some (items, entries, body) => some (value :: items, entries, body)
      | some (.start key), some (item :: items, entries, body) =>
        some ([], (key, .sequence (item :: items)) :: entries, body)
      | some (.entry key value), some ([], entries, body) =>
        some ([], (key, .scalar value) :: entries, body)
      | _, _ => none

/-- The front matter of a text, and what stands below it. -/
def readFrontMatter (text : List Char) : Option (Mapping × List Char) :=
  match text.splitOn '\n' with
  | [] => none
  | top :: lines =>
    match readMapping lines with
    | some ([], entries, body) =>
      if top = dashes ∧ entries ≠ [] ∧ (entries.map Prod.fst).Nodup then
        some (entries, ['\n'].intercalate body)
      else none
    | _ => none

/-! ## Lines that are written -/

/-- A text that begins with lines. -/
theorem splitOn_lines {lines : List (List Char)} (h : ∀ line ∈ lines, '\n' ∉ line)
    (rest : List Char) :
    (lines.flatMap (· ++ ['\n']) ++ rest).splitOn '\n' = lines ++ rest.splitOn '\n' := by
  induction lines with
  | nil => rfl
  | cons line lines ih =>
    rw [forall_mem_cons] at h
    rw [flatMap_cons, append_assoc, append_assoc, singleton_append,
      splitOn_append_cons_self_of_not_mem h.1, ih h.2, cons_append]

theorem readLine_item {item : List Char} {value : Scalar} (h : readScalar item = some value) :
    readLine (' ' :: ' ' :: '-' :: ' ' :: item) = some (.item value) := by
  simp [readLine, h]

/-- The key of a line that has one. -/
theorem key_line {key : List Char} (hkey : isKey key = true) (rest : List Char) :
    (key ++ ':' :: rest).takeWhile isKeyChar = key ∧
      (key ++ ':' :: rest).dropWhile isKeyChar = ':' :: rest ∧
      ∃ c cs, key = c :: cs ∧ c ≠ ' ' := by
  simp only [isKey, Bool.and_eq_true, all_eq_true] at hkey
  obtain ⟨⟨⟨hne, hall⟩, -⟩, -⟩ := hkey
  have hcolon : isKeyChar ':' = false := by decide
  refine ⟨?_, ?_, ?_⟩
  · rw [takeWhile_append_of_pos hall, takeWhile_cons_of_neg (by simp [hcolon]),
      append_nil]
  · rw [dropWhile_append_of_pos hall, dropWhile_cons_of_neg (by simp [hcolon])]
  · cases key with
    | nil => simp at hne
    | cons c cs =>
      refine ⟨c, cs, rfl, fun hspace => ?_⟩
      have := hall c mem_cons_self
      rw [hspace] at this
      exact absurd this (by decide)

theorem readLine_entry {key text : List Char} {value : Scalar} (hkey : isKey key = true)
    (h : readScalar text = some value) :
    readLine (key ++ ':' :: ' ' :: text) = some (.entry key value) := by
  obtain ⟨htake, hdrop, c, cs, rfl, hspace⟩ := key_line hkey (' ' :: text)
  unfold readLine
  split
  · rename_i item heq
    exact absurd (List.cons.inj heq).1 hspace
  · simp only [htake, hdrop, if_pos hkey, h, Option.map_some]

theorem readLine_start {key : List Char} (hkey : isKey key = true) :
    readLine (key ++ [':']) = some (.start key) := by
  obtain ⟨htake, hdrop, c, cs, rfl, hspace⟩ := key_line hkey []
  unfold readLine
  split
  · rename_i item heq
    exact absurd (List.cons.inj heq).1 hspace
  · simp only [htake, hdrop, if_pos hkey]

/-- A line that is read is not the one of dashes. -/
theorem ne_dashes_of_readLine {line : List Char} {read : Line} (h : readLine line = some read) :
    line ≠ dashes := by
  rintro rfl
  have hnone : readLine dashes = none := by decide +kernel
  rw [hnone] at h
  contradiction

/-! ## Mappings that are written -/

section

variable {lines body : List (List Char)} {entries : Mapping}

attribute [local simp] readMapping

theorem readMapping_dashes : readMapping (dashes :: body) = some ([], [], body) := by
  simp

theorem readMapping_entry {key text : List Char} {value : Scalar} (hkey : isKey key = true)
    (h : readScalar text = some value) (hlines : readMapping lines = some ([], entries, body)) :
    readMapping ((key ++ ':' :: ' ' :: text) :: lines) =
      some ([], (key, .scalar value) :: entries, body) := by
  have hread := readLine_entry hkey h
  rw [readMapping, if_neg (ne_dashes_of_readLine hread), hread, hlines]

/-- Lines with an item each. -/
theorem readMapping_items {items : List (List Char)}
    (hitems : ∀ item ∈ items, readScalar item = some (.str item))
    (hlines : readMapping lines = some ([], entries, body)) :
    readMapping (items.map (' ' :: ' ' :: '-' :: ' ' :: ·) ++ lines) =
      some (items.map .str, entries, body) := by
  induction items with
  | nil => exact hlines
  | cons item items ih =>
    rw [forall_mem_cons] at hitems
    have hread := readLine_item hitems.1
    rw [map_cons, cons_append, readMapping, if_neg (ne_dashes_of_readLine hread), hread,
      ih hitems.2]
    rfl

/-- A key above its items. -/
theorem readMapping_sequence {key : List Char} {items : List (List Char)} (hkey : isKey key = true)
    (hne : items ≠ []) (hitems : ∀ item ∈ items, readScalar item = some (.str item))
    (hlines : readMapping lines = some ([], entries, body)) :
    readMapping ((key ++ [':']) :: (items.map (' ' :: ' ' :: '-' :: ' ' :: ·) ++ lines)) =
      some ([], (key, .sequence (items.map .str)) :: entries, body) := by
  have hread := readLine_start hkey
  rw [readMapping, if_neg (ne_dashes_of_readLine hread), hread, readMapping_items hitems hlines]
  cases items with
  | nil => contradiction
  | cons => rfl

end

/-- The front matter of lines between fences. -/
theorem readFrontMatter_of_readMapping {text : List Char} {lines body : List (List Char)}
    {entries : Mapping} (htext : text.splitOn '\n' = dashes :: lines)
    (hlines : readMapping lines = some ([], entries, body)) (hne : entries ≠ [])
    (hnodup : (entries.map Prod.fst).Nodup) :
    readFrontMatter text = some (entries, ['\n'].intercalate body) := by
  rw [readFrontMatter, htext]
  simp only [hlines]
  rw [if_pos ⟨trivial, hne, hnodup⟩]

end Yaml
