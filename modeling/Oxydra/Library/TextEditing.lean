import Oxydra.Library.CharBoundary

/-!
# Editing a text by its bytes

`insert`, `drain` and `char_indices` of a `String`, which take and give places in bytes. Inserting
and draining panic inside a character. Each has its equation at a place that is given by what stands
before it.
-/

namespace Text

/-- `&s[n..]`. -/
def sliceFrom (n : ℕ) (s : String) : Option String := slice n s.utf8ByteSize s

/-- `s.insert(n, c)`. -/
def insertChar (n : ℕ) (c : Char) (s : String) : Option String := do
  let before ← sliceTo n s
  let after ← sliceFrom n s
  return before ++ String.singleton c ++ after

/-- `s.drain(i..j)`, what is left of the text. -/
def drain (i j : ℕ) (s : String) : Option String := do
  let before ← sliceTo i s
  let _ ← slice i j s
  let after ← sliceFrom j s
  return before ++ after

/-- The characters with the bytes that they begin at, from a byte on. -/
def charIndicesFrom : ℕ → List Char → List (ℕ × Char)
  | _, [] => []
  | n, c :: cs => (n, c) :: charIndicesFrom (n + c.utf8Size) cs

/-- `char_indices`. -/
def charIndices (s : String) : List (ℕ × Char) := charIndicesFrom 0 s.toList

theorem sliceTo_append (before after : String) :
    sliceTo before.utf8ByteSize (before ++ after) = some before :=
  sliceTo_eq_some_iff.mpr ⟨after, rfl, rfl⟩

theorem sliceFrom_append (before after : String) :
    sliceFrom before.utf8ByteSize (before ++ after) = some after :=
  slice_eq_some_iff.mpr ⟨before, "", String.append_empty.symm, rfl, String.utf8ByteSize_append.symm⟩

theorem insertChar_append (before after : String) (c : Char) :
    insertChar before.utf8ByteSize c (before ++ after) =
      some (before ++ String.singleton c ++ after) := by
  unfold insertChar
  rw [sliceTo_append, sliceFrom_append]
  rfl

theorem drain_append (before mid after : String) :
    drain before.utf8ByteSize (before ++ mid).utf8ByteSize (before ++ mid ++ after) =
      some (before ++ after) := by
  have hmid : slice before.utf8ByteSize (before ++ mid).utf8ByteSize (before ++ mid ++ after) =
      some mid :=
    slice_eq_some_iff.mpr ⟨before, after, rfl, rfl, String.utf8ByteSize_append.symm⟩
  have hbefore : sliceTo before.utf8ByteSize (before ++ mid ++ after) = some before := by
    rw [String.append_assoc]
    exact sliceTo_append before (mid ++ after)
  unfold drain
  rw [hbefore, hmid, sliceFrom_append]
  rfl

/-- The last character begins where the text before it ends. -/
theorem getLast?_charIndicesFrom (n : ℕ) (cs : List Char) (c : Char) :
    (charIndicesFrom n (cs ++ [c])).getLast? =
      some (n + (String.ofList cs).utf8ByteSize, c) := by
  induction cs generalizing n with
  | nil => rfl
  | cons d cs ih =>
    rw [List.cons_append, charIndicesFrom, utf8ByteSize_cons, ← Nat.add_assoc]
    rw [List.getLast?_cons, ih]
    rfl

theorem getLast?_charIndices (before : String) (c : Char) :
    (charIndices (before ++ String.singleton c)).getLast? = some (before.utf8ByteSize, c) := by
  have hlast := getLast?_charIndicesFrom 0 before.toList c
  rw [String.ofList_toList, Nat.zero_add] at hlast
  rw [charIndices, String.toList_append, String.toList_singleton, hlast]

/-- The second character begins where the first one ends, which is the end if there is none. -/
theorem getD_next_charIndices (before after : String) (c : Char) :
    ((charIndices (String.singleton c ++ after))[1]?.map
      fun (idx, _) => before.utf8ByteSize + idx).getD
        (before ++ (String.singleton c ++ after)).utf8ByteSize =
      before.utf8ByteSize + c.utf8Size := by
  rw [charIndices, String.toList_append, String.toList_singleton, List.singleton_append,
    charIndicesFrom, List.getElem?_cons_succ]
  cases h : after.toList with
  | nil =>
    rw [String.toList_eq_nil_iff.mp h, String.append_empty, String.utf8ByteSize_append,
      String.utf8ByteSize_singleton]
    rfl
  | cons d cs =>
    rw [Nat.zero_add]
    rfl

end Text
