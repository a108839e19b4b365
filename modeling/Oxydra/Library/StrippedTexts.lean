import Mathlib.Data.List.DropRight

/-!
# Joining texts without the space around them

Texts lose the elements of a kind at both ends, say white space, those with nothing else are left
out, and the others are joined with a separator of the kind.

`flatten_eq_joined_iff`: this gives the texts put together as they are exactly where the separator
is all that stands between two of them that have something else, and nothing stands in front of the
first or behind the last (`Apart`).
-/

namespace StrippedTexts

open List

variable {α : Type*} (space : α → Bool)

/-- What is left of a text without the elements of the kind at both ends. -/
def strip (text : List α) : List α := (text.dropWhile space).rdropWhile space

/-- The elements of the kind that a text starts with. -/
def front (text : List α) : List α := text.takeWhile space

/-- The elements of the kind behind the rest of a text. -/
def back (text : List α) : List α := (text.dropWhile space).rtakeWhile space

/-- The texts that have something else, stripped. -/
def words (texts : List (List α)) : List (List α) :=
  (texts.map (strip space)).filter fun word => !word.isEmpty

section

variable (separator : List α)

/-- Words with the separator in front of each, but of the first in a text. -/
def joinedFrom (first : Bool) : List (List α) → List α
  | [] => []
  | word :: words => (if first then [] else separator) ++ (word ++ joinedFrom false words)

/-- After `before`, the texts are apart as a separator holds them apart: between two that have
something else stands the separator and no more, and nothing stands at the two ends. -/
def Apart : Bool → List α → List (List α) → Prop
  | _, before, [] => before = []
  | first, before, text :: texts =>
    if text.all space then Apart first (before ++ text) texts
    else
      before ++ front space text = (if first then [] else separator) ∧
        Apart false (back space text) texts

/-- Whether texts are apart is decidable, by recursion on them. -/
instance Apart.decidable [DecidableEq α] : ∀ (first : Bool) (before : List α)
    (texts : List (List α)), Decidable (Apart space separator first before texts)
  | _, before, [] => decidable_of_iff (before = []) Iff.rfl
  | first, before, text :: texts =>
    have := Apart.decidable first (before ++ text) texts
    have := Apart.decidable false (back space text) texts
    decidable_of_iff (if text.all space then Apart space separator first (before ++ text) texts
      else before ++ front space text = (if first then [] else separator) ∧
        Apart space separator false (back space text) texts) Iff.rfl

end

section

variable {space} {separator : List α}

theorem joinedFrom_true (words : List (List α)) :
    joinedFrom separator true words = separator.intercalate words := by
  have hrest : ∀ words : List (List α), joinedFrom separator false words =
      words.flatMap (separator ++ ·) := by
    intro words
    induction words with
    | nil => rfl
    | cons word words ih =>
      rw [joinedFrom, flatMap_cons, ih, append_assoc]
      rfl
  induction words with
  | nil => rfl
  | cons word words ih =>
    cases words with
    | nil => simp [joinedFrom]
    | cons word' words =>
      rw [intercalate_cons_cons, ← ih, joinedFrom, hrest, flatMap_cons, ← hrest]
      simp [joinedFrom]

/-- A text is what it starts with, what is left when it is stripped, and what it ends with. -/
theorem front_strip_back (text : List α) :
    front space text ++ (strip space text ++ back space text) = text := by
  unfold front strip back
  rw [rdropWhile_append_rtakeWhile, takeWhile_append_dropWhile]

theorem strip_eq_nil_iff {text : List α} : strip space text = [] ↔ text.all space = true := by
  rw [strip, rdropWhile_eq_nil_iff, all_eq_true]
  constructor
  · intro h c hmem
    rw [← takeWhile_append_dropWhile (p := space) (l := text), mem_append] at hmem
    exact hmem.elim mem_takeWhile_imp (h c)
  · exact fun h c hmem => h c ((dropWhile_sublist space).subset hmem)

theorem words_cons (text : List α) (texts : List (List α)) :
    words space (text :: texts) =
      if text.all space then words space texts else strip space text :: words space texts := by
  unfold words
  rw [map_cons, filter_cons]
  split_ifs with hword hall hall
  · rw [strip_eq_nil_iff.mpr hall] at hword
    exact absurd hword (by simp)
  · rfl
  · rfl
  · rw [Bool.not_eq_true', Bool.not_eq_false, List.isEmpty_iff, strip_eq_nil_iff] at hword
    exact absurd hword hall

/-- A stripped text starts with an element that is not of the kind. -/
theorem takeWhile_strip_append (text rest : List α) (h : strip space text ≠ []) :
    (strip space text ++ rest).takeWhile space = [] := by
  obtain ⟨after, hafter⟩ := rdropWhile_prefix space (l := text.dropWhile space)
  obtain ⟨c, word, hword⟩ := exists_cons_of_ne_nil h
  have hc : space c = false := by
    have hnot := List.head?_dropWhile_not space text
    rw [← hafter, ← strip, hword] at hnot
    exact hnot
  rw [hword, cons_append, takeWhile_cons_of_neg (by rw [hc]; exact Bool.false_ne_true)]

/-- The elements of the kind that stand before a stripped text are determined, and so is what
stands behind it. -/
theorem append_strip_append_inj {before before' : List α} (hbefore : ∀ c ∈ before, space c)
    (hbefore' : ∀ c ∈ before', space c) {text : List α} (h : strip space text ≠ [])
    {rest rest' : List α} :
    before ++ (strip space text ++ rest) = before' ++ (strip space text ++ rest') ↔
      before = before' ∧ rest = rest' := by
  constructor
  · intro heq
    have hfront := congrArg (List.takeWhile space) heq
    rw [takeWhile_append_of_pos hbefore, takeWhile_append_of_pos hbefore',
      takeWhile_strip_append _ _ h, takeWhile_strip_append _ _ h, append_nil,
      append_nil] at hfront
    subst hfront
    exact ⟨rfl, append_cancel_left (append_cancel_left heq)⟩
  · rintro ⟨rfl, rfl⟩
    rfl

/-- Texts put together after some elements of the kind are their words joined, if and only if they
are apart as the separator holds them apart. -/
theorem append_flatten_eq_joinedFrom_iff (hseparator : ∀ c ∈ separator, space c) {first : Bool}
    {before : List α} (hbefore : ∀ c ∈ before, space c) (texts : List (List α)) :
    before ++ texts.flatten = joinedFrom separator first (words space texts) ↔
      Apart space separator first before texts := by
  induction texts generalizing first before with
  | nil => rw [flatten_nil, append_nil]; rfl
  | cons text texts ih =>
    rw [words_cons, Apart, flatten_cons]
    by_cases hall : text.all space = true
    · rw [if_pos hall, if_pos hall, ← append_assoc]
      exact ih fun c hc => (mem_append.mp hc).elim (hbefore c) (all_eq_true.mp hall c)
    · rw [if_neg hall, if_neg hall, joinedFrom]
      have hword : strip space text ≠ [] := mt strip_eq_nil_iff.mp hall
      have hfront : ∀ c ∈ before ++ front space text, space c := fun c hc =>
        (mem_append.mp hc).elim (hbefore c) mem_takeWhile_imp
      have hstart : ∀ c ∈ (if first then [] else separator), space c := by
        split_ifs
        · exact nofun
        · exact hseparator
      have hsplit : before ++ (text ++ texts.flatten) = before ++ front space text ++
          (strip space text ++ (back space text ++ texts.flatten)) := by
        have htext := @front_strip_back _ space text
        conv_lhs => rw [← htext]
        simp only [append_assoc]
      have hback : ∀ c ∈ back space text, space c := fun c hc => mem_rtakeWhile_imp hc
      rw [hsplit, append_strip_append_inj hfront hstart hword, ih hback]

/-- The texts put together are their words joined, if and only if they are apart as the separator
holds them apart. -/
theorem flatten_eq_joined_iff (hseparator : ∀ c ∈ separator, space c) (texts : List (List α)) :
    texts.flatten = separator.intercalate (words space texts) ↔
      Apart space separator true [] texts := by
  rw [← append_flatten_eq_joinedFrom_iff hseparator (by simp), joinedFrom_true, nil_append]

/-- Nothing is joined only where there is no word. -/
theorem joined_eq_nil_iff (texts : List (List α)) :
    separator.intercalate (words space texts) = [] ↔ words space texts = [] := by
  rw [← joinedFrom_true]
  cases hwords : words space texts with
  | nil => exact iff_of_true rfl rfl
  | cons word rest =>
    have hword : word ≠ [] := by
      have hmem : word ∈ words space texts := hwords ▸ mem_cons_self
      simpa using (mem_filter.mp hmem).2
    refine iff_of_false (fun hnil => hword ?_) (cons_ne_nil _ _)
    rw [joinedFrom, if_pos rfl, nil_append] at hnil
    exact (append_eq_nil_iff.mp hnil).1

end

end StrippedTexts
