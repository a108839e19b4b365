import Mathlib.Data.List.TakeWhile
import Oxydra.Library.Occurrences

/-!
# A section of lines in a text

`str::find` gives the first occurrence of a pattern. In a text of lines, the occurrences of a
pattern that begins with the separator are the lines below the first one that begin with the rest of
it, so what is cut out from the first such occurrence to another is a section of lines.
-/

namespace Text

open List

variable {α : Type*} [DecidableEq α]

/-- `str::find`, of a pattern. -/
def find (pattern : List α) : List α → Option ℕ
  | [] => if pattern = [] then some 0 else none
  | c :: cs =>
    if pattern.isPrefixOf (c :: cs) then some 0 else (find pattern cs).map (· + 1)

/-- The text without what stands from the first occurrence of `start` to that of `stop` behind its
first character, or to the end. -/
def cutOut (start stop text : List α) : List α :=
  match find start text with
  | some i =>
    match find stop (text.drop (i + 1)) with
    | some j => text.take i ++ text.drop (i + 1 + j)
    | none => text.take i
  | none => text

theorem find_starts {pattern text : List α} (h : pattern <+: text) :
    find pattern text = some 0 := by
  cases text with
  | nil => rw [find, if_pos (prefix_nil.mp h)]
  | cons c cs => rw [find, if_pos (List.isPrefixOf_iff_prefix.mpr h)]

theorem find_cons {pattern : List α} {c : α} {cs : List α} (h : ¬pattern <+: c :: cs) :
    find pattern (c :: cs) = (find pattern cs).map (· + 1) := by
  rw [find, if_neg (mt isPrefixOf_iff_prefix.mp h)]

/-- Where a pattern can only begin with its first character. -/
theorem find_append_of_not_mem {sep : α} {word front : List α} (h : sep ∉ front) (text : List α) :
    find (sep :: word) (front ++ text) = (find (sep :: word) text).map (front.length + ·) := by
  induction front with
  | nil => simp
  | cons c front ih =>
    obtain ⟨hne, hfront⟩ := not_or.mp (mt mem_cons.mpr h)
    have hnot : ¬sep :: word <+: c :: (front ++ text) := fun hpre =>
      hne (cons_prefix_cons.mp hpre).1
    rw [cons_append, find_cons hnot, ih hfront, Option.map_map]
    refine congrArg (fun f => Option.map f _) (funext fun i => ?_)
    show front.length + i + 1 = front.length + 1 + i
    omega

/-! ## Lines -/

/-- Lines that stand below another one. -/
def below (sep : α) (lines : List (List α)) : List α := lines.flatMap (sep :: ·)

variable {sep : α}

omit [DecidableEq α] in
theorem below_cons (line : List α) (lines : List (List α)) :
    below sep (line :: lines) = sep :: (line ++ below sep lines) := rfl

omit [DecidableEq α] in
theorem below_append (lines lines' : List (List α)) :
    below sep (lines ++ lines') = below sep lines ++ below sep lines' :=
  flatMap_append

omit [DecidableEq α] in
/-- A word without the separator does not reach over the end of a line. -/
theorem prefix_line_iff {word line : List α} (hword : sep ∉ word) (lines : List (List α)) :
    word <+: line ++ below sep lines ↔ word <+: line := by
  refine ⟨fun h => ?_, fun h => h.trans (prefix_append _ _)⟩
  induction word generalizing line with
  | nil => exact nil_prefix
  | cons c word ih =>
    obtain ⟨hne, hword⟩ := not_or.mp (mt mem_cons.mpr hword)
    cases line with
    | cons d line =>
      obtain ⟨rfl, hrest⟩ := cons_prefix_cons.mp h
      exact cons_prefix_cons.mpr ⟨rfl, ih hword hrest⟩
    | nil =>
      cases lines with
      | nil => exact h
      | cons next lines => exact absurd (cons_prefix_cons.mp h).1.symm hne

/-- The first line that begins with the word, among lines. -/
theorem find_below {word : List α} (hword : sep ∉ word) {lines : List (List α)}
    (hlines : ∀ line ∈ lines, sep ∉ line) {found : List α} (hfound : word <+: found)
    {before after : List (List α)} (hbefore : ∀ line ∈ before, ¬word <+: line)
    (h : lines = before ++ found :: after) :
    find (sep :: word) (below sep lines) = some (below sep before).length := by
  subst h
  induction before with
  | nil =>
    refine find_starts (cons_prefix_cons.mpr ⟨rfl, ?_⟩)
    exact (prefix_line_iff hword after).mpr hfound
  | cons line before ih =>
    rw [forall_mem_cons] at hbefore
    rw [cons_append, forall_mem_cons] at hlines
    have hnot : ¬sep :: word <+: sep :: (line ++ below sep (before ++ found :: after)) :=
      fun hpre => hbefore.1 ((prefix_line_iff hword _).mp (cons_prefix_cons.mp hpre).2)
    rw [cons_append, below_cons, find_cons hnot, find_append_of_not_mem hlines.1,
      ih hbefore.2 hlines.2, below_cons]
    simp

/-- No line begins with the word. -/
theorem find_below_eq_none {word : List α} (hword : sep ∉ word) {lines : List (List α)}
    (hlines : ∀ line ∈ lines, sep ∉ line) (h : ∀ line ∈ lines, ¬word <+: line) :
    find (sep :: word) (below sep lines) = none := by
  induction lines with
  | nil => rfl
  | cons line lines ih =>
    rw [forall_mem_cons] at h hlines
    have hnot : ¬sep :: word <+: sep :: (line ++ below sep lines) := fun hpre =>
      h.1 ((prefix_line_iff hword _).mp (cons_prefix_cons.mp hpre).2)
    rw [below_cons, find_cons hnot, find_append_of_not_mem hlines.1, ih hlines.2 h.2]
    rfl

/-- What is left of the lines from the one that is found on. -/
def fromStop (stop : List α) (lines : List (List α)) : List (List α) :=
  lines.dropWhile fun line => !stop.isPrefixOf line

/-- A section is cut out: from the first line below the top one that begins with the one word, to
the next line that begins with the other. -/
theorem cutOut_section {start stop : List α} (hstart : sep ∉ start) (hstop : sep ∉ stop)
    {top found : List α} {before after : List (List α)} (htop : sep ∉ top)
    (hlines : ∀ line ∈ before ++ found :: after, sep ∉ line)
    (hbefore : ∀ line ∈ before, ¬start <+: line) (hfound : start <+: found) :
    cutOut (sep :: start) (sep :: stop) (top ++ below sep (before ++ found :: after)) =
      top ++ below sep (before ++ fromStop stop after) := by
  have hfind : find (sep :: start) (top ++ below sep (before ++ found :: after)) =
      some (top ++ below sep before).length := by
    rw [find_append_of_not_mem htop, find_below hstart hlines hfound hbefore rfl,
      length_append]
    rfl
  have htext : top ++ below sep (before ++ found :: after) =
      (top ++ below sep before) ++ sep :: (found ++ below sep after) := by
    rw [below_append, below_cons, append_assoc]
  have hdrop : (top ++ below sep (before ++ found :: after)).drop
      ((top ++ below sep before).length + 1) = found ++ below sep after := by
    rw [htext, drop_append, drop_eq_nil_of_le (by omega)]
    simp
  have hnotin := (forall_mem_append.mp hlines).2
  rw [forall_mem_cons] at hnotin
  -- the lines behind the first one of the section, up to the next one that stops it
  obtain ⟨own, hown⟩ : ∃ own, own = after.takeWhile fun line => !stop.isPrefixOf line :=
    ⟨_, rfl⟩
  have hafter : after = own ++ fromStop stop after := by
    rw [hown]
    exact takeWhile_append_dropWhile.symm
  have hquiet : ∀ line ∈ own, ¬stop <+: line := by
    intro line hline hpre
    have hp := mem_takeWhile_imp (hown ▸ hline)
    simp [List.isPrefixOf_iff_prefix.mpr hpre] at hp
  rw [cutOut, hfind]
  simp only [hdrop]
  cases hnext : fromStop stop after with
  | nil =>
    rw [hnext, append_nil] at hafter
    have hnone : find (sep :: stop) (found ++ below sep after) = none := by
      rw [find_append_of_not_mem hnotin.1,
        find_below_eq_none hstop hnotin.2 (hafter ▸ hquiet)]
      rfl
    rw [hnone, htext, append_nil]
    exact take_left
  | cons next rest =>
    rw [hnext] at hafter
    have hstops : stop <+: next := by
      have hhead := List.head?_dropWhile_not (fun line => !stop.isPrefixOf line) after
      rw [show after.dropWhile _ = next :: rest from hnext] at hhead
      simpa [List.isPrefixOf_iff_prefix] using hhead
    have hsome : find (sep :: stop) (found ++ below sep after) =
        some (found.length + (below sep own).length) := by
      rw [find_append_of_not_mem hnotin.1, find_below hstop hnotin.2 hstops hquiet hafter]
      rfl
    have hcut : (top ++ below sep (before ++ found :: after)).drop
        ((top ++ below sep before).length + 1 + (found.length + (below sep own).length)) =
          below sep (next :: rest) := by
      rw [← drop_drop, hdrop, ← length_append]
      rw [hafter, below_append, ← append_assoc]
      exact drop_left
    rw [hsome]
    simp only [hcut]
    rw [htext, take_left, below_append before, append_assoc]

/-- Where no line begins so, nothing is cut out. -/
theorem cutOut_of_none {start : List α} (hstart : sep ∉ start) (stop : List α) {top : List α}
    {lines : List (List α)} (htop : sep ∉ top) (hlines : ∀ line ∈ lines, sep ∉ line)
    (h : ∀ line ∈ lines, ¬start <+: line) :
    cutOut (sep :: start) stop (top ++ below sep lines) = top ++ below sep lines := by
  have hnone : find (sep :: start) (top ++ below sep lines) = none := by
    rw [find_append_of_not_mem htop, find_below_eq_none hstart hlines h]
    rfl
  rw [cutOut, hnone]

end Text
