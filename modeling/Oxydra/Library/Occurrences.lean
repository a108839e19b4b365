import Oxydra.Library.Text

/-!
# Occurrences of a pattern

The occurrences of a pattern that do not overlap, in a text put together from parts. A pattern whose
last character stands nowhere else in it cannot reach across that character, so where a part ends in
it the counts of the parts add up.

Those that do not overlap are counted from the first occurrence on (`exists_first`), which is also
the one that is replaced if one is. So one is counted where the pattern occurs and any two of its
occurrences, with those that overlap, have a character in common (`countFrom_eq_one_iff`).
-/

namespace Text

open List

variable {pattern : List Char}

/-- A pattern with an occurrence where the text starts is counted, and passed over. -/
theorem countFrom_starts {c : Char} {cs : List Char} (h : pattern <+: c :: cs) :
    countFrom pattern 0 (c :: cs) = 1 + countFrom pattern (pattern.length - 1) cs := by
  rw [countFrom, if_pos (List.isPrefixOf_iff_prefix.mpr h)]

theorem countFrom_not_starts {c : Char} {cs : List Char} (h : ¬pattern <+: c :: cs) :
    countFrom pattern 0 (c :: cs) = countFrom pattern 0 cs := by
  rw [countFrom, if_neg fun hprefix => h (List.isPrefixOf_iff_prefix.mp hprefix)]

/-- Nothing is counted exactly where the pattern does not occur. -/
theorem countFrom_eq_zero_iff (hne : pattern ≠ []) :
    ∀ l : List Char, countFrom pattern 0 l = 0 ↔ ¬pattern <:+: l
  | [] => by simp [countFrom, hne]
  | c :: cs => by
    rw [infix_cons_iff]
    by_cases h : pattern <+: c :: cs
    · rw [countFrom_starts h]
      simp [h]
    · rw [countFrom_not_starts h, countFrom_eq_zero_iff hne cs]
      simp [h]

/-- A text without one of the pattern's characters has no occurrence of it. -/
theorem countFrom_eq_zero_of_not_mem {x : Char} (hx : x ∈ pattern) {l : List Char} (h : x ∉ l) :
    countFrom pattern 0 l = 0 :=
  (countFrom_eq_zero_iff (ne_nil_of_mem hx) l).mpr fun hin => h (hin.subset hx)

section

variable {init : List Char} {last : Char}

/-- An occurrence that starts before the last character ends there at the latest. -/
theorem prefix_append_iff (hlast : last ∉ init) (l rest : List Char) :
    init ++ [last] <+: l ++ [last] ++ rest ↔ init ++ [last] <+: l ++ [last] := by
  refine ⟨fun h => ?_, fun h => h.trans (prefix_append _ _)⟩
  obtain hlt | hle := Nat.lt_or_ge l.length init.length
  · -- the text's `last` would stand inside `init`
    have hmid : l ++ [last] <+: init := by
      refine prefix_of_prefix_length_le (prefix_append _ rest)
        ((prefix_append init [last]).trans h) ?_
      rw [length_append, length_singleton]
      omega
    exact absurd (hmid.subset (by simp)) hlast
  · exact prefix_of_prefix_length_le h (prefix_append _ _) (by simpa using hle)

/-- The count of a text that ends in the pattern's last character, and of what follows. -/
theorem countFrom_append (hlast : last ∉ init) (rest : List Char) :
    ∀ (l : List Char) (skip : ℕ), skip ≤ l.length + 1 →
      countFrom (init ++ [last]) skip (l ++ [last] ++ rest) =
        countFrom (init ++ [last]) skip (l ++ [last]) + countFrom (init ++ [last]) 0 rest
  | [], skip + 1, hskip => by
    obtain rfl : skip = 0 := by simpa using hskip
    simp [countFrom]
  | [], 0, _ => by
    rw [nil_append, cons_append, nil_append]
    have hiff := prefix_append_iff hlast [] rest
    rw [nil_append, cons_append, nil_append] at hiff
    by_cases h : init ++ [last] <+: [last]
    · have hinit : init = [] := by
        have hlen := h.length_le
        simpa using hlen
      rw [countFrom_starts (hiff.mpr h), countFrom_starts h, hinit]
      simp [countFrom]
    · rw [countFrom_not_starts (mt hiff.mp h), countFrom_not_starts h]
      simp [countFrom]
  | c :: l, skip + 1, hskip => countFrom_append hlast rest l skip (by simpa using hskip)
  | c :: l, 0, _ => by
    have hiff := prefix_append_iff hlast (c :: l) rest
    by_cases h : init ++ [last] <+: c :: l ++ [last]
    · have hlen := h.length_le
      rw [cons_append, cons_append] at *
      rw [countFrom_starts (hiff.mpr h), countFrom_starts h,
        countFrom_append hlast rest l _ (by simpa using hlen), Nat.add_assoc]
    · rw [cons_append, cons_append] at *
      rw [countFrom_not_starts (mt hiff.mp h), countFrom_not_starts h,
        countFrom_append hlast rest l 0 (Nat.zero_le _)]

end

/-! ## All occurrences -/

/-- The pattern occurs at a place of a text. -/
def OccursAt (pattern text : List Char) (i : ℕ) : Prop := pattern <+: text.drop i

instance {text : List Char} {i : ℕ} : Decidable (OccursAt pattern text i) :=
  inferInstanceAs (Decidable (pattern <+: text.drop i))

/-- `replacen(pattern, replacement, 1)`, of a pattern that is not empty. -/
def replaceFirst (pattern replacement : List Char) : List Char → List Char
  | [] => []
  | c :: cs =>
    if pattern.isPrefixOf (c :: cs) then replacement ++ (c :: cs).drop pattern.length
    else c :: replaceFirst pattern replacement cs

theorem occursAt_append {before : List Char} {i : ℕ} (text : List Char) :
    OccursAt pattern (before ++ text) (before.length + i) ↔ OccursAt pattern text i := by
  rw [OccursAt, OccursAt, drop_append, drop_eq_nil_of_le (Nat.le_add_right _ _),
    nil_append, Nat.add_sub_cancel_left]

theorem exists_occursAt {text : List Char} (h : pattern <:+: text) :
    ∃ i, OccursAt pattern text i := by
  obtain ⟨before, after, rfl⟩ := h
  refine ⟨before.length, ?_⟩
  rw [OccursAt, append_assoc, drop_left]
  exact prefix_append _ _

theorem OccursAt.infix_of {text : List Char} {i : ℕ} (h : OccursAt pattern text i) :
    pattern <:+: text :=
  h.isInfix.trans (drop_suffix i text).isInfix

/-- The characters passed over are not looked at. -/
theorem countFrom_skip (skip : ℕ) (text : List Char) :
    countFrom pattern skip text = countFrom pattern 0 (text.drop skip) := by
  induction text generalizing skip with
  | nil => cases skip <;> rfl
  | cons c cs ih =>
    cases skip with
    | zero => rfl
    | succ skip => rw [drop_succ_cons, countFrom, ih]

/-- The occurrence that is counted first, and replaced if one is. There is none before it. -/
theorem exists_first (hne : pattern ≠ []) (replacement : List Char) {text : List Char}
    (h : pattern <:+: text) :
    ∃ before after, text = before ++ pattern ++ after ∧
      (∀ i, OccursAt pattern text i → before.length ≤ i) ∧
      countFrom pattern 0 text = 1 + countFrom pattern 0 after ∧
      replaceFirst pattern replacement text = before ++ replacement ++ after := by
  induction text with
  | nil => exact absurd (infix_nil.mp h) hne
  | cons c cs ih =>
    by_cases hstarts : pattern <+: c :: cs
    · obtain ⟨after, hafter⟩ := hstarts
      refine ⟨[], after, hafter.symm, fun i _ => Nat.zero_le i, ?_, ?_⟩
      · have hrest : cs.drop (pattern.length - 1) = after := by
          obtain ⟨p, ps, rfl⟩ := exists_cons_of_ne_nil hne
          obtain ⟨-, rfl⟩ := List.cons.inj hafter
          rw [length_cons, Nat.add_sub_cancel]
          exact drop_left
        rw [countFrom_starts ⟨after, hafter⟩, countFrom_skip, hrest]
      · rw [replaceFirst, if_pos (List.isPrefixOf_iff_prefix.mpr ⟨after, hafter⟩), ← hafter,
          drop_left, nil_append]
    · obtain ⟨before, after, htext, hfirst, hcount, hreplaced⟩ :=
        ih ((infix_cons_iff.mp h).resolve_left hstarts)
      refine ⟨c :: before, after, by rw [htext]; rfl, fun i hi => ?_, ?_, ?_⟩
      · cases i with
        | zero => exact absurd hi hstarts
        | succ i => exact Nat.succ_le_succ (hfirst i hi)
      · rw [countFrom_not_starts hstarts, hcount]
      · rw [replaceFirst, if_neg (mt isPrefixOf_iff_prefix.mp hstarts), hreplaced]
        rfl

/-- One is counted where the pattern occurs and any two of its occurrences overlap. -/
theorem countFrom_eq_one_iff (hne : pattern ≠ []) (text : List Char) :
    countFrom pattern 0 text = 1 ↔ pattern <:+: text ∧
      ∀ i j, OccursAt pattern text i → OccursAt pattern text j → j < i + pattern.length := by
  by_cases h : pattern <:+: text
  case neg =>
    rw [(countFrom_eq_zero_iff hne text).mpr h]
    simp [h]
  obtain ⟨before, after, rfl, hfirst, hcount, -⟩ := exists_first hne [] h
  have hone : countFrom pattern 0 (before ++ pattern ++ after) = 1 ↔ ¬pattern <:+: after := by
    rw [hcount, ← countFrom_eq_zero_iff hne after]
    omega
  have hbehind : ∀ j, OccursAt pattern (before ++ pattern ++ after)
      (before.length + pattern.length + j) ↔ OccursAt pattern after j := by
    intro j
    rw [← length_append, occursAt_append]
  rw [hone]
  constructor
  · intro hnot
    refine ⟨h, fun i j hi hj => ?_⟩
    by_contra hle
    -- the second one stands behind the first occurrence of all
    have hi := hfirst i hi
    obtain ⟨k, rfl⟩ := Nat.exists_eq_add_of_le (show before.length + pattern.length ≤ j by omega)
    exact hnot ((hbehind k).mp hj).infix_of
  · rintro ⟨-, hoverlap⟩ hin
    obtain ⟨k, hk⟩ := exists_occursAt hin
    have hstart : OccursAt pattern (before ++ pattern ++ after) before.length := by
      rw [OccursAt, append_assoc, drop_left]
      exact prefix_append _ _
    have hlt := hoverlap _ _ hstart ((hbehind k).mpr hk)
    omega

end Text
