import Oxydra.Library.TextRuns

/-!
# Replacing a pattern in a text

The occurrences of a pattern are replaced from left to right, as `str::replace` does, or those of
them only that stand before a rest of a kind. The elements of a text are characters with something
else about them, and an occurrence is one of the characters.

Where the elements say from which place of a first text they come, a stretch of a text that comes
from one stretch of the first text (`Stretch`) was such a stretch before the replacement
(`Stretch.of_replaceBefore`), and the pattern is in none (`Stretch.not_pattern`).
-/

namespace Replacement

open List TextRuns

variable {α κ : Type*} [DecidableEq κ]

section

variable (key : α → κ) (ok : List α → Bool) (pattern : List κ) (replacement : List α)

/-- The occurrence of the pattern that starts a text, if the rest is of the kind. -/
def occurrenceAt (text : List α) : Option (List α) :=
  let found := text.take pattern.length
  if found.map key = pattern ∧ ok (text.drop pattern.length) then some found else none

/-- The occurrences that stand before a rest of the kind are replaced. -/
def replaceBefore (text : List α) : List α :=
  replaceAll (occurrenceAt key ok pattern) (fun _ => replacement) 0 text

end

/-- `str::replace`. An empty pattern stands before and behind every character. -/
def replace (pattern replacement text : List κ) : List κ :=
  if pattern = [] then replacement ++ text.flatMap (· :: replacement)
  else replaceBefore id (fun _ => true) pattern replacement text

section

variable {key : α → κ} {ok : List α → Bool} {pattern : List κ} {replacement : List α}

theorem replaceBefore_nil : replaceBefore key ok pattern replacement [] = [] := rfl

theorem occurrenceAt_append {found rest : List α} (hfound : found.map key = pattern) :
    occurrenceAt key ok pattern (found ++ rest) = if ok rest then some found else none := by
  have hlength : pattern.length = found.length := by rw [← hfound, length_map]
  unfold occurrenceAt
  rw [hlength, take_left, drop_left]
  simp [hfound]

/-- Where no occurrence starts, the element is kept. -/
theorem replaceBefore_cons {c : α} {rest : List α}
    (h : ∀ found rest', c :: rest = found ++ rest' → found.map key = pattern → ok rest' = false) :
    replaceBefore key ok pattern replacement (c :: rest) =
      c :: replaceBefore key ok pattern replacement rest := by
  refine replaceAll_cons _ (if_neg fun hoccurs => ?_)
  have hnot := h _ _ (take_append_drop pattern.length (c :: rest)).symm hoccurs.1
  rw [hnot] at hoccurs
  exact Bool.false_ne_true hoccurs.2

/-- An occurrence is replaced. -/
theorem replaceBefore_append (hne : pattern ≠ []) {found rest : List α}
    (hfound : found.map key = pattern) (hok : ok rest = true) :
    replaceBefore key ok pattern replacement (found ++ rest) =
      replacement ++ replaceBefore key ok pattern replacement rest := by
  have hnil : found ≠ [] := by
    rintro rfl
    exact hne hfound.symm
  refine replaceAll_append _ hnil ?_
  rw [occurrenceAt_append hfound, if_pos hok]

omit [DecidableEq κ] in
/-- What is shown of a text by its first element, if no occurrence starts there, or its first
occurrence. -/
theorem replaceBefore_induct (key : α → κ) (ok : List α → Bool) (hne : pattern ≠ [])
    {motive : List α → Prop} (nil : motive [])
    (keep : ∀ c rest, (∀ found rest', c :: rest = found ++ rest' → found.map key = pattern →
      ok rest' = false) → motive rest → motive (c :: rest))
    (subst : ∀ found rest, found.map key = pattern → ok rest = true → motive rest →
      motive (found ++ rest))
    (text : List α) : motive text := by
  induction hlength : text.length using Nat.strong_induction_on generalizing text with
  | _ n ih =>
    by_cases hoccurs : ∃ found rest, text = found ++ rest ∧ found.map key = pattern ∧ ok rest = true
    · obtain ⟨found, rest, rfl, hfound, hok⟩ := hoccurs
      have hpos : 0 < found.length := by
        rw [← length_map (f := key), hfound]
        exact length_pos_iff.mpr hne
      have hshort : rest.length < n := by
        rw [length_append] at hlength
        omega
      exact subst found rest hfound hok (ih _ hshort rest rfl)
    · cases text with
      | nil => exact nil
      | cons c rest =>
        refine keep c rest (fun found rest' heq hfound => ?_) (ih rest.length ?_ rest rfl)
        · by_contra hok
          exact hoccurs ⟨found, rest', heq, hfound, by simpa using hok⟩
        · rw [← hlength]
          exact Nat.lt_succ_self _

/-- A text without an occurrence stays as it is. -/
theorem replaceBefore_of_absent (hne : pattern ≠ []) {text : List α}
    (h : ¬pattern <:+: text.map key) : replaceBefore key ok pattern replacement text = text := by
  induction text using replaceBefore_induct key ok hne with
  | nil => rfl
  | keep c rest hnone ih =>
    rw [replaceBefore_cons hnone, ih fun hinside => h (hinside.trans (suffix_cons _ _).isInfix)]
  | subst found rest hfound hok ih =>
    rw [map_append, hfound] at h
    exact absurd (prefix_append _ _).isInfix h

/-- Nothing but elements of the text and of the replacement stands in the result. -/
theorem mem_replaceBefore (hne : pattern ≠ []) {text : List α} {x : α}
    (h : x ∈ replaceBefore key ok pattern replacement text) : x ∈ replacement ∨ x ∈ text := by
  induction text using replaceBefore_induct key ok hne with
  | nil => exact .inr h
  | keep c rest hnone ih =>
    rw [replaceBefore_cons hnone] at h
    rcases mem_cons.mp h with rfl | h
    · exact .inr mem_cons_self
    · exact (ih h).imp_right (mem_cons_of_mem _)
  | subst found rest hfound hok ih =>
    rw [replaceBefore_append hne hfound hok] at h
    rcases mem_append.mp h with h | h
    · exact .inl h
    · exact (ih h).imp_right (mem_append_right _)

/-- If every occurrence stands before a rest of the kind, all are replaced. -/
theorem replaceBefore_congr (hne : pattern ≠ []) {text : List α}
    (h : ∀ before found rest, text = before ++ found ++ rest → found.map key = pattern →
      ok rest = true) :
    replaceBefore key (fun _ => true) pattern replacement text =
      replaceBefore key ok pattern replacement text := by
  induction text using replaceBefore_induct key (fun _ => true) hne with
  | nil => rfl
  | keep c rest hnone ih =>
    rw [replaceBefore_cons hnone, replaceBefore_cons fun found rest' heq hfound =>
      absurd (hnone found rest' heq hfound) nofun]
    rw [ih fun before found rest' heq hfound =>
      h (c :: before) found rest' (by rw [heq]; rfl) hfound]
  | subst found rest hfound hok ih =>
    rw [replaceBefore_append hne hfound rfl,
      replaceBefore_append hne hfound (h [] found rest rfl hfound)]
    rw [ih fun before found' rest' heq hfound' =>
      h (found ++ before) found' rest' (by rw [heq]; simp) hfound']

/-- The characters of the result are the result on the characters. -/
theorem map_replaceBefore (hne : pattern ≠ []) (text : List α) :
    (replaceBefore key (fun _ => true) pattern replacement text).map key =
      replaceBefore id (fun _ => true) pattern (replacement.map key) (text.map key) := by
  induction text using replaceBefore_induct key (fun _ => true) hne with
  | nil => rfl
  | keep c rest hnone ih =>
    rw [replaceBefore_cons hnone, map_cons, ih, map_cons, replaceBefore_cons]
    intro found rest' heq hfound
    obtain ⟨first, last, hsplit, hfirst, -⟩ := map_eq_append_iff.mp
      ((map_cons (f := key)).trans heq)
    refine absurd (hnone first last hsplit ?_) nofun
    rw [hfirst, ← hfound, map_id]
  | subst found rest hfound hok ih =>
    rw [replaceBefore_append hne hfound rfl, map_append, ih, map_append,
      replaceBefore_append hne (by rw [map_id, hfound]) rfl]

end

/-! ## Where the elements come from -/

section

variable (origin : α → Option ℕ)

/-- The elements come from the places from one on, one after the other. -/
def Stretch : ℕ → List α → Prop
  | _, [] => True
  | i, x :: xs => origin x = some i ∧ Stretch (i + 1) xs

/-- The elements of places that stand next to each other do so still, if both are there. -/
def Tight : List α → Prop
  | [] => True
  | x :: xs => (∀ i, origin x = some i → ∀ y ∈ xs.tail, origin y ≠ some (i + 1)) ∧ Tight xs

variable {origin} {key : α → κ} {pattern : List κ} {replacement text xs : List α} {i : ℕ}

theorem Stretch.ne_none (h : Stretch origin i xs) : ∀ x ∈ xs, origin x ≠ none := by
  induction xs generalizing i with
  | nil => nofun
  | cons y xs ih =>
    rw [forall_mem_cons]
    exact ⟨by rw [h.1]; exact nofun, ih h.2⟩

theorem Stretch.of_append {ys : List α} (h : Stretch origin i (xs ++ ys)) :
    Stretch origin i xs := by
  induction xs generalizing i with
  | nil => trivial
  | cons x xs ih => exact ⟨h.1, ih h.2⟩

omit [DecidableEq κ] in
/-- A text with the place of each character is tight. -/
theorem tight_zipIdx (text : List κ) (n : ℕ) :
    Tight Prod.snd ((text.zipIdx n).map fun p => (p.1, some p.2)) := by
  induction text generalizing n with
  | nil => trivial
  | cons c text ih =>
    refine ⟨fun i hi y hy => ?_, ih (n + 1)⟩
    cases hi
    rw [← map_tail] at hy
    obtain ⟨⟨d, place⟩, hmem, rfl⟩ := mem_map.mp hy
    cases text with
    | nil => exact nomatch hmem
    | cons e text =>
      have hle := (mem_zipIdx hmem).1
      rw [ne_eq, Option.some.injEq]
      show place ≠ _
      omega

/-- What comes from the text is not part of what comes from nowhere. -/
theorem infix_of_append {inserted : List α} (hinserted : ∀ x ∈ inserted, origin x = none)
    (hxs : ∀ x ∈ xs, origin x ≠ none) (h : xs <:+: inserted ++ text) : xs <:+: text := by
  induction inserted with
  | nil => exact h
  | cons y inserted ih =>
    rw [forall_mem_cons] at hinserted
    rcases infix_cons_iff.mp h with hfront | hinside
    · cases xs with
      | nil => exact nil_infix
      | cons x xs =>
        obtain ⟨rfl, -⟩ := cons_prefix_cons.mp hfront
        exact absurd hinserted.1 (hxs x mem_cons_self)
    · exact ih hinserted.2 hinside

theorem Tight.of_append {before : List α} (h : Tight origin (before ++ text)) :
    Tight origin text := by
  induction before with
  | nil => exact h
  | cons x before ih => exact ih h.2

theorem Tight.append {inserted : List α} (hinserted : ∀ x ∈ inserted, origin x = none)
    (h : Tight origin text) : Tight origin (inserted ++ text) := by
  induction inserted with
  | nil => exact h
  | cons x inserted ih =>
    rw [forall_mem_cons] at hinserted
    refine ⟨fun i hi => ?_, ih hinserted.2⟩
    rw [hinserted.1] at hi
    exact nomatch hi

/-- Behind the first element of the result stand elements from behind the first one of the text. -/
theorem mem_tail_replaceBefore (hne : pattern ≠ []) {x : α}
    (h : x ∈ (replaceBefore key (fun _ => true) pattern replacement text).tail) :
    x ∈ replacement ∨ x ∈ text.tail := by
  induction text using replaceBefore_induct key (fun _ => true) hne with
  | nil => exact .inr h
  | keep c rest hnone ih =>
    rw [replaceBefore_cons hnone, tail_cons] at h
    exact mem_replaceBefore hne h
  | subst found rest hfound hok ih =>
    rw [replaceBefore_append hne hfound rfl] at h
    rcases mem_append.mp (mem_of_mem_tail h) with h | h
    · exact .inl h
    · refine (mem_replaceBefore hne h).imp_right fun h => ?_
      obtain ⟨c, found, rfl⟩ := exists_cons_of_ne_nil fun hnil =>
        hne (hfound.symm.trans (congrArg (List.map key) hnil))
      exact mem_append_right _ h

variable (hinserted : ∀ x ∈ replacement, origin x = none)

include hinserted

theorem Tight.replaceBefore (hne : pattern ≠ []) (h : Tight origin text) :
    Tight origin (replaceBefore key (fun _ => true) pattern replacement text) := by
  induction text using replaceBefore_induct key (fun _ => true) hne with
  | nil => trivial
  | keep c rest hnone ih =>
    rw [replaceBefore_cons hnone]
    refine ⟨fun i hi y hy => ?_, ih h.2⟩
    rcases mem_tail_replaceBefore hne hy with hy | hy
    · rw [hinserted y hy]
      exact nofun
    · exact h.1 i hi y hy
  | subst found rest hfound hok ih =>
    rw [replaceBefore_append hne hfound rfl]
    exact (ih h.of_append).append hinserted

/-- A stretch that begins the result begins the text, if its first place is met nowhere else. -/
theorem Stretch.prefix_of_replaceBefore (hne : pattern ≠ []) (htight : Tight origin text)
    (hplace : ∀ y ∈ text.tail, origin y ≠ some i) (hxs : Stretch origin i xs)
    (h : xs <+: Replacement.replaceBefore key (fun _ => true) pattern replacement text) :
    xs <+: text := by
  induction text using replaceBefore_induct key (fun _ => true) hne
    generalizing i xs with
  | nil => exact h
  | keep c rest hnone ih =>
    cases xs with
    | nil => exact nil_prefix
    | cons x xs =>
      rw [replaceBefore_cons hnone] at h
      obtain ⟨rfl, hrest⟩ := cons_prefix_cons.mp h
      exact cons_prefix_cons.mpr ⟨rfl, ih htight.2 (htight.1 i hxs.1) hxs.2 hrest⟩
  | subst found rest hfound hok ih =>
    cases xs with
    | nil => exact nil_prefix
    | cons x xs =>
      rw [replaceBefore_append hne hfound rfl] at h
      rcases mem_append.mp (h.subset mem_cons_self) with hx | hx
      · exact absurd (hinserted x hx) (hxs.ne_none x mem_cons_self)
      · rcases mem_replaceBefore hne hx with hx | hx
        · exact absurd (hinserted x hx) (hxs.ne_none x mem_cons_self)
        · obtain ⟨c, found, rfl⟩ := exists_cons_of_ne_nil fun hnil =>
            hne (hfound.symm.trans (congrArg (List.map key) hnil))
          exact absurd hxs.1 (hplace x (mem_append_right _ hx))

/-- A stretch of the result is one of the text. -/
theorem Stretch.of_replaceBefore (hne : pattern ≠ []) (htight : Tight origin text)
    (hxs : Stretch origin i xs)
    (h : xs <:+: Replacement.replaceBefore key (fun _ => true) pattern replacement text) :
    xs <:+: text := by
  induction text using replaceBefore_induct key (fun _ => true) hne with
  | nil => exact h
  | keep c rest hnone ih =>
    rw [replaceBefore_cons hnone] at h
    rcases infix_cons_iff.mp h with h | h
    · cases xs with
      | nil => exact nil_infix
      | cons x xs =>
        obtain ⟨rfl, hrest⟩ := cons_prefix_cons.mp h
        have hfront :=
          hxs.2.prefix_of_replaceBefore hinserted hne htight.2 (htight.1 i hxs.1) hrest
        exact (cons_prefix_cons.mpr ⟨rfl, hfront⟩).isInfix
    · exact (ih htight.2 h).trans (suffix_cons _ _).isInfix
  | subst found rest hfound hok ih =>
    rw [replaceBefore_append hne hfound rfl] at h
    have hrest := ih htight.of_append (infix_of_append hinserted hxs.ne_none h)
    exact hrest.trans (suffix_append _ _).isInfix

/-- No stretch of the result is the pattern. -/
theorem Stretch.not_pattern (hne : pattern ≠ []) (htight : Tight origin text)
    (hxs : Stretch origin i xs)
    (h : xs <:+: Replacement.replaceBefore key (fun _ => true) pattern replacement text) :
    xs.map key ≠ pattern := by
  induction text using replaceBefore_induct key (fun _ => true) hne with
  | nil =>
    rw [infix_nil.mp h]
    exact hne.symm
  | keep c rest hnone ih =>
    rw [replaceBefore_cons hnone] at h
    rcases infix_cons_iff.mp h with h | h
    · intro hpattern
      cases xs with
      | nil => exact hne hpattern.symm
      | cons x xs =>
        obtain ⟨rfl, hrest⟩ := cons_prefix_cons.mp h
        -- the stretch begins the text, and would have been found there
        obtain ⟨behind, hbehind⟩ :=
          hxs.2.prefix_of_replaceBefore hinserted hne htight.2 (htight.1 i hxs.1) hrest
        exact absurd (hnone (x :: xs) behind (by rw [← hbehind]; rfl) hpattern) nofun
    · exact ih htight.2 h
  | subst found rest hfound hok ih =>
    rw [replaceBefore_append hne hfound rfl] at h
    exact ih htight.of_append (infix_of_append hinserted hxs.ne_none h)

end

end Replacement
