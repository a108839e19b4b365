import Oxydra.Library.TextLaws
import Oxydra.Library.TextSearch

/-!
# Lower case

`str::to_lowercase` over the tables of the Unicode character database. A capital sigma is the one
letter that is mapped by its place in the text.

A text in lower case, and any part of it, is in lower case already (`toLowercase_of_lower`), and a
text that starts and ends with visible characters still does (`visible_toLowercase`).
-/

namespace Text

open List

/-- The tables of the character database that lower case is about, with what holds of them. -/
structure CaseTables where
  /-- The full mapping to lower case. -/
  toLower : Char → List Char
  /-- The property `Cased`. -/
  cased : Char → Bool
  /-- The property `Case_Ignorable`. -/
  caseIgnorable : Char → Bool
  toLower_ne_nil : ∀ c, toLower c ≠ []
  /-- A letter that another one is mapped to is mapped to itself. -/
  toLower_fixed : ∀ c, ∀ d ∈ toLower c, toLower d = [d]
  /-- No visible character is mapped to white space. -/
  toLower_visible : ∀ c, isWhitespace c = false → ∀ d ∈ toLower c, isWhitespace d = false
  toLower_sigma : toLower 'Σ' = ['σ']
  toLower_finalSigma : toLower 'ς' = ['ς']

namespace CaseTables

variable (tables : CaseTables)

/-- `case_ignorable_then_cased`. -/
def caseIgnorableThenCased (text : List Char) : Bool :=
  (text.dropWhile tables.caseIgnorable).head?.any tables.cased

/-- `map_uppercase_sigma`, between the characters before it, the last one first, and those behind.
-/
def mapUppercaseSigma (before after : List Char) : Char :=
  if tables.caseIgnorableThenCased before ∧ ¬tables.caseIgnorableThenCased after then 'ς' else 'σ'

/-- The lower case of characters behind others, the last one of which comes first. -/
def lowerFrom (before : List Char) : List Char → List Char
  | [] => []
  | c :: rest =>
    (if c = 'Σ' then [tables.mapUppercaseSigma before rest] else tables.toLower c) ++
      lowerFrom (c :: before) rest

/-- `str::to_lowercase`. -/
def toLowercase (text : String) : String := String.ofList (tables.lowerFrom [] text.toList)

/-- A character that lower case leaves alone wherever it stands. -/
def Lower (c : Char) : Prop := c ≠ 'Σ' ∧ tables.toLower c = [c]

instance (c : Char) : Decidable (tables.Lower c) := inferInstanceAs (Decidable (_ ∧ _))

variable {tables}

theorem lower_of_mem_toLower {c d : Char} (hd : d ∈ tables.toLower c) : tables.Lower d := by
  have hfixed := tables.toLower_fixed c d hd
  refine ⟨fun h => ?_, hfixed⟩
  rw [h, tables.toLower_sigma] at hfixed
  exact absurd (singleton_injective hfixed) (by decide)

/-- Either form of a small sigma. -/
theorem lower_mapUppercaseSigma (before after : List Char) :
    tables.Lower (tables.mapUppercaseSigma before after) := by
  unfold mapUppercaseSigma
  split_ifs
  · exact ⟨by decide, tables.toLower_finalSigma⟩
  · exact lower_of_mem_toLower (by rw [tables.toLower_sigma]; exact mem_singleton_self _)

/-- What a character is mapped to is in lower case. -/
theorem lower_of_mem_lowerFrom {before text : List Char} {d : Char}
    (hd : d ∈ tables.lowerFrom before text) : tables.Lower d := by
  induction text generalizing before with
  | nil => exact nomatch hd
  | cons c rest ih =>
    rw [lowerFrom, mem_append] at hd
    rcases hd with hfirst | hrest
    · split_ifs at hfirst
      · rw [mem_singleton.mp hfirst]
        exact lower_mapUppercaseSigma before rest
      · exact lower_of_mem_toLower hfirst
    · exact ih hrest

theorem lowerFrom_of_lower {before text : List Char} (h : ∀ c ∈ text, tables.Lower c) :
    tables.lowerFrom before text = text := by
  induction text generalizing before with
  | nil => rfl
  | cons c rest ih =>
    obtain ⟨hsigma, hfixed⟩ := h c mem_cons_self
    rw [lowerFrom, if_neg hsigma, hfixed, ih fun d hd => h d (mem_cons_of_mem c hd)]
    rfl

/-- A text of characters in lower case is left alone. -/
theorem toLowercase_of_lower {text : String} (h : ∀ c ∈ text.toList, tables.Lower c) :
    tables.toLowercase text = text := by
  rw [toLowercase, lowerFrom_of_lower h, String.ofList_toList]

theorem lower_of_mem_toLowercase {text : String} {d : Char}
    (hd : d ∈ (tables.toLowercase text).toList) : tables.Lower d := by
  rw [toLowercase, String.toList_ofList] at hd
  exact lower_of_mem_lowerFrom hd

/-! ## Visible texts -/

/-- The form of one character, wherever it stands. -/
theorem mapped_visible {before after : List Char} {c : Char} (hc : isWhitespace c = false) :
    let mapped := if c = 'Σ' then [tables.mapUppercaseSigma before after] else tables.toLower c
    mapped ≠ [] ∧ ∀ d ∈ mapped, isWhitespace d = false := by
  split_ifs
  · refine ⟨cons_ne_nil _ _, fun d hd => ?_⟩
    rw [mem_singleton.mp hd]
    unfold mapUppercaseSigma
    split_ifs <;> decide
  · exact ⟨tables.toLower_ne_nil c, tables.toLower_visible c hc⟩

theorem lowerFrom_ne_nil {before text : List Char} (h : text ≠ []) :
    tables.lowerFrom before text ≠ [] := by
  obtain ⟨c, rest, rfl⟩ := exists_cons_of_ne_nil h
  rw [lowerFrom]
  apply append_ne_nil_of_left_ne_nil
  split_ifs
  · exact cons_ne_nil _ _
  · exact tables.toLower_ne_nil c

theorem getLast_lowerFrom_visible {before text : List Char}
    (h : ∀ c ∈ text.getLast?, isWhitespace c = false) :
    ∀ d ∈ (tables.lowerFrom before text).getLast?, isWhitespace d = false := by
  induction text generalizing before with
  | nil => exact nofun
  | cons c rest ih =>
    intro d hd
    rw [lowerFrom, List.getLast?_append] at hd
    cases rest with
    | nil =>
      have hmapped := @mapped_visible tables before [] c (h c rfl)
      exact hmapped.2 d (mem_of_getLast? hd)
    | cons e rest =>
      rw [List.getLast?_cons_cons] at h
      have hsome := List.getLast?_isSome.mpr
        (@lowerFrom_ne_nil tables (c :: before) _ (cons_ne_nil e rest))
      rw [Option.or_of_isSome hsome] at hd
      exact ih h d hd

variable (tables) in
/-- A text that starts and ends with visible characters still does. -/
theorem visible_toLowercase {text : String} (h : Visible text.toList) :
    Visible (tables.toLowercase text).toList := by
  rw [toLowercase, String.toList_ofList]
  refine ⟨fun d hd => ?_, getLast_lowerFrom_visible h.2⟩
  cases htext : text.toList with
  | nil =>
    rw [htext] at hd
    exact nomatch hd
  | cons c rest =>
    have hmapped := @mapped_visible tables [] rest c (h.1 c (by rw [htext]; rfl))
    rw [htext, lowerFrom, List.head?_append_of_ne_nil _ hmapped.1] at hd
    exact hmapped.2 d (mem_of_head? hd)

variable (tables) in
theorem toLowercase_ne_empty {text : String} (h : text ≠ "") : tables.toLowercase text ≠ "" := by
  intro hempty
  have hlist := congrArg String.toList hempty
  rw [toLowercase, String.toList_ofList] at hlist
  exact lowerFrom_ne_nil (mt String.toList_eq_nil_iff.mp h) hlist

/-! ## ASCII -/

/-- No character is mapped to one that is not in ASCII, but itself. -/
theorem toLower_ne {c other : Char} (hother : 128 ≤ other.toNat) (h : c ≠ other) :
    c.toLower ≠ other := by
  have hne := mt Char.toNat_inj.mp h
  rw [ne_eq, ← Char.toNat_inj, toNat_toLower]
  split_ifs <;> omega

theorem isWhitespace_toLower {c : Char} (h : isWhitespace c = false) :
    isWhitespace c.toLower = false := by
  have hnat := toNat_toLower c
  split_ifs at hnat with hupper
  · unfold isWhitespace
    rw [hnat]
    simp only [Bool.or_eq_false_iff, Bool.and_eq_false_iff, decide_eq_false_iff_not,
      beq_eq_false_iff_ne]
    omega
  · rwa [Char.toNat_inj.mp hnat]

/-- The tables as far as texts of ASCII characters and of dotted capital Is need them. -/
def asciiAndDotted : CaseTables where
  toLower c :=
    if c = 'Σ' then ['σ'] else if c = 'İ' then ['i', Char.ofNat 0x307] else [c.toLower]
  cased c := c.isAlpha || c ∈ ['σ', 'ς', 'Σ', 'İ']
  caseIgnorable c := c ∈ ['\'', '.', ':', '^', Char.ofNat 0x60, Char.ofNat 0x307]
  toLower_ne_nil c := by split_ifs <;> exact cons_ne_nil _ _
  toLower_fixed c d hd := by
    split_ifs at hd with hsigma hdotted
    · rw [mem_singleton.mp hd]
      decide
    · obtain rfl | hd := mem_cons.mp hd
      · decide
      · rw [mem_singleton.mp hd]
        decide
    · rw [mem_singleton.mp hd, if_neg (toLower_ne (by decide) hsigma),
        if_neg (toLower_ne (by decide) hdotted), toLower_toLower]
  toLower_visible c hc d hd := by
    split_ifs at hd with hsigma hdotted
    · rw [mem_singleton.mp hd]
      decide
    · obtain rfl | hd := mem_cons.mp hd
      · decide
      · rw [mem_singleton.mp hd]
        decide
    · rw [mem_singleton.mp hd]
      exact isWhitespace_toLower hc
  toLower_sigma := by decide
  toLower_finalSigma := by decide

end CaseTables

end Text
