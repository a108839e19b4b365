import Mathlib.Data.List.Basic

/-!
# A small HTML

Text in which angle brackets and ampersands are escaped, and elements that are closed in the order
in which they are opened, one of which may have a target. What stands in front of well-formed HTML
tells how it is read, so that a part can be taken off its front (`WellFormed.of_escape_append`,
`WellFormed.of_element`).

The tags of well-formed HTML can be left out, and the entities of its text decoded: of a text that
is escaped and put into elements this gives the text.
-/

namespace Html

open List

/-! ## Escaped text -/

/-- A character as it stands in text. -/
def escapeChar (c : Char) : List Char :=
  if c = '&' then "&amp;".toList
  else if c = '<' then "&lt;".toList
  else if c = '>' then "&gt;".toList
  else [c]

/-- A text with its angle brackets and ampersands escaped. -/
def escape (text : List Char) : List Char := text.flatMap escapeChar

theorem escape_cons (c : Char) (text : List Char) :
    escape (c :: text) = escapeChar c ++ escape text := flatMap_cons

/-- The names of the entities that a text may have. -/
def entityNames : List (List Char) := ["amp", "lt", "gt", "quot"].map String.toList

/-- One character of escaped text: itself or an entity. -/
inductive TextUnit : List Char → Prop
  | char {c : Char} (h : c ≠ '<' ∧ c ≠ '>' ∧ c ≠ '&') : TextUnit [c]
  | entity {name : List Char} (h : name ∈ entityNames) : TextUnit ('&' :: name ++ [';'])

/-- The name of an entity consists of letters. -/
theorem isAlphanum_of_mem_entityNames {name : List Char} (h : name ∈ entityNames) :
    ∀ c ∈ name, c.isAlphanum = true := by
  have hall : (entityNames.all fun name => name.all Char.isAlphanum) = true := by decide
  exact all_eq_true.mp (all_eq_true.mp hall name h)

theorem textUnit_escapeChar (c : Char) : TextUnit (escapeChar c) := by
  unfold escapeChar
  split_ifs with hamp hlt hgt
  · exact @TextUnit.entity "amp".toList (by decide)
  · exact @TextUnit.entity "lt".toList (by decide)
  · exact @TextUnit.entity "gt".toList (by decide)
  · exact .char ⟨hlt, hgt, hamp⟩

theorem not_bracket_of_textUnit {unit : List Char} (h : TextUnit unit) :
    '<' ∉ unit ∧ '>' ∉ unit := by
  cases h with
  | @char c h => exact ⟨by simpa using h.1.symm, by simpa using h.2.1.symm⟩
  | @entity name h =>
    have hname (c : Char) (hc : c.isAlphanum = false) : c ∉ name := fun hmem => by
      rw [isAlphanum_of_mem_entityNames h c hmem] at hc
      exact nomatch hc
    have hlt := hname '<' (by decide)
    have hgt := hname '>' (by decide)
    simp [hlt, hgt]

/-- Escaped text has no brackets. -/
theorem not_bracket_of_mem_escape (text : List Char) : '<' ∉ escape text ∧ '>' ∉ escape text := by
  induction text with
  | nil => exact ⟨not_mem_nil, not_mem_nil⟩
  | cons c text ih =>
    have hunit := not_bracket_of_textUnit (textUnit_escapeChar c)
    rw [escape_cons, mem_append, mem_append]
    exact ⟨not_or.mpr ⟨hunit.1, ih.1⟩, not_or.mpr ⟨hunit.2, ih.2⟩⟩

/-- The first place where a character stands is one. -/
theorem append_cons_inj {c : Char} {xs xs' ys ys' : List Char} (h : c ∉ xs) (h' : c ∉ xs')
    (heq : xs ++ c :: ys = xs' ++ c :: ys') : xs = xs' ∧ ys = ys' := by
  induction xs generalizing xs' with
  | nil =>
    cases xs' with
    | nil => exact ⟨rfl, (cons.inj heq).2⟩
    | cons d xs' => exact absurd (by rw [(cons.inj heq).1]; exact mem_cons_self) h'
  | cons d xs ih =>
    cases xs' with
    | nil => exact absurd (by rw [(cons.inj heq).1]; exact mem_cons_self) h
    | cons e xs' =>
      obtain ⟨rfl, htail⟩ := cons.inj heq
      obtain ⟨rfl, rfl⟩ := ih (mt (mem_cons_of_mem _) h) (mt (mem_cons_of_mem _) h') htail
      exact ⟨rfl, rfl⟩

/-- A character of text is read in one way. -/
theorem TextUnit.append_inj {unit unit' rest rest' : List Char} (h : TextUnit unit)
    (h' : TextUnit unit') (heq : unit ++ rest = unit' ++ rest') : unit = unit' ∧ rest = rest' := by
  have hsemicolon {name : List Char} (h : name ∈ entityNames) : ';' ∉ name :=
    fun hmem => absurd (isAlphanum_of_mem_entityNames h ';' hmem) (by decide)
  cases h with
  | @char c h =>
    cases h' with
    | char h' =>
      cases heq
      exact ⟨rfl, rfl⟩
    | entity h' => exact absurd (cons.inj heq).1 h.2.2
  | @entity name h =>
    cases h' with
    | char h' => exact absurd (cons.inj heq).1.symm h'.2.2
    | @entity name' h' =>
      rw [append_assoc, append_assoc, cons_append, cons_append] at heq
      obtain ⟨rfl, rfl⟩ := append_cons_inj (hsemicolon h) (hsemicolon h') (cons.inj heq).2
      exact ⟨rfl, rfl⟩

/-- Escaped text. -/
inductive Text : List Char → Prop
  | nil : Text []
  | cons {unit text : List Char} : TextUnit unit → Text text → Text (unit ++ text)

theorem text_escape (text : List Char) : Text (escape text) := by
  induction text with
  | nil => exact .nil
  | cons c text ih => exact .cons (textUnit_escapeChar c) ih

/-! ## Elements -/

section

variable (names : List (List Char))

/-- The opening tag of an element, between its brackets: a name, or a link with its target. -/
inductive Tag : List Char → List Char → Prop
  | plain {name : List Char} : name ∈ names → Tag name name
  | link {target : List Char} : Text target → '"' ∉ target →
      Tag ['a'] ("a href=\"".toList ++ target ++ ['"'])

/-- Well-formed HTML: text, and elements that are closed. -/
inductive WellFormed : List Char → Prop
  | nil : WellFormed []
  | unit {unit rest : List Char} : TextUnit unit → WellFormed rest → WellFormed (unit ++ rest)
  | element {name body content rest : List Char} : Tag names name body → WellFormed content →
      WellFormed rest →
      WellFormed ('<' :: body ++ '>' :: (content ++ '<' :: '/' :: (name ++ '>' :: rest)))

variable {names}

/-- The names of elements are words. -/
def Words (names : List (List Char)) : Prop :=
  ∀ name ∈ names, name ≠ [] ∧ ∀ c ∈ name, c.isAlpha = true

/-- A tag starts with a letter, and neither the tag nor its name has a bracket. -/
theorem Tag.spec (hnames : Words names) {name body : List Char} (h : Tag names name body) :
    (∃ c rest, body = c :: rest ∧ c ≠ '/') ∧ '>' ∉ body ∧ '>' ∉ name := by
  cases h with
  | plain hname =>
    obtain ⟨hne, hletters⟩ := hnames name hname
    have hnot (c : Char) (hc : c.isAlpha = false) : c ∉ name := fun hmem => by
      rw [hletters c hmem] at hc
      exact nomatch hc
    obtain ⟨c, rest, rfl⟩ := exists_cons_of_ne_nil hne
    have hslash := hnot '/' (by decide)
    refine ⟨⟨c, rest, rfl, ?_⟩, hnot '>' (by decide), hnot '>' (by decide)⟩
    rintro rfl
    exact hslash mem_cons_self
  | @link target htext hquote =>
    have htarget : '>' ∉ target := by
      clear hquote
      induction htext with
      | nil => exact not_mem_nil
      | cons hunit _ ih =>
        rw [mem_append]
        exact not_or.mpr ⟨(not_bracket_of_textUnit hunit).2, ih⟩
    refine ⟨⟨'a', _, rfl, by decide⟩, ?_, by decide⟩
    rw [mem_append, mem_append]
    exact not_or.mpr ⟨not_or.mpr ⟨by decide, htarget⟩, by decide⟩

/-- What is read first of well-formed HTML is text or an element. -/
theorem WellFormed.cases_eq {html : List Char} (h : WellFormed names html) :
    html = [] ∨ (∃ unit rest, html = unit ++ rest ∧ TextUnit unit ∧ WellFormed names rest) ∨
      ∃ name body content rest, html = '<' :: body ++ '>' ::
        (content ++ '<' :: '/' :: (name ++ '>' :: rest)) ∧ Tag names name body ∧
          WellFormed names content ∧ WellFormed names rest := by
  cases h with
  | nil => exact .inl rfl
  | unit hunit hrest => exact .inr (.inl ⟨_, _, rfl, hunit, hrest⟩)
  | element htag hcontent hrest => exact .inr (.inr ⟨_, _, _, _, rfl, htag, hcontent, hrest⟩)

theorem TextUnit.head_ne {unit : List Char} (h : TextUnit unit) :
    ∃ c rest, unit = c :: rest ∧ c ≠ '<' := by
  cases h with
  | char h => exact ⟨_, _, rfl, h.1⟩
  | entity h => exact ⟨_, _, rfl, by decide⟩

/-- Text can be taken off the front. -/
theorem WellFormed.of_unit_append {unit rest : List Char} (hunit : TextUnit unit)
    (h : WellFormed names (unit ++ rest)) : WellFormed names rest := by
  obtain ⟨c, tail, rfl, hc⟩ := hunit.head_ne
  rcases h.cases_eq with hnil | ⟨unit', rest', heq, hunit', hrest'⟩ | ⟨_, _, _, _, heq, -⟩
  · exact nomatch hnil
  · rwa [(hunit.append_inj hunit' heq).2]
  · exact absurd (cons.inj heq).1 hc

theorem wellFormed_escape_append_iff (text rest : List Char) :
    WellFormed names (escape text ++ rest) ↔ WellFormed names rest := by
  induction text with
  | nil => rfl
  | cons c text ih =>
    rw [escape_cons, append_assoc, ← ih]
    exact ⟨.of_unit_append (textUnit_escapeChar c), .unit (textUnit_escapeChar c)⟩

/-- The first bracket of well-formed HTML opens an element. -/
theorem WellFormed.opens (hnames : Words names) {html : List Char} (h : WellFormed names html)
    {before more : List Char} (hbefore : '<' ∉ before) (heq : html = before ++ '<' :: more) :
    ∃ c rest, more = c :: rest ∧ c ≠ '/' := by
  induction h generalizing before with
  | nil => exact absurd heq.symm (append_ne_nil_of_right_ne_nil _ (cons_ne_nil _ _))
  | @unit unit rest hunit _ ih =>
    rcases append_eq_append_iff.mp heq with ⟨later, rfl, hrest⟩ | ⟨later, rfl, hmore⟩
    · exact ih (fun hmem => hbefore (mem_append_right _ hmem)) hrest
    · cases later with
      | nil => exact ih not_mem_nil hmore.symm
      | cons c later =>
        obtain ⟨rfl, -⟩ := cons.inj hmore
        exact absurd (mem_append_right _ mem_cons_self) (not_bracket_of_textUnit hunit).1
  | @element name body content rest htag _ _ _ _ =>
    obtain ⟨⟨c, tail, rfl, hc⟩, -⟩ := htag.spec hnames
    cases before with
    | nil =>
      obtain ⟨-, rfl⟩ := cons.inj heq
      exact ⟨c, _, rfl, hc⟩
    | cons d before => exact absurd (by rw [(cons.inj heq).1]; exact mem_cons_self) hbefore

/-- What stands before the first closing tag is the content of the element. -/
theorem WellFormed.content_eq (hnames : Words names) {content text x y : List Char}
    (h : WellFormed names content) (htext : '<' ∉ text)
    (heq : content ++ '<' :: '/' :: x = text ++ '<' :: '/' :: y) : x = y := by
  by_cases hcontent : '<' ∈ content
  · obtain ⟨before, more, rfl, hbefore⟩ := eq_append_cons_of_mem hcontent
    obtain ⟨c, rest, rfl, hc⟩ := h.opens hnames hbefore rfl
    rw [append_assoc] at heq
    have hinj := (append_cons_inj hbefore htext heq).2
    exact absurd (cons.inj hinj).1 hc
  · exact (cons.inj (append_cons_inj hcontent htext heq).2).2

/-- An element whose content is escaped text can be taken off the front, where its opening tag is
one. -/
theorem wellFormed_element_iff (hnames : Words names) {name body text rest : List Char}
    (hbody : '>' ∉ body) (hname : '>' ∉ name) :
    WellFormed names ('<' :: body ++ '>' :: (escape text ++ '<' :: '/' :: (name ++ '>' :: rest))) ↔
      Tag names name body ∧ WellFormed names rest := by
  constructor
  · intro h
    rcases h.cases_eq with hnil | ⟨unit, _, heq, hunit, -⟩ |
      ⟨name', body', content, rest', heq, htag, hcontent, hrest⟩
    · exact nomatch hnil
    · obtain ⟨c, tail, rfl, hc⟩ := hunit.head_ne
      exact absurd (cons.inj heq).1.symm hc
    · obtain ⟨-, hbody', hname'⟩ := htag.spec hnames
      obtain ⟨rfl, hinner⟩ := append_cons_inj hbody hbody' (cons.inj heq).2
      have hclose := hcontent.content_eq hnames (not_bracket_of_mem_escape text).1 hinner.symm
      obtain ⟨rfl, rfl⟩ := append_cons_inj hname' hname hclose
      exact ⟨htag, hrest⟩
  · rintro ⟨htag, hrest⟩
    have htext : WellFormed names (escape text) := by
      have hnil := (@wellFormed_escape_append_iff names text []).mpr .nil
      rwa [append_nil] at hnil
    exact .element htag htext hrest

end

/-! ## The text of HTML -/

/-- What stands outside of tags, from inside of one or from outside. -/
def stripTags : Bool → List Char → List Char
  | _, [] => []
  | true, c :: rest => if c = '>' then stripTags false rest else stripTags true rest
  | false, c :: rest => if c = '<' then stripTags true rest else c :: stripTags false rest

/-- The entities of angle brackets and ampersands, decoded. -/
def decode : List Char → List Char
  | '&' :: 'a' :: 'm' :: 'p' :: ';' :: rest => '&' :: decode rest
  | '&' :: 'l' :: 't' :: ';' :: rest => '<' :: decode rest
  | '&' :: 'g' :: 't' :: ';' :: rest => '>' :: decode rest
  | c :: rest => c :: decode rest
  | [] => []

/-- Text is outside of tags. -/
theorem stripTags_append {text : List Char} (h : '<' ∉ text) (rest : List Char) :
    stripTags false (text ++ rest) = text ++ stripTags false rest := by
  induction text with
  | nil => rfl
  | cons c text ih =>
    rw [mem_cons, not_or] at h
    rw [cons_append, stripTags, if_neg (Ne.symm h.1), ih h.2]
    rfl

/-- A tag is left out. -/
theorem stripTags_tag {body : List Char} (h : '>' ∉ body) (rest : List Char) :
    stripTags false ('<' :: body ++ '>' :: rest) = stripTags false rest := by
  have hinside : stripTags true (body ++ '>' :: rest) = stripTags false rest := by
    induction body with
    | nil => rw [nil_append, stripTags, if_pos rfl]
    | cons c body ih =>
      rw [mem_cons, not_or] at h
      rw [cons_append, stripTags, if_neg (Ne.symm h.1), ih h.2]
  rw [cons_append, stripTags, if_pos rfl, hinside]

/-- Of an element whose content is escaped text, the text is left. -/
theorem stripTags_element {name body : List Char} (hbody : '>' ∉ body) (hname : '>' ∉ name)
    (text rest : List Char) :
    stripTags false ('<' :: body ++ '>' :: (escape text ++ '<' :: '/' :: (name ++ '>' :: rest))) =
      escape text ++ stripTags false rest := by
  have hclosing : '>' ∉ '/' :: name := by
    rw [mem_cons, not_or]
    exact ⟨by decide, hname⟩
  rw [stripTags_tag hbody, stripTags_append (not_bracket_of_mem_escape text).1,
    ← cons_append, ← cons_append, stripTags_tag hclosing]

theorem decode_cons {c : Char} (h : c ≠ '&') (rest : List Char) :
    decode (c :: rest) = c :: decode rest := by
  rw [decode.eq_def]
  split <;> simp_all

/-- Escaped text is decoded to itself. -/
theorem decode_escape_append (text rest : List Char) :
    decode (escape text ++ rest) = text ++ decode rest := by
  induction text with
  | nil => rfl
  | cons c text ih =>
    rw [escape_cons, append_assoc, cons_append, ← ih]
    unfold escapeChar
    split_ifs with hamp hlt hgt
    · rw [hamp]
      rfl
    · rw [hlt]
      rfl
    · rw [hgt]
      rfl
    · exact decode_cons hamp _

end Html
