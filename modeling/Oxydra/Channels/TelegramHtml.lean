import Oxydra.Channels.TelegramMarkdown

/-!
# What the HTML for Telegram is

The output of `markdown_to_telegram_html` is read as HTML, and as text.

`markdownToTelegramHtml_wellFormed_iff`: it is well formed exactly where no link has a target with a
quote, which `html_escape` leaves as it is. `markdownToTelegramHtml_content_iff`: its text is that
of the Markdown exactly where no fence has a language tag that the line does not end behind, which
the scanner skips also where it is the code.
-/

namespace Oxydra

open List Html

/-- The names of the elements that the converter uses, but that of links. -/
def telegramElements : List (List Char) :=
  ["pre".toList, "code".toList, "b".toList, "s".toList, "i".toList]

theorem words_telegramElements : Words telegramElements := by
  have hwords : telegramElements.all fun name => name ≠ [] && name.all Char.isAlpha := by decide
  intro name hname
  simpa using all_eq_true.mp hwords name hname

/-! ## Well-formed output -/

/-- No link has a quote in its target. -/
def MarkdownPiece.TargetUnquoted : MarkdownPiece → Prop
  | .link _ url => '"' ∉ url
  | _ => True

instance : DecidablePred MarkdownPiece.TargetUnquoted
  | .link _ _ => inferInstanceAs (Decidable (_ ∉ _))
  | .fence .. | .marked .. | .header .. | .char _ => inferInstanceAs (Decidable True)

/-- An element of the converter in front of other HTML. -/
theorem wellFormed_htmlElement_append_iff {name : String} (hname : name.toList ∈ telegramElements)
    (content rest : List Char) :
    WellFormed telegramElements (htmlElement name content ++ rest) ↔
      WellFormed telegramElements rest := by
  have hbracket : '>' ∉ name.toList :=
    ((Tag.plain hname : Tag telegramElements _ _).spec words_telegramElements).2.1
  have hshape : htmlElement name content ++ rest = '<' :: name.toList ++ '>' ::
      (escape content ++ '<' :: '/' :: (name.toList ++ '>' :: rest)) := by
    simp [htmlElement, htmlEscape_eq]
  rw [hshape, wellFormed_element_iff words_telegramElements hbracket hbracket]
  exact and_iff_right (.plain hname)

theorem quote_mem_escape_iff (text : List Char) : '"' ∈ escape text ↔ '"' ∈ text := by
  induction text with
  | nil => rfl
  | cons c text ih =>
    rw [escape_cons, mem_append, ih, mem_cons]
    refine or_congr_left ?_
    unfold escapeChar
    split_ifs with hamp hlt hgt
    · rw [hamp]
      decide
    · rw [hlt]
      decide
    · rw [hgt]
      decide
    · exact mem_singleton

/-- The tag of a link is one exactly where its target has no quote. -/
theorem tag_link_iff (url : List Char) :
    Tag telegramElements ['a'] ("a href=\"".toList ++ escape url ++ ['"']) ↔ '"' ∉ url := by
  rw [← quote_mem_escape_iff]
  constructor
  · intro h
    generalize hbody : "a href=\"".toList ++ escape url ++ ['"'] = body at h
    cases h with
    | plain hname => exact absurd hname (by decide)
    | link htext hquote =>
      rw [append_assoc, append_assoc] at hbody
      rwa [append_cancel_right (append_cancel_left hbody)]
  · exact .link (text_escape url)

theorem not_bracket_link_body (url : List Char) :
    '>' ∉ "a href=\"".toList ++ escape url ++ ['"'] := by
  have htarget := (not_bracket_of_mem_escape url).2
  simp [htarget]

theorem htmlLink_append (url text rest : List Char) :
    htmlLink url text ++ rest =
      '<' :: ("a href=\"".toList ++ escape url ++ ['"']) ++ '>' ::
        (escape text ++ '<' :: '/' :: (['a'] ++ '>' :: rest)) := by
  have hstart : "<a href=\"".toList = '<' :: "a href=\"".toList := rfl
  have hend : "\">".toList = ['"', '>'] := rfl
  have hclose : "</a>".toList = ['<', '/', 'a', '>'] := rfl
  unfold htmlLink
  rw [hstart, hend, hclose, htmlEscape_eq, htmlEscape_eq]
  generalize "a href=\"".toList = start
  simp only [append_assoc, cons_append, nil_append]

/-- A piece in front of other HTML. -/
theorem wellFormed_html_append_iff (piece : MarkdownPiece) (rest : List Char) :
    WellFormed telegramElements (piece.html ++ rest) ↔
      piece.TargetUnquoted ∧ WellFormed telegramElements rest := by
  cases piece with
  | fence tag newline code closed =>
    exact (@wellFormed_htmlElement_append_iff "pre" (by decide) code rest).trans
      (and_iff_right trivial).symm
  | marked mark content closed =>
    have hname : mark.element.toList ∈ telegramElements := by cases mark <;> decide
    exact (wellFormed_htmlElement_append_iff hname content rest).trans
      (and_iff_right trivial).symm
  | header hashes spaces content =>
    exact (@wellFormed_htmlElement_append_iff "b" (by decide) content rest).trans
      (and_iff_right trivial).symm
  | char c =>
    have hescape := @wellFormed_escape_append_iff telegramElements [c] rest
    rw [escape, flatMap_singleton] at hescape
    exact hescape.trans (and_iff_right trivial).symm
  | link text url =>
    have hname : '>' ∉ ['a'] := by decide
    rw [MarkdownPiece.html, htmlLink_append,
      wellFormed_element_iff words_telegramElements (not_bracket_link_body url) hname, tag_link_iff]
    rfl

theorem wellFormed_flatMap_html_iff (pieces : List MarkdownPiece) :
    WellFormed telegramElements (pieces.flatMap MarkdownPiece.html) ↔
      ∀ piece ∈ pieces, piece.TargetUnquoted := by
  induction pieces with
  | nil => exact iff_of_true .nil nofun
  | cons piece pieces ih =>
    rw [flatMap_cons, wellFormed_html_append_iff, ih, forall_mem_cons]

/-- The converter ends with well-formed HTML exactly where no link has a target with a quote. -/
theorem markdownToTelegramHtml_wellFormed_iff (input : String) :
    (∃ html, markdownToTelegramHtml input = some html ∧ WellFormed telegramElements html) ↔
      ∀ piece ∈ markdownPieces input, piece.TargetUnquoted := by
  rw [markdownToTelegramHtml_eq, ← wellFormed_flatMap_html_iff]
  exact ⟨fun ⟨_, heq, hwell⟩ => Option.some.inj heq ▸ hwell, fun hwell => ⟨_, rfl, hwell⟩⟩

/-- A link whose target has a quote. -/
theorem quoted_target_not_wellFormed :
    ¬∃ html, markdownToTelegramHtml "[t](x\"y)" = some html ∧
      WellFormed telegramElements html := by
  rw [markdownToTelegramHtml_eq, show markdownPieces "[t](x\"y)" =
    [.link ['t'] ['x', '"', 'y']] by decide]
  rintro ⟨html, heq, hwell⟩
  cases heq
  rw [wellFormed_flatMap_html_iff] at hwell
  exact absurd (hwell _ (mem_singleton_self _)) (by decide)

/-! ## Content -/

/-- No fence has a language tag that the line does not end behind. -/
def MarkdownPiece.TagEndsLine : MarkdownPiece → Prop
  | .fence tag newline _ _ => tag = [] ∨ newline = true
  | _ => True

instance : DecidablePred MarkdownPiece.TagEndsLine
  | .fence .. => inferInstanceAs (Decidable (_ ∨ _))
  | .link .. | .marked .. | .header .. | .char _ => inferInstanceAs (Decidable True)

/-- The text that is left of a piece. -/
def MarkdownPiece.kept : MarkdownPiece → List Char
  | .fence _ _ code _ => code
  | piece => piece.shown

theorem stripTags_htmlElement {name : String} (hname : '>' ∉ name.toList)
    (content rest : List Char) :
    stripTags false (htmlElement name content ++ rest) =
      escape content ++ stripTags false rest := by
  have hshape : htmlElement name content ++ rest = '<' :: name.toList ++ '>' ::
      (escape content ++ '<' :: '/' :: (name.toList ++ '>' :: rest)) := by
    simp [htmlElement, htmlEscape_eq]
  rw [hshape, stripTags_element hname hname]

/-- Of the HTML of a piece, the text that is kept is left. -/
theorem stripTags_html (piece : MarkdownPiece) (rest : List Char) :
    stripTags false (piece.html ++ rest) = escape piece.kept ++ stripTags false rest := by
  cases piece with
  | fence tag newline code closed => exact @stripTags_htmlElement "pre" (by decide) code rest
  | marked mark content closed =>
    have hname : '>' ∉ mark.element.toList := by cases mark <;> decide
    exact stripTags_htmlElement hname content rest
  | header hashes spaces content => exact @stripTags_htmlElement "b" (by decide) content rest
  | char c =>
    have hescape := stripTags_append (not_bracket_of_mem_escape [c]).1 rest
    rw [escape, flatMap_singleton] at hescape
    have hkept : escape (MarkdownPiece.kept (.char c)) = escapeChar c := flatMap_singleton ..
    rw [hkept]
    exact hescape
  | link text url =>
    have hname : '>' ∉ ['a'] := by decide
    rw [MarkdownPiece.html, htmlLink_append, stripTags_element (not_bracket_link_body url) hname]
    rfl

/-- The text of the output is what is kept of the pieces. -/
theorem decode_stripTags_html (pieces : List MarkdownPiece) :
    decode (stripTags false (pieces.flatMap MarkdownPiece.html)) =
      pieces.flatMap MarkdownPiece.kept := by
  induction pieces with
  | nil => rfl
  | cons piece pieces ih =>
    rw [flatMap_cons, stripTags_html, decode_escape_append, ih, flatMap_cons]

/-- Only the language tag of a fence can be lost. -/
theorem MarkdownPiece.kept_suffix_shown (piece : MarkdownPiece) :
    piece.kept <:+ piece.shown ∧ (piece.kept = piece.shown ↔ piece.TagEndsLine) := by
  cases piece with
  | fence tag newline code closed =>
    refine ⟨suffix_append _ _, ?_⟩
    rw [kept, shown, TagEndsLine]
    cases newline with
    | true => simp
    | false => simp
  | marked | header | char | link => exact ⟨suffix_refl _, iff_of_true rfl trivial⟩

theorem length_flatMap_kept_le (pieces : List MarkdownPiece) :
    (pieces.flatMap MarkdownPiece.kept).length ≤ (pieces.flatMap MarkdownPiece.shown).length := by
  induction pieces with
  | nil => exact Nat.le_refl 0
  | cons piece pieces ih =>
    have hpiece := piece.kept_suffix_shown.1.length_le
    rw [flatMap_cons, flatMap_cons, length_append, length_append]
    omega

/-- What is kept of pieces is what they show exactly where this holds of each of them. -/
theorem flatMap_kept_eq_iff (pieces : List MarkdownPiece) :
    pieces.flatMap MarkdownPiece.kept = pieces.flatMap MarkdownPiece.shown ↔
      ∀ piece ∈ pieces, piece.TagEndsLine := by
  induction pieces with
  | nil => exact iff_of_true rfl nofun
  | cons piece pieces ih =>
    rw [flatMap_cons, flatMap_cons, forall_mem_cons, ← ih,
      ← piece.kept_suffix_shown.2]
    constructor
    · intro heq
      have hlength := congrArg List.length heq
      have hpiece := piece.kept_suffix_shown.1.length_le
      have hpieces := length_flatMap_kept_le pieces
      rw [length_append, length_append] at hlength
      exact append_inj heq (by omega)
    · rintro ⟨hpiece, hpieces⟩
      rw [hpiece, hpieces]

/-- The pieces make up the input, and the text of the output is what they show, exactly where no
fence has a language tag that the line does not end behind. -/
theorem markdownToTelegramHtml_content_iff (input : String) :
    ((markdownPieces input).flatMap MarkdownPiece.source = input.toList ∧
      ∃ html, markdownToTelegramHtml input = some html ∧
        decode (stripTags false html) = (markdownPieces input).flatMap MarkdownPiece.shown) ↔
      ∀ piece ∈ markdownPieces input, piece.TagEndsLine := by
  rw [and_iff_right (flatMap_source_markdownPieces input), markdownToTelegramHtml_eq,
    ← flatMap_kept_eq_iff, ← decode_stripTags_html]
  exact ⟨fun ⟨_, heq, htext⟩ => Option.some.inj heq ▸ htext, fun htext => ⟨_, rfl, htext⟩⟩

/-- A fence on one line, whose code is skipped as the language tag. -/
theorem fence_on_one_line_loses_code :
    ¬∃ html, markdownToTelegramHtml "```code```" = some html ∧
      decode (stripTags false html) =
        (markdownPieces "```code```").flatMap MarkdownPiece.shown := by
  rw [markdownToTelegramHtml_eq, show markdownPieces "```code```" =
    [.fence ['c', 'o', 'd', 'e'] false [] true] by decide]
  rintro ⟨html, heq, htext⟩
  cases heq
  rw [decode_stripTags_html, flatMap_kept_eq_iff] at htext
  exact absurd (htext _ (mem_singleton_self _)) (by decide)

end Oxydra
