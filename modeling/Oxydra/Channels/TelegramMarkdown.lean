import Mathlib.Data.List.TakeWhile
import Oxydra.Library.Html

/-!
# Markdown as HTML for Telegram

`markdown_to_telegram_html` of `crates/channels/src/telegram.rs` scans a text from left to right. At
each place it takes a fenced block, a marked span, a link, a header or a character, puts out its
HTML, and goes on behind it. A block or a span that is not closed ends where its marker no longer
fits in.

`MarkdownPiece` is what is taken at one place, with its Markdown, its HTML, and the text that it
shows. The scanner reads the whole text, and puts out the HTML of its pieces
(`markdownToTelegramHtml_eq`).
-/

namespace Oxydra

open List

/-! ## The scanner -/

/-- The marker of inline code. -/
def backtick : Char := Char.ofNat 0x60

/-- The marker of a fenced block. -/
def fence : List Char := [backtick, backtick, backtick]

/-- `str::replace` of a character. -/
def replaceChar (c : Char) (replacement : String) (text : List Char) : List Char :=
  text.flatMap fun d => if d = c then replacement.toList else [d]

/-- `html_escape`. -/
def htmlEscape (s : List Char) : List Char :=
  replaceChar '>' "&gt;" (replaceChar '<' "&lt;" (replaceChar '&' "&amp;" s))

/-- The text before the next marker, and what begins with it. Where there is none, the text ends
where too few characters are left for one. -/
def untilMarker (marker : List Char) : List Char → List Char × List Char
  | [] => ([], [])
  | c :: rest =>
    if (c :: rest).length < marker.length ∨ marker <+: c :: rest then ([], c :: rest)
    else (c :: (untilMarker marker rest).1, (untilMarker marker rest).2)

/-- What is behind a marker, if there is room for one. -/
def skipMarker (marker chars : List Char) : List Char :=
  if marker.length ≤ chars.length then chars.drop marker.length else chars

/-- An element with escaped text. -/
def htmlElement (name : String) (content : List Char) : List Char :=
  '<' :: name.toList ++ '>' :: (htmlEscape content ++ '<' :: '/' :: (name.toList ++ ['>']))

/-- A span between two markers: its HTML, and what is behind it. -/
def convertMarked (name : String) (marker chars : List Char) : List Char × List Char :=
  let (content, rest) := untilMarker marker (chars.drop marker.length)
  (htmlElement name content, skipMarker marker rest)

/-- A fenced block. A language tag goes on to the end of the line, or to a backtick. -/
def convertFence (chars : List Char) : List Char × List Char :=
  let rest := (chars.drop 3).dropWhile fun c => c ≠ '\n' && c ≠ backtick
  let rest := if rest.head? = some '\n' then rest.drop 1 else rest
  let (code_content, rest) := untilMarker fence rest
  (htmlElement "pre" code_content, skipMarker fence rest)

/-- A link with escaped text, and an escaped target. -/
def htmlLink (url link_text : List Char) : List Char :=
  "<a href=\"".toList ++ htmlEscape url ++ "\">".toList ++ htmlEscape link_text ++ "</a>".toList

/-- A link, if there is one. -/
def convertLink (chars : List Char) : Option (List Char × List Char) :=
  let link_text := (chars.drop 1).takeWhile (· ≠ ']')
  let rest := (chars.drop 1).dropWhile (· ≠ ']')
  if rest.take 2 = [']', '('] then
    let url := (rest.drop 2).takeWhile (· ≠ ')')
    match (rest.drop 2).dropWhile (· ≠ ')') with
    | [] => none
    | _ :: rest => some (htmlLink url link_text, rest)
  else none

/-- A header, whose line is put out in bold. -/
def convertHeader (chars : List Char) : List Char × List Char :=
  let level := (chars.takeWhile (· = '#')).length
  let rest := (chars.dropWhile (· = '#')).dropWhile (· = ' ')
  let header := rest.takeWhile (· ≠ '\n')
  (if 0 < level then htmlElement "b" header else htmlEscape header, rest.dropWhile (· ≠ '\n'))

/-- A character as it is. -/
def convertChar : List Char → List Char × List Char
  | [] => ([], [])
  | c :: rest => (Html.escapeChar c, rest)

/-- What is taken at one place, at the start of a line or not: its HTML, and what is behind it. -/
def convertOne (line_start : Bool) (chars : List Char) : List Char × List Char :=
  if fence <+: chars then convertFence chars
  else if [backtick] <+: chars then convertMarked "code" [backtick] chars
  else if ['*', '*'] <+: chars then convertMarked "b" ['*', '*'] chars
  else if ['~', '~'] <+: chars then convertMarked "s" ['~', '~'] chars
  else if ['*'] <+: chars ∧ chars[1]? ≠ some '*' then convertMarked "i" ['*'] chars
  else
    match if ['['] <+: chars then convertLink chars else none with
    | some result => result
    | none => if ['#'] <+: chars ∧ line_start then convertHeader chars else convertChar chars

/-- The loop of `markdown_to_telegram_html`, of so many rounds. -/
def convertFrom : ℕ → Bool → List Char → Option (List Char)
  | _, _, [] => some []
  | 0, _, _ :: _ => none
  | rounds + 1, line_start, chars@(_ :: _) =>
    let (output, rest) := convertOne line_start chars
    let used := chars.take (chars.length - rest.length)
    (convertFrom rounds (used.getLast? = some '\n') rest).map (output ++ ·)

/-- `markdown_to_telegram_html`, in as many rounds as there are characters. -/
def markdownToTelegramHtml (input : String) : Option (List Char) :=
  convertFrom input.toList.length true input.toList

/-! ## Pieces -/

/-- A span between two markers. -/
inductive Mark where
  | code
  | bold
  | strike
  | italic
  deriving DecidableEq, Repr

namespace Mark

/-- The marker of a span. -/
def marker : Mark → List Char
  | code => [backtick]
  | bold => ['*', '*']
  | strike => ['~', '~']
  | italic => ['*']

/-- The name of its element. -/
def element : Mark → String
  | code => "code"
  | bold => "b"
  | strike => "s"
  | italic => "i"

/-- No marker is empty. -/
theorem marker_ne_nil (mark : Mark) : mark.marker ≠ [] := by
  cases mark <;> exact cons_ne_nil _ _

end Mark

/-- What is taken at one place. -/
inductive MarkdownPiece where
  | fence (tag : List Char) (newline : Bool) (code : List Char) (closed : Bool)
  | marked (mark : Mark) (content : List Char) (closed : Bool)
  | link (text url : List Char)
  | header (hashes spaces content : List Char)
  | char (c : Char)
  deriving DecidableEq, Repr

namespace MarkdownPiece

/-- The Markdown of a piece. -/
def source : MarkdownPiece → List Char
  | fence tag newline code closed =>
    Oxydra.fence ++ tag ++ (if newline then ['\n'] else []) ++ code ++
      (if closed then Oxydra.fence else [])
  | marked mark content closed =>
    mark.marker ++ content ++ (if closed then mark.marker else [])
  | link text url => '[' :: text ++ ']' :: '(' :: url ++ [')']
  | header hashes spaces content => hashes ++ spaces ++ content
  | char c => [c]

/-- The HTML of a piece. -/
def html : MarkdownPiece → List Char
  | fence _ _ code _ => htmlElement "pre" code
  | marked mark content _ => htmlElement mark.element content
  | link text url => htmlLink url text
  | header _ _ content => htmlElement "b" content
  | char c => Html.escapeChar c

/-- The text of a piece without its Markdown: what is in a fence is its code, behind the tag on the
line of the fence. -/
def shown : MarkdownPiece → List Char
  | fence tag newline code _ => (if newline then [] else tag) ++ code
  | marked _ content _ => content
  | link text _ => text
  | header _ _ content => content
  | char c => [c]

end MarkdownPiece

/-- The span at a place. -/
def readMarked (mark : Mark) (chars : List Char) : MarkdownPiece :=
  let (content, rest) := untilMarker mark.marker (chars.drop mark.marker.length)
  .marked mark content (mark.marker.length ≤ rest.length)

/-- The fenced block at a place. -/
def readFence (chars : List Char) : MarkdownPiece :=
  let tag := (chars.drop 3).takeWhile fun c => c ≠ '\n' && c ≠ backtick
  let rest := (chars.drop 3).dropWhile fun c => c ≠ '\n' && c ≠ backtick
  let newline := rest.head? = some '\n'
  let (code, rest) := untilMarker fence (if newline then rest.drop 1 else rest)
  .fence tag newline code (fence.length ≤ rest.length)

/-- The link at a place, if there is one. -/
def readLink (chars : List Char) : Option MarkdownPiece :=
  let text := (chars.drop 1).takeWhile (· ≠ ']')
  let rest := (chars.drop 1).dropWhile (· ≠ ']')
  if rest.take 2 = [']', '('] ∧ ')' ∈ rest.drop 2 then
    some (.link text ((rest.drop 2).takeWhile (· ≠ ')')))
  else none

/-- The header at a place. -/
def readHeader (chars : List Char) : MarkdownPiece :=
  let rest := chars.dropWhile (· = '#')
  .header (chars.takeWhile (· = '#')) (rest.takeWhile (· = ' '))
    ((rest.dropWhile (· = ' ')).takeWhile (· ≠ '\n'))

/-- The piece at a place, at the start of a line or not. -/
def pieceAt (line_start : Bool) (chars : List Char) : MarkdownPiece :=
  if fence <+: chars then readFence chars
  else if [backtick] <+: chars then readMarked .code chars
  else if ['*', '*'] <+: chars then readMarked .bold chars
  else if ['~', '~'] <+: chars then readMarked .strike chars
  else if ['*'] <+: chars then readMarked .italic chars
  else
    match if ['['] <+: chars then readLink chars else none with
    | some piece => piece
    | none => if ['#'] <+: chars ∧ line_start then readHeader chars else .char (chars.headD ' ')

/-- The pieces of a text, up to so many. -/
def piecesFrom : ℕ → Bool → List Char → List MarkdownPiece
  | _, _, [] => []
  | 0, _, _ :: _ => []
  | rounds + 1, line_start, chars@(_ :: _) =>
    let piece := pieceAt line_start chars
    piece :: piecesFrom rounds (piece.source.getLast? = some '\n')
      (chars.drop piece.source.length)

/-- The pieces of a text. -/
def markdownPieces (input : String) : List MarkdownPiece :=
  piecesFrom input.toList.length true input.toList

/-! ## What the scanner does -/

/-- `html_escape` is the escaping of texts. -/
theorem htmlEscape_eq (s : List Char) : htmlEscape s = Html.escape s := by
  unfold htmlEscape replaceChar Html.escape
  rw [flatMap_assoc, flatMap_assoc]
  congr 1
  funext c
  unfold Html.escapeChar
  by_cases hamp : c = '&'
  · subst hamp
    rfl
  · by_cases hlt : c = '<'
    · subst hlt
      rfl
    · simp [hamp, hlt]

/-- Nothing is lost at a marker. -/
theorem untilMarker_append (marker chars : List Char) :
    (untilMarker marker chars).1 ++ (untilMarker marker chars).2 = chars := by
  induction chars with
  | nil => rfl
  | cons c rest ih =>
    rw [untilMarker]
    split_ifs
    · rfl
    · exact congrArg (c :: ·) ih

/-- Where there is room for a marker behind the text, there is one. -/
theorem marker_of_untilMarker (marker : List Char) {chars : List Char} (hne : marker ≠ [])
    (h : marker.length ≤ (untilMarker marker chars).2.length) :
    marker <+: (untilMarker marker chars).2 := by
  induction chars with
  | nil => exact absurd (length_eq_zero_iff.mp (Nat.le_zero.mp h)) hne
  | cons c rest ih =>
    rw [untilMarker] at h ⊢
    split_ifs at h ⊢ with hstop
    · exact hstop.resolve_left (Nat.not_lt.mpr h)
    · exact ih h

/-- The text up to a marker, the marker if there is one, and what is behind it. -/
theorem untilMarker_skipMarker {marker : List Char} (hne : marker ≠ []) (chars : List Char) :
    (untilMarker marker chars).1 ++
      (if marker.length ≤ (untilMarker marker chars).2.length then marker else []) ++
        skipMarker marker (untilMarker marker chars).2 = chars := by
  conv_rhs => rw [← untilMarker_append marker chars]
  rw [append_assoc]
  congr 1
  unfold skipMarker
  split_ifs with h
  · obtain ⟨rest, hrest⟩ := marker_of_untilMarker marker hne h
    rw [← hrest, drop_left]
  · rfl

/-- What is put out at a place and what is behind it are the HTML and the rest of a piece. -/
structure Takes (chars : List Char) (result : List Char × List Char) (piece : MarkdownPiece) :
    Prop where
  html : result.1 = piece.html
  source : piece.source ++ result.2 = chars
  ne_nil : piece.source ≠ []

/-- Marked text. -/
theorem convertMarked_takes (mark : Mark) {chars : List Char} (h : mark.marker <+: chars) :
    Takes chars (convertMarked mark.element mark.marker chars) (readMarked mark chars) := by
  obtain ⟨rest, rfl⟩ := h
  have hspan := untilMarker_skipMarker mark.marker_ne_nil rest
  unfold convertMarked readMarked
  rw [drop_left]
  refine ⟨rfl, ?_, ?_⟩
  · simp only [MarkdownPiece.source, decide_eq_true_eq, append_assoc] at hspan ⊢
    rw [hspan]
  · exact append_ne_nil_of_left_ne_nil
      (append_ne_nil_of_left_ne_nil mark.marker_ne_nil _) _

/-- A fence. -/
theorem convertFence_takes {chars : List Char} (h : fence <+: chars) :
    Takes chars (convertFence chars) (readFence chars) := by
  obtain ⟨after, rfl⟩ := h
  have hdrop : (fence ++ after).drop 3 = after := rfl
  unfold convertFence readFence
  rw [hdrop]
  have htag := takeWhile_append_dropWhile (p := fun c => c ≠ '\n' && c ≠ backtick) (l := after)
  generalize after.takeWhile _ = tag at htag ⊢
  generalize after.dropWhile _ = rest at htag ⊢
  have hline : (if rest.head? = some '\n' then ['\n'] else []) ++
      (if rest.head? = some '\n' then rest.drop 1 else rest) = rest := by
    split_ifs with hnewline
    · cases rest with
      | nil => exact nomatch hnewline
      | cons c rest =>
        rw [Option.some.inj hnewline]
        rfl
    · rfl
  have hspan := @untilMarker_skipMarker fence (cons_ne_nil _ _)
    (if rest.head? = some '\n' then rest.drop 1 else rest)
  refine ⟨rfl, ?_, ?_⟩
  · simp only [MarkdownPiece.source, decide_eq_true_eq, append_assoc] at hspan ⊢
    rw [hspan, hline, htag]
  · simp [MarkdownPiece.source, fence]

/-- A link, or none. -/
theorem convertLink_takes {chars : List Char} (h : ['['] <+: chars) :
    (convertLink chars = none ∧ readLink chars = none) ∨
      ∃ result piece, convertLink chars = some result ∧ readLink chars = some piece ∧
        Takes chars result piece := by
  obtain ⟨inside, rfl⟩ := h
  have hdrop : (['['] ++ inside).drop 1 = inside := rfl
  unfold convertLink readLink
  rw [hdrop]
  have htext := takeWhile_append_dropWhile (p := (· ≠ ']')) (l := inside)
  generalize inside.takeWhile (· ≠ ']') = text at htext ⊢
  generalize inside.dropWhile (· ≠ ']') = rest at htext ⊢
  by_cases hopen : rest.take 2 = [']', '(']
  · have hrest : rest = ']' :: '(' :: rest.drop 2 := by
      conv_lhs => rw [← take_append_drop 2 rest, hopen]
      rfl
    have hurl := takeWhile_append_dropWhile (p := (· ≠ ')')) (l := rest.drop 2)
    rw [if_pos hopen]
    cases htarget : (rest.drop 2).dropWhile (· ≠ ')') with
    | nil =>
      have hnot : ¬(rest.take 2 = [']', '('] ∧ ')' ∈ rest.drop 2) := fun hmem => by
        have hall := dropWhile_eq_nil_iff.mp htarget ')' hmem.2
        exact absurd hall (by decide)
      exact .inl ⟨rfl, if_neg hnot⟩
    | cons c behind =>
      have hc : c = ')' := by
        have hnot := List.head?_dropWhile_not (· ≠ ')') (rest.drop 2)
        rw [htarget] at hnot
        simpa using hnot
      rw [htarget, hc] at hurl
      have hmem : ')' ∈ rest.drop 2 := by
        rw [← hurl]
        exact mem_append_right _ mem_cons_self
      refine .inr ⟨_, _, rfl, if_pos ⟨hopen, hmem⟩, rfl, ?_, ?_⟩
      · generalize (rest.drop 2).takeWhile (· ≠ ')') = url at hurl ⊢
        rw [← htext, hrest, ← hurl]
        simp [MarkdownPiece.source]
      · simp [MarkdownPiece.source]
  · exact .inl ⟨if_neg hopen, if_neg fun h => hopen h.1⟩

/-- A header. -/
theorem convertHeader_takes {chars : List Char} (h : ['#'] <+: chars) :
    Takes chars (convertHeader chars) (readHeader chars) := by
  have hhashes := takeWhile_append_dropWhile (p := (· = '#')) (l := chars)
  have hpos : chars.takeWhile (· = '#') ≠ [] := by
    obtain ⟨rest, rfl⟩ := h
    exact cons_ne_nil _ _
  unfold convertHeader readHeader
  dsimp only
  rw [if_pos (length_pos_iff.mpr hpos)]
  generalize chars.takeWhile (· = '#') = hashes at hhashes hpos ⊢
  generalize chars.dropWhile (· = '#') = rest at hhashes ⊢
  have hspaces := takeWhile_append_dropWhile (p := (· = ' ')) (l := rest)
  generalize rest.takeWhile (· = ' ') = spaces at hspaces ⊢
  generalize rest.dropWhile (· = ' ') = behind at hspaces ⊢
  have hline := takeWhile_append_dropWhile (p := (· ≠ '\n')) (l := behind)
  refine ⟨rfl, ?_, ?_⟩
  · rw [MarkdownPiece.source, append_assoc, append_assoc, hline, hspaces, hhashes]
  · exact append_ne_nil_of_left_ne_nil (append_ne_nil_of_left_ne_nil hpos _) _

/-- At each place the scanner takes the piece that is there. -/
theorem convertOne_takes (line_start : Bool) {chars : List Char} (hne : chars ≠ []) :
    Takes chars (convertOne line_start chars) (pieceAt line_start chars) := by
  have hchar : Takes chars (convertChar chars) (.char (chars.headD ' ')) := by
    cases chars with
    | nil => exact absurd rfl hne
    | cons c rest => exact ⟨rfl, rfl, cons_ne_nil _ _⟩
  unfold convertOne pieceAt
  by_cases hfence : fence <+: chars
  · rw [if_pos hfence, if_pos hfence]
    exact convertFence_takes hfence
  rw [if_neg hfence, if_neg hfence]
  by_cases hcode : [backtick] <+: chars
  · rw [if_pos hcode, if_pos hcode]
    exact convertMarked_takes .code hcode
  rw [if_neg hcode, if_neg hcode]
  by_cases hbold : ['*', '*'] <+: chars
  · rw [if_pos hbold, if_pos hbold]
    exact convertMarked_takes .bold hbold
  rw [if_neg hbold, if_neg hbold]
  by_cases hstrike : ['~', '~'] <+: chars
  · rw [if_pos hstrike, if_pos hstrike]
    exact convertMarked_takes .strike hstrike
  rw [if_neg hstrike, if_neg hstrike]
  have hitalic : (['*'] <+: chars ∧ chars[1]? ≠ some '*') ↔ ['*'] <+: chars := by
    refine and_iff_left_of_imp fun hstar hsecond => hbold ?_
    obtain ⟨rest, rfl⟩ := hstar
    cases rest with
    | nil => exact nomatch hsecond
    | cons c rest =>
      cases hsecond
      exact ⟨rest, rfl⟩
  rw [if_congr hitalic rfl rfl]
  by_cases hstar : ['*'] <+: chars
  · rw [if_pos hstar, if_pos hstar]
    exact convertMarked_takes .italic hstar
  rw [if_neg hstar, if_neg hstar]
  have hlast : Takes chars
      (if ['#'] <+: chars ∧ line_start then convertHeader chars else convertChar chars)
      (if ['#'] <+: chars ∧ line_start then readHeader chars else .char (chars.headD ' ')) := by
    split_ifs with hheader
    · exact convertHeader_takes hheader.1
    · exact hchar
  by_cases hlink : ['['] <+: chars
  · rw [if_pos hlink, if_pos hlink]
    rcases convertLink_takes hlink with ⟨hnone, hnone'⟩ | ⟨result, piece, hresult, hpiece, htakes⟩
    · rw [hnone, hnone']
      exact hlast
    · rw [hresult, hpiece]
      exact htakes
  · rw [if_neg hlink, if_neg hlink]
    exact hlast

namespace Takes

variable {chars : List Char} {result : List Char × List Char} {piece : MarkdownPiece}

/-- What was taken is the source of the piece. -/
theorem used (h : Takes chars result piece) :
    chars.take (chars.length - result.2.length) = piece.source := by
  rw [← h.source, length_append, Nat.add_sub_cancel, take_left]

/-- And what is left stands behind it. -/
theorem rest (h : Takes chars result piece) : chars.drop piece.source.length = result.2 := by
  rw [← h.source, drop_left]

/-- Something was taken. -/
theorem length_lt (h : Takes chars result piece) : result.2.length < chars.length := by
  have hpos := length_pos_iff.mpr h.ne_nil
  rw [← h.source, length_append]
  omega

end Takes

/-- The scanner ends, and has put out the HTML of the pieces of the text. -/
theorem convertFrom_eq (rounds : ℕ) (line_start : Bool) (chars : List Char)
    (h : chars.length ≤ rounds) :
    convertFrom rounds line_start chars =
      some ((piecesFrom rounds line_start chars).flatMap MarkdownPiece.html) := by
  induction rounds generalizing line_start chars with
  | zero =>
    obtain rfl := length_eq_zero_iff.mp (Nat.le_zero.mp h)
    rfl
  | succ rounds ih =>
    cases chars with
    | nil => rfl
    | cons c cs =>
      have htakes := convertOne_takes line_start (cons_ne_nil c cs)
      have hlength := htakes.length_lt
      rw [convertFrom, piecesFrom]
      dsimp only
      rw [htakes.used, htakes.rest, ih _ _ (by omega), htakes.html, flatMap_cons]
      rfl

/-- The pieces make up the text. -/
theorem flatMap_source_piecesFrom (rounds : ℕ) (line_start : Bool) (chars : List Char)
    (h : chars.length ≤ rounds) :
    (piecesFrom rounds line_start chars).flatMap MarkdownPiece.source = chars := by
  induction rounds generalizing line_start chars with
  | zero =>
    obtain rfl := length_eq_zero_iff.mp (Nat.le_zero.mp h)
    rfl
  | succ rounds ih =>
    cases chars with
    | nil => rfl
    | cons c cs =>
      have htakes := convertOne_takes line_start (cons_ne_nil c cs)
      have hlength := htakes.length_lt
      rw [piecesFrom, flatMap_cons, htakes.rest, ih _ _ (by omega)]
      exact htakes.source

/-- The converter ends, and its output is the HTML of the pieces of its input. -/
theorem markdownToTelegramHtml_eq (input : String) :
    markdownToTelegramHtml input =
      some ((markdownPieces input).flatMap MarkdownPiece.html) :=
  convertFrom_eq _ _ _ (le_refl _)

/-- The pieces of a text make it up. -/
theorem flatMap_source_markdownPieces (input : String) :
    (markdownPieces input).flatMap MarkdownPiece.source = input.toList :=
  flatMap_source_piecesFrom _ _ _ (le_refl _)

end Oxydra
