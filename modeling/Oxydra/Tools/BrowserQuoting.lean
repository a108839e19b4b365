import Oxydra.Tools.BrowserScripts

/-!
# Escaped arguments in a shell's quotes

`shell_escape` writes every argument of a browser script, whatever quotes it stands in. In
apostrophes this keeps any text together. In double quotes a `$` and a backquote stay what they are,
and outside of quotes so do blanks and operators; and each apostrophe of the argument leads from
double quotes out of them, or back. A `Spot` follows where the next character of an argument comes
to stand, and an argument is `Neutral` where the shell leaves all of it alone.
-/

namespace Oxydra

open Shell

/-- The characters that `shell_escape` does not leave as they are. -/
def escapedChars : List Char := ['\'', '"', '\\', '\n', '\r', '\t']

/-! ## What an argument may hold -/

/-- Where a character of an argument comes to stand: outside of quotes or in double quotes; outside
of quotes, after a `:` there, and after how much of a pattern in brackets. -/
structure Spot where
  outside : Bool
  afterColon : Bool := false
  bracket : Bracket := .none
  deriving DecidableEq, Repr

namespace Spot

variable (assigned : Bool) (p : Spot)

/-- Whether a character is left alone by the shell. -/
def allows (c : Char) : Bool :=
  match Kind.of c with
  | .dollar | .backquote => false
  | .opening | .closing | .semicolon | .ampersand | .bar | .angle | .star | .question => !p.outside
  -- a tab is escaped
  | .blank => !p.outside || c = '\t'
  | .tilde => !(p.outside && p.afterColon)
  | .endBracket => !(p.outside && p.bracket = .inside)
  | _ => true

/-- The place of the next character, in an assignment or in another word. -/
def next (c : Char) : Spot :=
  if c = '\'' then ⟨!p.outside, false, p.bracket.quoted⟩
  else if !p.outside then ⟨false, false, p.bracket⟩
  else if c ∈ escapedChars then ⟨true, false, p.bracket.quoted⟩
  else ⟨true, assigned && c = ':', p.bracket.next (Kind.of c)⟩

/-- The place after a text, where the shell leaves all of it alone. -/
def pass : Spot → List Char → Option Spot
  | p, [] => some p
  | p, c :: cs => if p.allows c then pass (p.next assigned c) cs else none

/-- What the shell knows at a place. -/
def reader (dollarQuotes : Bool) : Reader where
  dollarQuotes := dollarQuotes
  inside := if p.outside then [] else [.double]
  place := if assigned then .value else .plain
  bracket := p.bracket
  last := if p.afterColon then .assign else .other
  escaped := false

end Spot

/-- An argument that the shell leaves alone from a place on, and that ends in such a place. -/
def Neutral (assigned outside : Bool) (value : String) : Prop :=
  ∃ q, Spot.pass assigned ⟨outside, false, .none⟩ value.toList = some q ∧ q.outside = outside

namespace Spot

variable {assigned dollarQuotes : Bool} {p : Spot} {c : Char}

theorem last_reader : (p.reader assigned dollarQuotes).last ≠ .dollar ∧
    (p.reader assigned dollarQuotes).last ≠ .name := by
  unfold reader
  split_ifs <;> simp

/-- No `$` stands before a place. -/
theorem afterDollar_reader (k : Kind) (quoted : Bool) :
    (p.reader assigned dollarQuotes).afterDollar k quoted = none :=
  Reader.afterDollar_eq_none last_reader.1 last_reader.2

/-- A character that is written as it is. -/
theorem escapeChar_self (h : c ∉ escapedChars) : escapeChar c = [c] := by
  unfold escapeChar
  split <;> simp_all [escapedChars]

/-- The kinds of characters that are written as they are. -/
theorem kind_of_self (h : c ∉ escapedChars) :
    Kind.of c ≠ .apostrophe ∧ Kind.of c ≠ .quote ∧ Kind.of c ≠ .backslash ∧
      Kind.of c ≠ .newline := by
  have hsole : ∀ {k : Kind} {d : Char}, k.sole = some d →
      d ∈ escapedChars → Kind.of c ≠ k := by
    rintro k d hd hmem rfl
    rw [Kind.eq_of_sole hd] at h
    exact h hmem
  exact ⟨hsole rfl (by decide), hsole rfl (by decide), hsole rfl (by decide),
    hsole rfl (by decide)⟩

/-- An allowed character that is written as it is. -/
theorem step_of_allows (h : p.allows c = true) (hc : c ∉ escapedChars) :
    ((p.reader assigned dollarQuotes).step c).1.isData = true ∧
      ((p.reader assigned dollarQuotes).step c).2 =
        (p.next assigned c).reader assigned dollarQuotes := by
  obtain ⟨hapostrophe, hquote, hbackslash, hnewline⟩ := kind_of_self hc
  have hnone := @afterDollar_reader assigned dollarQuotes p (Kind.of c)
  have hnext : p.next assigned c = if p.outside then
      ⟨true, assigned && Kind.of c = .colon, p.bracket.next (Kind.of c)⟩
      else ⟨false, false, p.bracket⟩ := by
    unfold next
    rw [Kind.decide_colon]
    simp only [escapedChars, List.mem_cons, not_or] at hc
    cases p.outside <;> simp [escapedChars, hc]
  rw [hnext]
  have htab : decide (c = '\t') = false := by
    simp only [escapedChars, List.mem_cons, not_or] at hc
    simp [hc]
  unfold allows at h
  unfold Reader.step Reader.stepKind
  generalize Kind.of c = k at *
  obtain ⟨outside, afterColon, bracket⟩ := p
  cases outside
  · simp only [reader, if_false, Bool.false_eq_true] at hnone ⊢
    unfold Reader.stepDouble
    cases k <;> simp_all [Role.isData, Reader.passed]
  · simp only [reader, Reader.stepBare, Reader.stepPlain] at hnone ⊢
    cases k <;> cases assigned <;> simp_all [Role.isData, Reader.grown, Place.next]

/-- A character that is not allowed is written as it is, and does something. -/
theorem step_of_not_allows (h : p.allows c = false) : escapeChar c = [c] ∧
    ((p.reader assigned dollarQuotes).step c).1.isData = false := by
  have hc : c ∉ escapedChars := by
    intro hmem
    simp only [escapedChars, List.mem_cons, List.not_mem_nil, or_false] at hmem
    obtain rfl | rfl | rfl | rfl | rfl | rfl := hmem <;> simp [allows, Kind.of, Kind.ofSign] at h
  refine ⟨escapeChar_self hc, ?_⟩
  have hnone := @afterDollar_reader assigned dollarQuotes p (Kind.of c)
  unfold allows at h
  unfold Reader.step Reader.stepKind
  generalize Kind.of c = k at *
  obtain ⟨outside, afterColon, bracket⟩ := p
  cases outside
  · simp only [reader, if_false, Bool.false_eq_true] at hnone ⊢
    unfold Reader.stepDouble
    cases k <;> simp_all [Role.isData]
  · simp only [reader, Reader.stepBare, Reader.stepPlain] at hnone ⊢
    cases k <;> cases assigned <;> cases afterColon <;> simp_all [Role.isData]

/-- A character that is written otherwise is data, in any place. -/
theorem read_escaped (hc : c ∈ escapedChars) :
    (read (p.reader assigned dollarQuotes) (escapeChar c)).all (fun x => x.2.isData) = true ∧
      after (p.reader assigned dollarQuotes) (escapeChar c) =
        (p.next assigned c).reader assigned dollarQuotes := by
  obtain ⟨outside, afterColon, bracket⟩ := p
  simp only [escapedChars, List.mem_cons, List.not_mem_nil, or_false] at hc
  obtain rfl | rfl | rfl | rfl | rfl | rfl := hc <;> cases outside <;> cases afterColon <;>
    cases assigned <;> cases dollarQuotes <;> cases bracket <;> decide

/-- A character that is allowed adds to the word, and leads to the next place. -/
theorem read_escapeChar (h : p.allows c = true) :
    (read (p.reader assigned dollarQuotes) (escapeChar c)).all (fun x => x.2.isData) = true ∧
      after (p.reader assigned dollarQuotes) (escapeChar c) =
        (p.next assigned c).reader assigned dollarQuotes := by
  by_cases hc : c ∈ escapedChars
  · exact read_escaped hc
  · obtain ⟨hrole, hafter⟩ := step_of_allows h hc
    rw [escapeChar_self hc]
    refine ⟨?_, hafter⟩
    show ((((p.reader assigned dollarQuotes).step c).1.isData && true) = true)
    rw [hrole]
    rfl

/-- A text of allowed characters adds to the word, and leads to where it ends. -/
theorem read_of_pass {cs : List Char} {q : Spot} (h : pass assigned p cs = some q) :
    (read (p.reader assigned dollarQuotes) (cs.flatMap escapeChar)).all (fun x => x.2.isData) =
        true ∧
      after (p.reader assigned dollarQuotes) (cs.flatMap escapeChar) =
        q.reader assigned dollarQuotes := by
  induction cs generalizing p with
  | nil =>
    obtain rfl := Option.some_inj.mp h
    exact ⟨rfl, rfl⟩
  | cons c cs ih =>
    rw [pass] at h
    split_ifs at h with hallows
    obtain ⟨hdata, hafter⟩ := read_escapeChar hallows
    obtain ⟨hrest, hend⟩ := ih h
    rw [List.flatMap_cons, read_append, after_append, hafter, List.all_append, hdata, hrest]
    exact ⟨rfl, hend⟩

/-- Any other text has a character that does something else. -/
theorem exists_of_pass_eq_none {cs : List Char} (h : pass assigned p cs = none) :
    ∃ x ∈ read (p.reader assigned dollarQuotes) (cs.flatMap escapeChar), x.2.isData = false := by
  induction cs generalizing p with
  | nil => exact nomatch h
  | cons c cs ih =>
    rw [List.flatMap_cons, read_append]
    rw [pass] at h
    split_ifs at h with hallows
    · obtain ⟨x, hx, hrole⟩ := ih h
      rw [(read_escapeChar hallows).2]
      exact ⟨x, List.mem_append_right _ hx, hrole⟩
    · obtain ⟨hself, hrole⟩ := step_of_not_allows (by simpa using hallows)
      rw [hself]
      exact ⟨_, List.mem_append_left _ List.mem_cons_self, hrole⟩

/-- A plain text leads nowhere. -/
theorem pass_plain {outside : Bool} {cs : List Char}
    (h : ∀ c ∈ cs, Kind.of c = .letter ∨ Kind.of c = .digit) :
    pass assigned ⟨outside, false, .none⟩ cs = some ⟨outside, false, .none⟩ := by
  induction cs with
  | nil => rfl
  | cons c cs ih =>
    have hc := h c List.mem_cons_self
    have hallows : (⟨outside, false, .none⟩ : Spot).allows c = true := by
      unfold allows
      obtain hk | hk := hc <;> rw [hk]
    have hself : c ∉ escapedChars := by
      intro hmem
      simp only [escapedChars, List.mem_cons, List.not_mem_nil, or_false] at hmem
      obtain rfl | rfl | rfl | rfl | rfl | rfl := hmem <;> exact absurd hc (by decide)
    have hnext : (⟨outside, false, .none⟩ : Spot).next assigned c = ⟨outside, false, .none⟩ := by
      unfold next
      rw [Kind.decide_colon]
      simp only [escapedChars, List.mem_cons, not_or] at hself
      obtain hk | hk := hc <;> rw [hk] <;> cases outside <;>
        simp [escapedChars, hself, Bracket.next]
    rw [pass, if_pos hallows, hnext]
    exact ih fun c' hc' => h c' (List.mem_cons_of_mem _ hc')

end Spot

/-! ## The parts of a script -/

/-- In double quotes. -/
abbrev inQuotes (assigned dollarQuotes : Bool) : Reader :=
  Spot.reader assigned ⟨false, false, .none⟩ dollarQuotes

/-- Outside of quotes, in a word that assigns nothing. -/
abbrev outsideQuotes (dollarQuotes : Bool) : Reader :=
  Spot.reader false ⟨true, false, .none⟩ dollarQuotes

section

variable {other : String → String} {dollarQuotes assigned outside : Bool} {text value : String}

/-- A text that ends in another place than it began is followed by one that the shell then reads
differently. -/
theorem leads_argument {r : Reader} (hother : IsPlain (other value))
    (hsync : ∀ q : Spot, q.outside = outside →
      read (q.reader assigned dollarQuotes) text.toList =
          read (Spot.reader assigned ⟨outside, false, .none⟩ dollarQuotes) text.toList ∧
        after (q.reader assigned dollarQuotes) text.toList = r)
    (hdiffer : ∀ q : Spot, q.outside ≠ outside →
      read (q.reader assigned dollarQuotes) text.toList ≠
        read (Spot.reader assigned ⟨outside, false, .none⟩ dollarQuotes) text.toList) :
    Leads shellEscape other (Spot.reader assigned ⟨outside, false, .none⟩ dollarQuotes)
      [.argument value, .fixed text] r (Neutral assigned outside value) := by
  intro t
  have hpassed : Spot.pass assigned ⟨outside, false, .none⟩ (other value).toList = _ :=
    Spot.pass_plain hother
  obtain ⟨-, hplain⟩ := Spot.read_of_pass hpassed
  rw [List.cons_append, ReadsAlike]
  cases hpass : Spot.pass assigned ⟨outside, false, .none⟩ value.toList with
  | none =>
    obtain ⟨x, hx, hrole⟩ := Spot.exists_of_pass_eq_none hpass
    refine iff_of_false (fun h => ?_) (fun h => ?_)
    · exact absurd (h.1 x hx) (by rw [hrole]; decide)
    · obtain ⟨⟨q, hq, -⟩, -⟩ := h
      rw [hpass] at hq
      cases hq
  | some q =>
    obtain ⟨hdata, hafter⟩ := Spot.read_of_pass hpass
    have hneutral : Neutral assigned outside value ↔ q.outside = outside := by
      refine ⟨?_, fun h => ⟨q, hpass, h⟩⟩
      rintro ⟨q', hq', houtside⟩
      rw [hpass] at hq'
      rwa [Option.some_inj.mp hq']
    rw [hneutral, List.singleton_append, ReadsAlike, shellEscape, hafter, shellEscape, hplain]
    by_cases houtside : q.outside = outside
    · obtain ⟨hread, hend⟩ := hsync q houtside
      obtain ⟨-, hstart⟩ := hsync ⟨outside, false, .none⟩ rfl
      rw [hend, hstart]
      exact and_congr (iff_of_true (List.all_eq_true.mp hdata) houtside) (and_iff_right hread)
    · exact iff_of_false (fun h => hdiffer q houtside h.2.1) (fun h => houtside h.1)

/-- The closing quote of an argument in double quotes. -/
theorem leads_closing {c : Char} {rest : List Char} {r : Reader} (hother : IsPlain (other value))
    (htext : text.toList = '"' :: c :: rest) (hc : c ∈ [' ', '\n'])
    (h : after (inQuotes assigned dollarQuotes) text.toList = r) :
    Leads shellEscape other (inQuotes assigned dollarQuotes)
      [.argument value, .fixed text] r (Neutral assigned false value) := by
  have hsplit : text.toList = ['"', c] ++ rest := htext
  simp only [List.mem_cons, List.not_mem_nil, or_false] at hc
  rw [hsplit] at h
  refine leads_argument hother ?_ ?_ <;> rw [hsplit] <;> rintro ⟨outside, afterColon, bracket⟩ hq
  · have hq : outside = false := hq
    subst hq
    have hread : read (Spot.reader assigned ⟨false, afterColon, bracket⟩ dollarQuotes) ['"', c] =
        read (inQuotes assigned dollarQuotes) ['"', c] := by
      obtain rfl | rfl := hc <;> cases afterColon <;> rfl
    have hafter : after (Spot.reader assigned ⟨false, afterColon, bracket⟩ dollarQuotes) ['"', c] =
        after (inQuotes assigned dollarQuotes) ['"', c] := by
      obtain rfl | rfl := hc <;> cases afterColon <;> rfl
    obtain ⟨hsame, hend⟩ := read_append_eq (b := rest) hread hafter
    exact ⟨hsame, hend.trans h⟩
  · have hq : outside = true := by simpa using hq
    subst hq
    refine read_append_ne ?_
    intro heq
    have hroles := congrArg (List.map Prod.snd) heq
    obtain rfl | rfl := hc <;> cases afterColon <;> exact nomatch hroles

/-- The apostrophe after an argument that stands outside of quotes. The first `n` characters after
the argument end the word. -/
theorem leads_apostrophe {cs : List Char} {r : Reader} (n : ℕ) (hother : IsPlain (other value))
    (htext : text.toList = cs) (hhead : cs.head? = some '\'')
    (hword : ∀ afterColon bracket,
      read (Spot.reader false ⟨true, afterColon, bracket⟩ dollarQuotes) (cs.take n) =
          read (outsideQuotes dollarQuotes) (cs.take n) ∧
        after (Spot.reader false ⟨true, afterColon, bracket⟩ dollarQuotes) (cs.take n) =
          Reader.start dollarQuotes)
    (hrest : after (Reader.start dollarQuotes) (cs.drop n) = r) :
    Leads shellEscape other (outsideQuotes dollarQuotes)
      [.argument value, .fixed text] r (Neutral false true value) := by
  refine leads_argument hother ?_ ?_ <;> rw [htext] <;> rintro ⟨outside, afterColon, bracket⟩ hq
  · have hq : outside = true := hq
    subst hq
    obtain ⟨hread, hafter⟩ := hword afterColon bracket
    have hsame := read_append_eq (b := cs.drop n) hread
      (hafter.trans (hword false .none).2.symm)
    rw [List.take_append_drop] at hsame
    refine ⟨hsame.1, ?_⟩
    rw [← hrest, ← hafter, ← after_append, List.take_append_drop]
  · have hq : outside = false := by simpa using hq
    subst hq
    cases cs with
    | nil => exact nomatch hhead
    | cons c cs =>
      obtain rfl := Option.some_inj.mp hhead
      intro heq
      have hroles := congrArg (fun reading => (reading.map Prod.snd).head?) heq
      cases afterColon <;> exact nomatch hroles

/-- Between apostrophes. -/
def inApostrophes (dollarQuotes : Bool) : Reader :=
  ⟨dollarQuotes, [.single], .plain, .none, .other, false⟩

/-- Between them any other character stands for itself. -/
theorem quoted_inApostrophes {cs : List Char} (h : '\'' ∉ cs) :
    read (inApostrophes dollarQuotes) cs = cs.map (·, .quoted) ∧
      after (inApostrophes dollarQuotes) cs = inApostrophes dollarQuotes := by
  induction cs with
  | nil => exact ⟨rfl, rfl⟩
  | cons c cs ih =>
    rw [List.mem_cons, not_or] at h
    have hkind : Kind.of c ≠ .apostrophe := fun hk =>
      h.1 (Kind.eq_of_sole (by rw [hk]; rfl)).symm
    have hstep : (inApostrophes dollarQuotes).step c = (.quoted, inApostrophes dollarQuotes) := by
      unfold Reader.step Reader.stepKind inApostrophes
      rw [if_neg hkind]
      rfl
    rw [Shell.read, Shell.after, hstep, (ih h.2).1, List.map_cons]
    exact ⟨rfl, (ih h.2).2⟩

/-- Any text without an apostrophe stays between them. -/
theorem read_inApostrophes {cs : List Char} (h : '\'' ∉ cs) :
    (read (inApostrophes dollarQuotes) cs).all (fun x => x.2.isData) = true ∧
      after (inApostrophes dollarQuotes) cs = inApostrophes dollarQuotes := by
  obtain ⟨hread, hafter⟩ := @quoted_inApostrophes dollarQuotes cs h
  rw [hread, List.all_map]
  exact ⟨List.all_eq_true.mpr fun c _ => rfl, hafter⟩

/-- An argument in apostrophes is data, whatever it is. -/
theorem leads_inApostrophes (value : String) : Leads shellEscape other
    (inApostrophes dollarQuotes) [.argument value] (inApostrophes dollarQuotes) True := by
  have hchar : ∀ c, (read (inApostrophes dollarQuotes) (escapeChar c)).all (fun x => x.2.isData) =
      true ∧ after (inApostrophes dollarQuotes) (escapeChar c) = inApostrophes dollarQuotes := by
    intro c
    by_cases hc : c = '\''
    · subst hc
      cases dollarQuotes <;> exact ⟨rfl, rfl⟩
    · refine read_inApostrophes ?_
      unfold escapeChar
      split <;> simp_all [eq_comm]
  have htext : ∀ cs : List Char,
      (read (inApostrophes dollarQuotes) (cs.flatMap escapeChar)).all (fun x => x.2.isData) =
          true ∧
        after (inApostrophes dollarQuotes) (cs.flatMap escapeChar) =
          inApostrophes dollarQuotes := by
    intro cs
    induction cs with
    | nil => exact ⟨rfl, rfl⟩
    | cons c cs ih =>
      rw [List.flatMap_cons, read_append, after_append, (hchar c).2, List.all_append, (hchar c).1]
      exact ih
  exact .argument (List.all_eq_true.mp (htext _).1) (htext _).2 (htext _).2

/-- In double quotes the address of the bridge is nothing but text. -/
theorem after_inert {cs : List Char} (h : cs.all (fun c =>
    Kind.of c ∉ [.quote, .backslash, .dollar, .backquote]) = true) :
    after (inQuotes assigned dollarQuotes) cs =
      inQuotes assigned dollarQuotes := by
  induction cs with
  | nil => rfl
  | cons c cs ih =>
    rw [List.all_cons, Bool.and_eq_true, decide_eq_true_eq] at h
    have hstep : ((inQuotes assigned dollarQuotes).step c).2 =
        inQuotes assigned dollarQuotes := by
      unfold Reader.step
      generalize Kind.of c = k at h
      cases k <;> first | rfl | exact absurd (by decide) h.1
    rw [after, hstep]
    exact ih h.2

/-- A fixed text is read character by character, by a shell with or without `$'...'`. -/
theorem leads_literal {r r' : Bool → Reader} {cs : List Char}
    (h : ∀ dollarQuotes, after (r dollarQuotes) cs = r' dollarQuotes) :
    Leads shellEscape other (r dollarQuotes) [.fixed (String.ofList cs)] (r' dollarQuotes) True :=
  .fixed (after_toList String.toList_ofList (h dollarQuotes))

end

end Oxydra
