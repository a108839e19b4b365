import Mathlib.Data.List.Basic

/-!
# How a POSIX shell reads a text

A shell reads a text from left to right and gives each character a role: it stands for itself, it
quotes, it separates words, or it is part of an operator, an expansion, a pattern or a comment. A
`Reader` is what the shell knows after some characters.

The words of a command, and the program that it names, are taken from the roles. What is not read:
the text between backquotes, here-documents, the patterns of `case`, arithmetic, and aliases.
Whether a `$` may stand before a text in apostrophes, as in `$'\n'`, differs among shells and is a
parameter.
-/

namespace Shell

/-! ## Roles -/

/-- The role of a character. -/
inductive Role where
  /-- It stands for itself, without quotes. -/
  | literal
  /-- It stands for itself, by quotes. -/
  | quoted
  /-- It stands for itself and so does the backslash in front of it. -/
  | kept
  /-- It quotes, and does not stand for itself. -/
  | quoting
  /-- A newline that a backslash takes away. -/
  | continuation
  | blank
  | newline
  | control
  | redirection
  | dollar
  /-- Of a parameter outside of quotes, whose value is split into words. -/
  | expansion
  | quotedExpansion
  | substitution
  | pattern
  | tilde
  | comment
  deriving DecidableEq, Repr

/-- Whether a character only adds to the text of the word that it stands in. -/
def Role.isData : Role → Bool
  | .literal | .quoted | .kept | .quoting => true
  | _ => false

/-- The role of a character of a parameter's name, or of what stands in its braces. -/
def Role.ofParameter (quoted : Bool) : Role := if quoted then .quotedExpansion else .expansion

/-- What the shell tells apart about a character. -/
inductive Kind where
  | backslash | apostrophe | quote | backquote | dollar | opening | closing | brace | endBrace
  | blank | newline | semicolon | ampersand | bar | angle | star | question | hash | tilde
  | equals | colon | bracket | endBracket | bang | slash | special | letter | digit | other
  deriving DecidableEq, Repr

/-- The kind of a character that is no letter and no digit. -/
def Kind.ofSign : Char → Kind
  | '\\' => .backslash
  | '\'' => .apostrophe
  | '"' => .quote
  | '`' => .backquote
  | '$' => .dollar
  | '(' => .opening
  | ')' => .closing
  | '{' => .brace
  | '}' => .endBrace
  | ' ' => .blank
  | '\t' => .blank
  | '\n' => .newline
  | ';' => .semicolon
  | '&' => .ampersand
  | '|' => .bar
  | '<' => .angle
  | '>' => .angle
  | '*' => .star
  | '?' => .question
  | '#' => .hash
  | '~' => .tilde
  | '=' => .equals
  | ':' => .colon
  | '[' => .bracket
  | ']' => .endBracket
  | '!' => .bang
  | '/' => .slash
  | '@' => .special
  | '-' => .special
  | _ => .other

/-- The kind of a character. -/
def Kind.of (c : Char) : Kind :=
  if c.isAlpha || c = '_' then .letter else if c.isDigit then .digit else ofSign c

/-! ## The reader -/

/-- How much of a pattern in brackets has been read; a `]` is a member of the pattern when it comes
first, also after a `!`. -/
inductive Bracket where
  | none | opened | negated | inside
  deriving DecidableEq, Repr

/-- After a character that is not quoted. -/
def Bracket.next : Bracket → Kind → Bracket
  | _, .slash => .none
  | .none, .bracket => .opened
  | .none, _ => .none
  | .opened, .bang => .negated
  | .inside, .endBracket => .none
  | _, _ => .inside

/-- After a text in quotes. -/
def Bracket.quoted : Bracket → Bracket
  | .none => .none
  | _ => .inside

/-- The part of a word that is read: its start, a name that a `=` may follow, the value that is
assigned to a name, and everything else. A word that assigns is taken so wherever it stands. -/
inductive Place where
  | start | name | value | plain
  deriving DecidableEq, Repr

/-- After a character that is not quoted. -/
def Place.next : Place → Kind → Place
  | .start, .letter => .name
  | .name, .letter => .name
  | .name, .digit => .name
  | .name, .equals => .value
  | .value, _ => .value
  | _, _ => .plain

/-- After a quote or an expansion. -/
def Place.joined : Place → Place
  | .value => .value
  | _ => .plain

/-- What characters stand in. -/
inductive Enclosure where
  | single
  /-- The apostrophes after a `$`. -/
  | escapes
  | double
  | braces (quoted : Bool)
  /-- The parentheses after a `$`, and the word that they are a part of. -/
  | parens (place : Place) (bracket : Bracket)
  | comment
  deriving DecidableEq, Repr

/-- What the last character was, where that matters for the next. -/
inductive Last where
  | other
  | dollar
  /-- A character of a parameter's name. -/
  | name
  | angle
  /-- The `=` of an assignment, or a `:` in the assigned value. -/
  | assign
  deriving DecidableEq, Repr

/-- What the shell knows between two characters. -/
structure Reader where
  dollarQuotes : Bool
  /-- The innermost first. -/
  inside : List Enclosure
  place : Place
  bracket : Bracket
  last : Last
  escaped : Bool
  deriving DecidableEq, Repr

namespace Reader

variable (r : Reader) (k : Kind)

/-- Before the first character. -/
def start (dollarQuotes : Bool) : Reader := ⟨dollarQuotes, [], .start, .none, .other, false⟩

/-- After a character that ends a word. -/
def separated : Reader := { r with place := .start, bracket := .none, last := .other }

/-- After a quote or an expansion. -/
def joined : Reader :=
  { r with place := r.place.joined, bracket := r.bracket.quoted, last := .other, escaped := false }

/-- After a character of the word that is not quoted. -/
def grown : Reader :=
  { r with
    place := r.place.next k
    bracket := r.bracket.next k
    last := if r.place = .name ∧ k = .equals ∨ r.place = .value ∧ k = .colon then .assign
      else .other }

/-- After a character that nothing else is remembered of. -/
def passed : Reader := { r with last := .other, escaped := false }

def enter (enclosure : Enclosure) : Reader :=
  { r with inside := enclosure :: r.inside, last := .other }

def leave : Reader := { r with inside := r.inside.tail, last := .other }

/-- The apostrophe that opens. -/
def apostrophe : Enclosure := if r.dollarQuotes ∧ r.last = .dollar then .escapes else .single

/-- What a `$`, or the name after it, makes of the next character. -/
def afterDollar (quoted : Bool) : Option (Role × Reader) :=
  match r.last, k with
  | .dollar, .letter => some (.ofParameter quoted, { r with last := .name })
  | .dollar, .digit | .dollar, .star | .dollar, .question | .dollar, .hash | .dollar, .bang
  | .dollar, .dollar | .dollar, .special => some (.ofParameter quoted, r.passed)
  | .dollar, .brace => some (.ofParameter quoted, r.enter (.braces quoted))
  | .dollar, .opening =>
    some (.substitution, (r.enter (.parens r.place r.bracket)).separated)
  | .name, .letter | .name, .digit => some (.ofParameter quoted, r)
  | _, _ => none

/-- A character outside of quotes that no `$` and no backslash changes. -/
def stepPlain : Role × Reader :=
  match k with
  | .backslash => (.quoting, { r with last := .other, escaped := true })
  | .apostrophe => (.quoting, r.joined.enter r.apostrophe)
  | .quote => (.quoting, r.joined.enter .double)
  | .backquote => (.substitution, r.joined)
  | .dollar => (.dollar, { r.joined with last := .dollar })
  | .opening => (.control, r.separated)
  | .closing =>
    match r.inside with
    | .parens place bracket :: _ =>
      (.substitution, { r.leave with place := place, bracket := bracket })
    | _ => (.control, r.separated)
  | .blank => (.blank, r.separated)
  | .newline => (.newline, r.separated)
  | .semicolon => (.control, r.separated)
  -- `>&` and `>|` are one operator
  | .ampersand | .bar => (if r.last = .angle then .redirection else .control, r.separated)
  | .angle => (.redirection, { r.separated with last := .angle })
  | .star | .question => (.pattern, r.grown k)
  | .hash => if r.place = .start then (.comment, r.enter .comment) else (.literal, r.grown k)
  | .tilde => (if r.place = .start ∨ r.last = .assign then .tilde else .literal, r.grown k)
  | .endBracket => (if r.bracket = .inside then .pattern else .literal, r.grown k)
  | _ => (.literal, r.grown k)

/-- A character outside of quotes. -/
def stepBare : Role × Reader :=
  if r.escaped then
    if k = .newline then (.continuation, r.passed) else (.quoted, r.joined)
  else (r.afterDollar k false).getD (r.stepPlain k)

/-- A character in double quotes. -/
def stepDouble : Role × Reader :=
  if r.escaped then
    match k with
    | .newline => (.continuation, r.passed)
    | .dollar | .backquote | .quote | .backslash => (.quoted, r.passed)
    | _ => (.kept, r.passed)
  else (r.afterDollar k true).getD <|
    match k with
    | .backslash => (.quoting, { r with last := .other, escaped := true })
    | .quote => (.quoting, r.leave)
    | .backquote => (.substitution, r.passed)
    | .dollar => (.dollar, { r with last := .dollar })
    | _ => (.quoted, r.passed)

/-- A character in the braces of a parameter. -/
def stepBraces (quoted : Bool) : Role × Reader :=
  let role := Role.ofParameter quoted
  if r.escaped then (role, r.passed)
  else (r.afterDollar k quoted).getD <|
    match k with
    | .backslash => (role, { r with last := .other, escaped := true })
    | .apostrophe => if quoted then (role, r.passed) else (.quoting, r.enter r.apostrophe)
    | .quote => (.quoting, r.enter .double)
    | .backquote => (.substitution, r.passed)
    | .dollar => (.dollar, { r with last := .dollar })
    | .endBrace => (role, r.leave)
    | _ => (role, r.passed)

/-- A character between the apostrophes after a `$`, where a backslash starts an escape. -/
def stepEscapes : Role × Reader :=
  if r.escaped then (.quotedExpansion, r.passed)
  else match k with
    | .backslash => (.quotedExpansion, { r with last := .other, escaped := true })
    | .apostrophe => (.quoting, r.leave)
    | _ => (.quotedExpansion, r.passed)

/-- The role of the next character, and what the shell knows after it. -/
def stepKind : Role × Reader :=
  match r.inside with
  | .single :: _ => if k = .apostrophe then (.quoting, r.leave) else (.quoted, r.passed)
  | .comment :: _ => if k = .newline then (.newline, r.leave.separated) else (.comment, r.passed)
  | .escapes :: _ => r.stepEscapes k
  | .double :: _ => r.stepDouble k
  | .braces quoted :: _ => r.stepBraces k quoted
  | .parens _ _ :: _ | [] => r.stepBare k

/-- `stepKind` of a character's kind. -/
def step (c : Char) : Role × Reader := r.stepKind (Kind.of c)

end Reader

/-- The characters of a text with their roles. -/
def read : Reader → List Char → List (Char × Role)
  | _, [] => []
  | r, c :: cs => (c, (r.step c).1) :: read (r.step c).2 cs

/-- What the shell knows after a text. -/
def after : Reader → List Char → Reader
  | r, [] => r
  | r, c :: cs => after (r.step c).2 cs

@[simp] theorem read_append (r : Reader) (a b : List Char) :
    read r (a ++ b) = read r a ++ read (after r a) b := by
  induction a generalizing r with
  | nil => rfl
  | cons c cs ih => rw [List.cons_append, read, read, after, ih, List.cons_append]

@[simp] theorem after_append (r : Reader) (a b : List Char) :
    after r (a ++ b) = after (after r a) b := by
  induction a generalizing r with
  | nil => rfl
  | cons c cs ih => rw [List.cons_append, after, after, ih]

@[simp] theorem length_read (r : Reader) (cs : List Char) : (read r cs).length = cs.length := by
  induction cs generalizing r with
  | nil => rfl
  | cons c cs ih => rw [read, List.length_cons, ih, List.length_cons]

/-- A reading has the characters of the text. -/
theorem map_fst_read (r : Reader) (cs : List Char) : (read r cs).map Prod.fst = cs := by
  induction cs generalizing r with
  | nil => rfl
  | cons c cs ih => rw [read, List.map_cons, ih]

/-! ## Words -/

/-- A word as it is written. -/
abbrev Word := List (Char × Role)

/-- Whether a character stands between words. -/
def Role.separates : Role → Bool
  | .blank | .newline | .control | .redirection | .comment => true
  | _ => false

/-- Whether there is a word at all, and not only a continued line. -/
def Word.isPresent (w : Word) : Bool :=
  w.any fun x => x.2 ≠ .continuation && x ≠ ('\\', .quoting)

/-- The words of a text. -/
def words (reading : List (Char × Role)) : List Word :=
  (reading.splitOnP fun x => x.2.separates).filter Word.isPresent

/-- The lines of a text that have words. -/
def lines (reading : List (Char × Role)) : List (List Word) :=
  ((reading.splitOnP fun x => x.2 = .newline).map words).filter (· ≠ [])

/-- Whether a word assigns to a variable. -/
def Word.isAssignment (w : Word) : Bool :=
  let inName := fun x : Char × Role =>
    x.2 = .literal && (Kind.of x.1 = .letter || Kind.of x.1 = .digit)
  w.head?.any (fun x => Kind.of x.1 = .letter && x.2 = .literal) &&
    (w.dropWhile inName).head? = some ('=', .literal)

/-- The words that start or continue a compound command. -/
def reservedWords : List String :=
  ["!", "\x7b", "\x7d", "case", "do", "done", "elif", "else", "esac", "fi", "for", "if", "in",
    "then", "until", "while"]

def Word.isReserved (w : Word) : Bool :=
  w.all (fun x => x.2 = .literal) && String.ofList (w.map Prod.fst) ∈ reservedWords

/-- The word that names the program: the first that assigns to no variable. -/
def program (ws : List Word) : Option Word := ws.find? fun w => !w.isAssignment

/-- A text that is one simple command, whose program is named by the word `w`; the value of no
parameter is split into that word. -/
structure IsCommand (dollarQuotes : Bool) (text : List Char) (w : Word) : Prop where
  closed : (after (Reader.start dollarQuotes) text).inside ∈ [[], [.comment]]
  simple : ∀ x ∈ read (Reader.start dollarQuotes) text,
    x.2 ≠ .control ∧ x.2 ≠ .redirection ∧ x.2 ≠ .substitution
  line : ∃ ws, lines (read (Reader.start dollarQuotes) text) = [ws] ∧
    ws.head?.any Word.isReserved = false ∧ program ws = some w
  unsplit : ∀ x ∈ w, x.2 ≠ .expansion

/-! ## The texts that a word may stand for -/

/-- Whether the shell puts something else in a character's place. -/
def Role.varies : Role → Bool
  | .dollar | .expansion | .quotedExpansion | .substitution | .pattern | .tilde => true
  | _ => false

/-- What a character stands for where nothing is put in its place. -/
def own (x : Char × Role) : List Char :=
  match x.2 with
  | .literal | .quoted => [x.1]
  | .kept => ['\\', x.1]
  | _ => []

/-- A word may stand for a text: anything may be put where the shell puts something in. -/
inductive Stands : Word → List Char → Prop
  | nil : Stands [] []
  | own {x w text} : x.2.varies = false → Stands w text → Stands (x :: w) (own x ++ text)
  | put {x w text} (value : List Char) : x.2.varies = true → Stands w text →
    Stands (x :: w) (value ++ text)

end Shell
