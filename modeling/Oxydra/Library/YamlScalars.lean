import Mathlib.Data.Nat.Digits.Lemmas

/-!
# YAML scalars on one line

Plain and double-quoted scalars that stand on one line of a block, read as YAML 1.2 does: the
characters of the two styles, the escapes, and the core schema, which says what a plain scalar is.

A text without backslashes whose quotation marks are escaped is read back from between two of them
exactly where it has no line break and no other control character but the tab
(`readQuoted_escapeQuotes`). One that stands plain is read back where it is a plain scalar for the
grammar (`isPlain`) and no keyword or number for the schema (`IsText`).
-/

namespace Yaml

open List

/-! ## Characters -/

/-- `c-printable`. -/
def isPrintable (c : Char) : Bool :=
  let n := c.toNat
  n == 0x9 || n == 0xA || n == 0xD || (0x20 ≤ n && n ≤ 0x7E) || n == 0x85 ||
    (0xA0 ≤ n && n ≤ 0xFFFD) || 0x10000 ≤ n

/-- `s-white`. -/
def isWhite (c : Char) : Bool := c == ' ' || c == '\t'

/-- `b-char`. -/
def isBreak (c : Char) : Bool := c == '\n' || c == '\r'

/-- `ns-char`. The one that is left out besides is the byte order mark. -/
def isNs (c : Char) : Bool :=
  isPrintable c && !isBreak c && !isWhite c && c.toNat != 0xFEFF

/-- `nb-json`. -/
def isJson (c : Char) : Bool := c == '\t' || 0x20 ≤ c.toNat

/-- `c-indicator`. -/
def isIndicator (c : Char) : Bool :=
  ['-', '?', ':', ',', '[', ']', '\x7b', '\x7d', '#', '&', '*', '!', '|', '>', '\'', '"', '%', '@',
    Char.ofNat 0x60].contains c

/-! ## Plain scalars -/

/-- `ns-plain-first`, of the text that begins so. -/
def isPlainFirst : List Char → Bool
  | [] => false
  | c :: cs => isNs c && (!isIndicator c || (['?', ':', '-'].contains c && cs.head?.any isNs))

/-- The characters of a plain scalar behind the one before: a number sign needs a character in front
of it, and a colon one behind it. -/
def isPlainRest (before : Char) : List Char → Bool
  | [] => !isWhite before
  | c :: cs =>
    (isWhite c || isNs c) && (c != '#' || isNs before) && (c != ':' || cs.head?.any isNs) &&
      isPlainRest c cs

/-- `ns-plain-one-line`, in a block. -/
def isPlain (text : List Char) : Bool :=
  isPlainFirst text && text.head?.any (isPlainRest · text.tail)

/-- A plain scalar has no line break. -/
theorem not_isBreak_of_isPlain {text : List Char} (h : isPlain text = true) :
    ∀ c ∈ text, isBreak c = false := by
  have hrest (before : Char) (rest : List Char) (h : isPlainRest before rest = true) :
      ∀ c ∈ rest, isBreak c = false := by
    induction rest generalizing before with
    | nil => simp
    | cons c cs ih =>
      simp only [isPlainRest, Bool.and_eq_true] at h
      obtain ⟨⟨⟨hc, -⟩, -⟩, hcs⟩ := h
      refine forall_mem_cons.mpr ⟨?_, ih c hcs⟩
      obtain hwhite | hns := Bool.or_eq_true_iff.mp hc
      · obtain rfl | rfl : c = ' ' ∨ c = '\t' := by simpa [isWhite] using hwhite
        all_goals decide
      · simp only [isNs, Bool.and_eq_true, Bool.not_eq_true'] at hns
        exact hns.1.1.2
  cases text with
  | nil => simp
  | cons c cs =>
    simp only [isPlain, isPlainFirst, List.head?_cons, Option.any_some, tail_cons,
      Bool.and_eq_true] at h
    obtain ⟨⟨hc, -⟩, hcs⟩ := h
    simp only [isNs, Bool.and_eq_true, Bool.not_eq_true'] at hc
    exact forall_mem_cons.mpr ⟨hc.1.1.2, hrest c cs hcs⟩

/-- A text without spaces, number signs and colons is a plain scalar where it begins like one. -/
theorem isPlain_of_isPlainFirst {text : List Char} (hns : ∀ c ∈ text, isNs c = true)
    (hhash : '#' ∉ text) (hcolon : ':' ∉ text) (hfirst : isPlainFirst text = true) :
    isPlain text = true := by
  have hrest (before : Char) (rest : List Char) (hbefore : isNs before = true)
      (hns : ∀ c ∈ rest, isNs c = true) (hhash : '#' ∉ rest) (hcolon : ':' ∉ rest) :
      isPlainRest before rest = true := by
    induction rest generalizing before with
    | nil =>
      simp only [isNs, Bool.and_eq_true] at hbefore
      exact hbefore.1.2
    | cons c cs ih =>
      rw [forall_mem_cons] at hns
      obtain ⟨hc, hcs⟩ := not_or.mp (mt mem_cons.mpr hhash)
      obtain ⟨hc', hcs'⟩ := not_or.mp (mt mem_cons.mpr hcolon)
      simp [isPlainRest, hns.1, Ne.symm hc, Ne.symm hc', ih c hns.1 hns.2 hcs hcs']
  cases text with
  | nil => simp [isPlainFirst] at hfirst
  | cons c cs =>
    rw [forall_mem_cons] at hns
    have hcs := hrest c cs hns.1 hns.2 (fun h => hhash (mem_cons_of_mem c h))
      fun h => hcolon (mem_cons_of_mem c h)
    rw [isPlain, hfirst, List.head?_cons, Option.any_some, tail_cons, hcs, Bool.and_self]

/-! ## The core schema -/

/-- A scalar. What the number is that a floating point number stands for is left out. -/
inductive Scalar where
  | null
  | bool (value : Bool)
  | int (value : ℤ)
  | float (text : List Char)
  | str (text : List Char)
  deriving DecidableEq, Repr

/-- A number without its sign. -/
def unsigned (text : List Char) : List Char :=
  if text.head? = some '-' ∨ text.head? = some '+' then text.tail else text

/-- `[0-9]+`. -/
def isDigits (text : List Char) : Bool := !text.isEmpty && text.all Char.isDigit

/-- `[-+]? [0-9]+`. -/
def readDecimal (text : List Char) : Option ℤ :=
  let magnitude : ℤ := Nat.ofDigitChars 10 (unsigned text) 0
  if isDigits (unsigned text) then
    some (if text.head? = some '-' then -magnitude else magnitude)
  else none

/-- The digit of a number of base 16. -/
def hexDigit (c : Char) : Option ℕ :=
  if c.isDigit then some (c.toNat - 48)
  else if 'a'.toNat ≤ c.toNat ∧ c.toNat ≤ 'f'.toNat then some (c.toNat - 87)
  else if 'A'.toNat ≤ c.toNat ∧ c.toNat ≤ 'F'.toNat then some (c.toNat - 55)
  else none

/-- `0o [0-7]+` and `0x [0-9a-fA-F]+`. -/
def readBased : List Char → Option ℤ
  | '0' :: 'o' :: c :: cs => (c :: cs).foldlM (fun n c => (hexDigit c).bind fun digit =>
      if digit < 8 then some (8 * n + (digit : ℤ)) else none) 0
  | '0' :: 'x' :: c :: cs => (c :: cs).foldlM (fun n c => (hexDigit c).map fun digit =>
      16 * n + (digit : ℤ)) 0
  | _ => none

/-- `\. [0-9]+ | [0-9]+ ( \. [0-9]* )?`. -/
def isMantissa (text : List Char) : Bool :=
  match text.dropWhile Char.isDigit with
  | [] => !text.isEmpty
  | c :: fraction => c == '.' && fraction.all Char.isDigit &&
      (!(text.takeWhile Char.isDigit).isEmpty || !fraction.isEmpty)

/-- `[-+]? ( \. [0-9]+ | [0-9]+ ( \. [0-9]* )? ) ( [eE] [-+]? [0-9]+ )?`. -/
def isFloat (text : List Char) : Bool :=
  let before := (unsigned text).takeWhile fun c => c != 'e' && c != 'E'
  let behind := (unsigned text).dropWhile fun c => c != 'e' && c != 'E'
  isMantissa before && (behind.isEmpty || isDigits (unsigned behind.tail))

/-- The keywords of the schema. -/
def keyword (text : String) : Option Scalar :=
  match text with
  | "" | "~" | "null" | "Null" | "NULL" => some .null
  | "true" | "True" | "TRUE" => some (.bool true)
  | "false" | "False" | "FALSE" => some (.bool false)
  | ".inf" | ".Inf" | ".INF" | "-.inf" | "-.Inf" | "-.INF" | "+.inf" | "+.Inf" | "+.INF"
  | ".nan" | ".NaN" | ".NAN" => some (.float text.toList)
  | _ => none

/-- What a plain scalar stands for. -/
def resolve (text : List Char) : Scalar :=
  match keyword (String.ofList text), readDecimal text, readBased text with
  | some scalar, _, _ => scalar
  | none, some value, _ | none, none, some value => .int value
  | none, none, none => if isFloat text then .float text else .str text

/-- A plain scalar that stands for itself. -/
def IsText (text : List Char) : Prop := resolve text = .str text

instance (text : List Char) : Decidable (IsText text) :=
  inferInstanceAs (Decidable (resolve text = .str text))

/-! ## Numbers -/

theorem isDigits_toDigits (n : ℕ) : isDigits (Nat.toDigits 10 n) = true := by
  have hne : Nat.toDigits 10 n ≠ [] := Nat.toDigits_ne_nil
  have hall : (Nat.toDigits 10 n).all Char.isDigit = true :=
    all_eq_true.mpr fun c hc => Nat.isDigit_of_mem_toDigits (by decide) (by decide) hc
  simp [isDigits, hne, hall]

/-- What begins with a digit has no sign. -/
theorem unsigned_of_isDigits {text : List Char} (h : isDigits text = true) :
    text.head? ≠ some '-' ∧ unsigned text = text := by
  cases text with
  | nil => simp [isDigits] at h
  | cons c cs =>
    have hc : c.isDigit = true := by
      simp only [isDigits, all_cons, Bool.and_eq_true] at h
      exact h.2.1
    have hminus : c ≠ '-' := fun hc' => absurd (hc' ▸ hc) (by decide)
    have hplus : c ≠ '+' := fun hc' => absurd (hc' ▸ hc) (by decide)
    simp [unsigned, hminus, hplus]

/-- The text of an integer: its digits, behind a minus sign where it is negative. -/
theorem toList_toString_int (i : ℤ) :
    (toString i).toList =
      (if i < 0 then ['-'] else []) ++ Nat.toDigits 10 i.natAbs := by
  cases i with
  | ofNat n =>
    rw [if_neg (by simp)]
    exact String.toList_ofList
  | negSucc n =>
    rw [if_pos (Int.negSucc_lt_zero n)]
    show ("-" ++ Nat.repr (n + 1)).toList = _
    rw [String.toList_append]
    exact congrArg (['-'] ++ ·) String.toList_ofList

/-- An integer is read back. -/
theorem readDecimal_toString (i : ℤ) : readDecimal (toString i).toList = some i := by
  have hdigits := isDigits_toDigits i.natAbs
  have hvalue : Nat.ofDigitChars 10 (Nat.toDigits 10 i.natAbs) 0 = i.natAbs :=
    Nat.ofDigitChars_ten_toDigits
  rw [toList_toString_int]
  split_ifs with hneg
  · have hminus : unsigned (['-'] ++ Nat.toDigits 10 i.natAbs) = Nat.toDigits 10 i.natAbs := by
      simp [unsigned]
    rw [readDecimal, hminus, if_pos hdigits, hvalue, singleton_append, List.head?_cons,
      if_pos rfl, Int.ofNat_natAbs_of_nonpos hneg.le, neg_neg]
  · obtain ⟨hhead, hself⟩ := unsigned_of_isDigits hdigits
    rw [nil_append, readDecimal, hself, if_pos hdigits, hvalue, if_neg hhead,
      Int.natAbs_of_nonneg (not_lt.mp hneg)]

/-- No keyword is a number. -/
theorem keyword_of_readDecimal {text : List Char} {i : ℤ} (h : readDecimal text = some i) :
    keyword (String.ofList text) = none := by
  have hdigits : isDigits (unsigned (String.ofList text).toList) = true := by
    rw [String.toList_ofList]
    by_contra hdigits
    simp [readDecimal, hdigits] at h
  generalize String.ofList text = s at hdigits
  unfold keyword
  split <;> first | rfl | exact absurd hdigits (by decide)

theorem resolve_toString (i : ℤ) : resolve (toString i).toList = .int i := by
  have hread := readDecimal_toString i
  unfold resolve
  rw [keyword_of_readDecimal hread, hread]

/-! ## Double-quoted scalars -/

/-- The characters that an escape with one letter stands for. -/
def escaped (c : Char) : Option Char :=
  match c with
  | '0' => some (Char.ofNat 0x0) | 'a' => some (Char.ofNat 0x7) | 'b' => some (Char.ofNat 0x8)
  | 't' => some '\t' | '\t' => some '\t' | 'n' => some '\n' | 'v' => some (Char.ofNat 0xB)
  | 'f' => some (Char.ofNat 0xC) | 'r' => some '\r' | 'e' => some (Char.ofNat 0x1B)
  | ' ' => some ' ' | '"' => some '"' | '/' => some '/' | '\\' => some '\\'
  | 'N' => some (Char.ofNat 0x85) | '_' => some (Char.ofNat 0xA0)
  | 'L' => some (Char.ofNat 0x2028) | 'P' => some (Char.ofNat 0x2029)
  | _ => none

/-- The hexadecimal digits of an escape. -/
def hexDigits (c : Char) : Option ℕ :=
  match c with
  | 'x' => some 2
  | 'u' => some 4
  | 'U' => some 8
  | _ => none

/-- Where the reader of a double-quoted scalar is: between two characters, behind a backslash, or
in front of so many hexadecimal digits, and one more, of a code point. -/
inductive Place where
  | between
  | escape
  | code (left value : ℕ)

/-- A character in front of what is read. -/
def push (c : Char) (reading : Option (List Char × List Char)) : Option (List Char × List Char) :=
  reading.map fun (value, rest) => (c :: value, rest)

/-- What stands up to the closing quotation mark, on one line, and what stands behind it. -/
def readQuoted : Place → List Char → Option (List Char × List Char)
  | _, [] => none
  | .between, c :: cs =>
    if c = '"' then some ([], cs)
    else if c = '\\' then readQuoted .escape cs
    else if isJson c then push c (readQuoted .between cs)
    else none
  | .escape, c :: cs =>
    match hexDigits c, escaped c with
    | some n, _ => readQuoted (.code (n - 1) 0) cs
    | none, some d => push d (readQuoted .between cs)
    | none, none => none
  | .code left value, c :: cs =>
    match hexDigit c, left with
    | none, _ => none
    | some digit, left + 1 => readQuoted (.code left (16 * value + digit)) cs
    | some digit, 0 =>
      if (16 * value + digit).isValidChar then
        push (Char.ofNat (16 * value + digit)) (readQuoted .between cs)
      else none

/-- The quotation marks of a text escaped, and nothing else. -/
def escapeQuotes (text : List Char) : List Char :=
  text.flatMap fun c => if c = '"' then ['\\', '"'] else [c]

theorem escapeQuotes_cons (c : Char) (cs : List Char) :
    escapeQuotes (c :: cs) = (if c = '"' then ['\\', '"'] else [c]) ++ escapeQuotes cs := rfl

/-- Without a backslash, a text is read back where all its characters may stand there. -/
theorem readQuoted_escapeQuotes {text : List Char} (hback : '\\' ∉ text) (rest : List Char) :
    readQuoted .between (escapeQuotes text ++ '"' :: rest) =
      if text.all isJson then some (text, rest) else none := by
  induction text with
  | nil => simp [escapeQuotes, readQuoted]
  | cons c cs ih =>
    obtain ⟨hne, hcs⟩ := not_or.mp (mt mem_cons.mpr hback)
    have ih := ih hcs
    rw [escapeQuotes_cons]
    by_cases hquote : c = '"'
    · subst hquote
      have hstep : readQuoted .between (['\\', '"'] ++ escapeQuotes cs ++ '"' :: rest) =
          push '"' (readQuoted .between (escapeQuotes cs ++ '"' :: rest)) := by
        simp [readQuoted, hexDigits, escaped]
      rw [if_pos rfl, hstep, ih]
      have hjson : isJson '"' = true := by decide
      by_cases hall : cs.all isJson <;> simp [hall, hjson, push]
    · have hstep : readQuoted .between ([c] ++ escapeQuotes cs ++ '"' :: rest) =
          if isJson c then push c (readQuoted .between (escapeQuotes cs ++ '"' :: rest))
          else none := by
        simp [readQuoted, hquote, Ne.symm hne]
      rw [if_neg hquote, hstep, ih]
      by_cases hjson : isJson c <;> by_cases hall : cs.all isJson <;> simp [hjson, hall, push]

/-! ## Scalars -/

/-- A scalar that is all that stands on the rest of a line: double-quoted, or plain. -/
def readScalar (text : List Char) : Option Scalar :=
  match text with
  | '"' :: cs =>
    (readQuoted .between cs).bind fun (value, rest) =>
      if rest = [] then some (.str value) else none
  | _ => if isPlain text then some (resolve text) else none

/-- A plain scalar does not begin with a quotation mark. -/
theorem readScalar_of_isPlain {text : List Char} (h : isPlain text = true) :
    readScalar text = some (resolve text) := by
  unfold readScalar
  split
  · simp [isPlain, isPlainFirst, isIndicator] at h
  · rw [if_pos h]

/-- A scalar that is between quotation marks, with those inside escaped. -/
theorem readScalar_quoted {text : List Char} (hback : '\\' ∉ text)
    (hall : text.all isJson = true) :
    readScalar ('"' :: (escapeQuotes text ++ ['"'])) = some (.str text) := by
  simp [readScalar, readQuoted_escapeQuotes hback, hall]

end Yaml
