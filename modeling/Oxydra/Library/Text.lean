import Mathlib.Data.Rat.Floor

/-!
# Text as Rust's standard library handles it

Trimming and splitting at Unicode white space, prefixes counted in characters or cut back to a
character boundary, the occurrences of a pattern, the `Debug` text of a `Duration`, and the text of
a number with three decimals.
-/

namespace Text

/-- `char::is_whitespace`: the Unicode property `White_Space`. -/
def isWhitespace (c : Char) : Bool :=
  let n := c.toNat
  (9 ≤ n && n ≤ 13) || n == 0x20 || n == 0x85 || n == 0xA0 || n == 0x1680 ||
    (0x2000 ≤ n && n ≤ 0x200A) || n == 0x2028 || n == 0x2029 || n == 0x202F || n == 0x205F ||
    n == 0x3000

/-- `char::is_control`: the Unicode category `Cc`. -/
def isControl (c : Char) : Bool := c.toNat < 0x20 || (0x7F ≤ c.toNat && c.toNat ≤ 0x9F)

/-- `str::trim_start`. -/
def trimStart (s : String) : String := String.ofList (s.toList.dropWhile isWhitespace)

/-- `str::trim_end`. -/
def trimEnd (s : String) : String :=
  String.ofList (s.toList.reverse.dropWhile isWhitespace).reverse

/-- `str::trim`. -/
def trim (s : String) : String := trimEnd (trimStart s)

/-- The words of a list of characters, the last word first. -/
def wordsRev : List Char → List Char → List (List Char) → List (List Char)
  | [], [], done => done
  | [], word, done => word.reverse :: done
  | c :: cs, [], done => if isWhitespace c then wordsRev cs [] done else wordsRev cs [c] done
  | c :: cs, word, done =>
    if isWhitespace c then wordsRev cs [] (word.reverse :: done) else wordsRev cs (c :: word) done

/-- `split_whitespace` and then `join(" ")`. -/
def normalizeWhitespace (s : String) : String :=
  String.intercalate " " ((wordsRev s.toList [] []).reverse.map String.ofList)

/-- The text itself when it has at most `n` characters; else its first `n`, and three dots. -/
def ellipsize (n : ℕ) (s : String) : String :=
  if n < s.toList.length then String.ofList (s.toList.take n) ++ "..." else s

/-- The longest prefix of a list of characters that takes at most `n` bytes. -/
def takeBytes : ℕ → List Char → List Char
  | _, [] => []
  | n, c :: cs => if c.utf8Size ≤ n then c :: takeBytes (n - c.utf8Size) cs else []

/-- `&s[..n]`, which panics where that is inside a character or past the end. -/
def sliceTo (n : ℕ) (s : String) : Option String :=
  let head := String.ofList (takeBytes n s.toList)
  if head.utf8ByteSize = n then some head else none

/-- The occurrences of a pattern that do not overlap, from where `skip` more characters are passed
over. -/
def countFrom (pattern : List Char) : ℕ → List Char → ℕ
  | _, [] => 0
  | skip + 1, _ :: cs => countFrom pattern skip cs
  | 0, c :: cs =>
    if pattern.isPrefixOf (c :: cs) then 1 + countFrom pattern (pattern.length - 1) cs
    else countFrom pattern 0 cs

/-- `matches(pattern).count()`, of a pattern that is not empty. -/
def countMatches (pattern s : String) : ℕ := countFrom pattern.toList 0 s.toList

/-- A number's digits, padded with zeros on the left to `width`. -/
def zeroPad (width n : ℕ) : List Char :=
  let digits := (toString n).toList
  List.replicate (width - digits.length) '0' ++ digits

/-- A whole part and a fraction of `width` digits, without the zeros at its end. -/
def decimal (whole fraction width : ℕ) : String :=
  if fraction = 0 then toString whole
  else toString whole ++ "." ++
    String.ofList ((zeroPad width fraction).reverse.dropWhile (· == '0')).reverse

/-- The `Debug` text of a `Duration`, given in nanoseconds. -/
def durationDebug (nanos : ℕ) : String :=
  if 1000000000 ≤ nanos then decimal (nanos / 1000000000) (nanos % 1000000000) 9 ++ "s"
  else if 1000000 ≤ nanos then decimal (nanos / 1000000) (nanos % 1000000) 6 ++ "ms"
  else if 1000 ≤ nanos then decimal (nanos / 1000) (nanos % 1000) 3 ++ "µs"
  else toString nanos ++ "ns"

/-- The nearest natural number to a nonnegative rational, the even one of two that are as near. -/
def roundHalfEven (q : ℚ) : ℕ :=
  let n := ⌊q⌋.toNat
  let rest := q - n
  if rest < 1 / 2 then n else if 1 / 2 < rest then n + 1 else if n % 2 = 0 then n else n + 1

/-- `format!("{:.3}")` of a finite number. -/
def fixed3 (q : ℚ) : String :=
  let thousandths := roundHalfEven (|q| * 1000)
  (if q < 0 then "-" else "") ++ toString (thousandths / 1000) ++ "." ++
    String.ofList (zeroPad 3 (thousandths % 1000))

example : countMatches "aa" "aaaba a aa" = 2 := by decide
example : normalizeWhitespace "  a\t b \n" = "a b" := by decide
example : durationDebug 1500000000 = "1.5s" ∧ durationDebug 60000000000 = "60s" := by decide

end Text
