import Oxydra.Channels.CalendarDates
import Oxydra.Library.CharBoundary
import Oxydra.Scheduler.Schedules

/-!
# Reading log files

The helpers of `crates/runner/src/lib.rs` that read a log file: `parse_since_threshold`, with the
time of the clock given, `extract_timestamp`, `strip_timestamp`, and `read_log_file_tail`. The lines
of a file are those that `BufRead::lines` gives, or an error that ends them.
-/

namespace Oxydra

open Text

/-! ## The threshold -/

/-- `SystemTime::checked_sub` of whole seconds. -/
def SystemTime.checkedSub (t : SystemTime) (secs : ℕ) : Option SystemTime :=
  if h : I64.IsWord (t.secs - secs) then some ⟨t.secs - secs, t.nanos, h, t.nanos_lt⟩ else none

/-- The seconds of a duration shorthand: `some none` for another unit, and `none` where a product
overflows. -/
def shorthandSecs (num : ℕ) : String → Option (Option ℕ)
  | "s" => some (some num)
  | "m" => (U64.checkedMul num 60).map some
  | "h" => (U64.checkedMul num 3600).map some
  | "d" => (U64.checkedMul num 86400).map some
  | _ => some none

/-- `parse_since_threshold`, or `none` where it panics or overflows. -/
def parseSinceThreshold (now : SystemTime) (since : String) : Option (Option String) :=
  let since := trim since
  if since = "" then some none
  else if 'T' ∈ since.toList ∧ 19 ≤ since.utf8ByteSize then some (some since)
  else if since.utf8ByteSize < 2 then some none
  else do
    let num_str ← sliceTo (since.utf8ByteSize - 1) since
    let unit ← slice (since.utf8ByteSize - 1) since.utf8ByteSize since
    match parseU64 num_str with
    | none => some none
    | some num =>
      match ← shorthandSecs num unit with
      | none => some none
      | some secs =>
        match now.checkedSub secs with
        | none => some none
        | some threshold => (systemTimeToRfc3339 threshold).map some

/-! ## Lines -/

/-- A space or a tab. -/
def isDelimiter (c : Char) : Bool := c = ' ' || c = '\t'

/-- A line with the bytes that a timestamp has in it. -/
def looksStamped (line : String) : Bool :=
  let bytes := TextOrder.bytes line
  19 ≤ line.utf8ByteSize && bytes[4]? = some 0x2D && bytes[7]? = some 0x2D && bytes[10]? = some 0x54

/-- What stands before the first delimiter of a line. -/
def firstField (line : String) : String :=
  String.ofList (line.toList.takeWhile fun c => !isDelimiter c)

/-- `extract_timestamp`. -/
def extractTimestamp (line : String) : Option String :=
  if looksStamped line ∧ 19 ≤ (firstField line).utf8ByteSize then some (firstField line) else none

/-- `strip_timestamp`. -/
def stripTimestamp (line : String) : String :=
  let rest := line.toList.dropWhile fun c => !isDelimiter c
  if looksStamped line ∧ rest ≠ [] then trimStart (String.ofList rest) else line

/-- Whether the filter skips a line. -/
def isBeforeThreshold (threshold : Option String) (line : String) : Bool :=
  match threshold, extractTimestamp line with
  | some threshold, some ts => ts < threshold
  | _, _ => false

/-- The lines that are blank or before the threshold are skipped, up to an error. -/
def keptLines (threshold : Option String) :
    List (Except String String) → Except String (List String)
  | [] => .ok []
  | .error e :: _ => .error e
  | .ok line :: rest => do
    let kept ← keptLines threshold rest
    return if trim line = "" ∨ isBeforeThreshold threshold line then kept else line :: kept

/-- The first error among the lines of a file. -/
def readError : List (Except String String) → Option String
  | [] => none
  | .error e :: _ => some e
  | .ok _ :: rest => readError rest

/-- The lines of a file without its errors. -/
def textLines : List (Except String String) → List String
  | [] => []
  | .error _ :: rest => textLines rest
  | .ok line :: rest => line :: textLines rest

/-- What is kept of a file without an error are the lines that the filter lets through. -/
theorem keptLines_eq (threshold : Option String) (lines : List (Except String String)) :
    keptLines threshold lines =
      match readError lines with
      | some e => .error e
      | none => .ok ((textLines lines).filter fun line =>
          trim line ≠ "" ∧ isBeforeThreshold threshold line = false) := by
  induction lines with
  | nil => rfl
  | cons line lines ih =>
    cases line with
    | error e => rfl
    | ok line =>
      rw [keptLines, ih, readError, textLines, List.filter_cons]
      split
      · rfl
      · change Except.ok _ = Except.ok _
        by_cases hskip : trim line = "" ∨ isBeforeThreshold threshold line = true
        · rw [if_pos hskip, if_neg (by simpa [imp_iff_not_or] using hskip)]
        · rw [if_neg hskip, if_pos (by simpa [not_or] using hskip)]

/-- The last `n` lines, and whether there are more. -/
def lastLines (n : ℕ) (lines : List String) : List String × Bool :=
  (lines.drop (lines.length - n), decide (n < lines.length))

/-- `read_log_file_tail`, of the lines of a file or the error of opening it, or `none` where it
panics. -/
def readLogFileTail (now : SystemTime) (file : Except String (List (Except String String)))
    (maxLines : ℕ) (since : Option String) : Option (Except String (List String × Bool)) :=
  match file with
  | .error e => some (.error e)
  | .ok lines => do
    let threshold ← match since with
      | some since => parseSinceThreshold now since
      | none => some none
    return (keptLines threshold lines).map (lastLines maxLines)

end Oxydra
