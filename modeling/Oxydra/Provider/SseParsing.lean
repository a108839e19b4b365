import Oxydra.Library.LineStream
import Oxydra.Library.Utf8

/-!
# Server-sent events

`SseDataParser` and `SseEventParser` of `crates/provider/src/openai.rs` take a stream in chunks. Both
keep a partial line and a partial event, and the second also keeps the type of the event.

`sseParsers_eq`: however the stream is cut, both give the events of the line grammar (`sseEvents`), of
which the first keeps the data only.
-/

namespace Oxydra

open LineStream Utf8

/-! ## Lines -/

/-- A text of ASCII characters as bytes. -/
def ascii (text : String) : List UInt8 := text.toList.map fun c => UInt8.ofNat c.toNat

/-- `strip_prefix`. -/
def stripPrefix (start line : List UInt8) : Option (List UInt8) :=
  if start <+: line then some (line.drop start.length) else none

/-- A line without the carriage return that it ends in. -/
def stripReturn (line : List UInt8) : List UInt8 :=
  if ascii "\r" <:+ line then line.dropLast else line

/-- A value without the space that it starts with. -/
def stripSpace (value : List UInt8) : List UInt8 :=
  if ascii " " <+: value then value.drop 1 else value

/-! ## The parsers -/

/-- What an `SseDataParser` keeps beside its `line_buffer`. -/
structure SseDataParser where
  data_lines : List String := []

namespace SseDataParser

/-- `flush_event`. -/
def flushEvent (parser : SseDataParser) : SseDataParser × List String :=
  if parser.data_lines ≠ [] then ({}, ["\n".intercalate parser.data_lines]) else (parser, [])

/-- `process_line`. -/
def processLine (parser : SseDataParser) (line : List UInt8) :
    Except String (SseDataParser × List String) :=
  let line := stripReturn line
  if line = [] then .ok parser.flushEvent
  else if ascii ":" <+: line then .ok (parser, [])
  else
    match stripPrefix (ascii "data:") line with
    | none => .ok (parser, [])
    | some data =>
      match fromUtf8 (stripSpace data) with
      | .ok data => .ok ({ data_lines := parser.data_lines ++ [data] }, [])
      | .error error => .error s!"invalid UTF-8 in SSE data line: {error}"

/-- The results of `push_chunk` for each chunk, and of `finish`. -/
def parse (chunks : List (List UInt8)) : Except String (List String) :=
  LineStream.run 0x0A processLine (fun parser => parser.flushEvent.2) ⟨[], {}⟩ chunks

end SseDataParser

structure SseEvent where
  event_type : Option String
  data : String
  deriving DecidableEq, Repr

/-- What an `SseEventParser` keeps beside its `line_buffer`. -/
structure SseEventParser where
  event_type : Option String := none
  data_lines : List String := []

namespace SseEventParser

/-- `flush_event`. -/
def flushEvent (parser : SseEventParser) : SseEventParser × List SseEvent :=
  if parser.data_lines ≠ [] then ({}, [⟨parser.event_type, "\n".intercalate parser.data_lines⟩])
  else ({ parser with event_type := none }, [])

/-- `process_line`. -/
def processLine (parser : SseEventParser) (line : List UInt8) :
    Except String (SseEventParser × List SseEvent) :=
  let line := stripReturn line
  if line = [] then .ok parser.flushEvent
  else if ascii ":" <+: line then .ok (parser, [])
  else
    match stripPrefix (ascii "event:") line with
    | some value =>
      match fromUtf8 (stripSpace value) with
      | .ok value => .ok ({ parser with event_type := some value }, [])
      | .error error => .error s!"invalid UTF-8 in SSE event line: {error}"
    | none =>
      match stripPrefix (ascii "data:") line with
      | none => .ok (parser, [])
      | some data =>
        match fromUtf8 (stripSpace data) with
        | .ok data => .ok ({ parser with data_lines := parser.data_lines ++ [data] }, [])
        | .error error => .error s!"invalid UTF-8 in SSE data line: {error}"

/-- The results of `push_chunk` for each chunk, and of `finish`. -/
def parse (chunks : List (List UInt8)) : Except String (List SseEvent) :=
  LineStream.run 0x0A processLine (fun parser => parser.flushEvent.2) ⟨[], {}⟩ chunks

end SseEventParser

/-! ## The grammar -/

/-- A line of an event stream. -/
inductive SseLine where
  | blank
  | event (value : List UInt8)
  | data (value : List UInt8)
  /-- A comment, or a field that the parsers do not know. -/
  | ignored
  deriving DecidableEq

namespace SseLine

/-- The line that bytes make up. -/
def ofBytes (line : List UInt8) : SseLine :=
  let line := stripReturn line
  if line = [] then .blank
  else if ascii ":" <+: line then .ignored
  else if ascii "event:" <+: line then .event (stripSpace (line.drop 6))
  else if ascii "data:" <+: line then .data (stripSpace (line.drop 5))
  else .ignored

/-- The value of an event or data line is UTF-8. -/
def Valid : SseLine → Prop
  | .event value | .data value => (fromUtf8 value).isOk = true
  | _ => True

instance : DecidablePred Valid
  | .event _ | .data _ => inferInstanceAs (Decidable (_ = true))
  | .blank | .ignored => inferInstanceAs (Decidable True)

/-- The type that a line names. -/
def typeText : SseLine → Option String
  | .event value => (fromUtf8 value).toOption
  | _ => none

/-- The text of a data line. -/
def dataText : SseLine → Option String
  | .data value => (fromUtf8 value).toOption
  | _ => none

/-- The event of the lines between two blank ones, if there is data in it. -/
def eventOf (group : List SseLine) : Option SseEvent :=
  let data := group.filterMap dataText
  if data = [] then none
  else some ⟨(group.filterMap typeText).getLast?, "\n".intercalate data⟩

end SseLine

/-- The events of a stream: one for each group of lines that a blank line or the end of the stream
ends, if there is data in it. -/
def sseEvents (stream : List UInt8) : List SseEvent :=
  groups (· = .blank) SseLine.eventOf ((linesOf 0x0A stream).map SseLine.ofBytes)

/-! ## Agreement -/

theorem exists_ok {result : Except String String} (h : result.isOk = true) :
    ∃ text, result = .ok text := by
  cases result with
  | error error => exact nomatch h
  | ok text => exact ⟨text, rfl⟩

namespace SseEventParser

open SseLine

/-- The state behind the lines of a group. -/
def ofGroup (group : List SseLine) : SseEventParser :=
  ⟨(group.filterMap typeText).getLast?, group.filterMap dataText⟩

theorem flushEvent_ofGroup (group : List SseLine) :
    (ofGroup group).flushEvent = (ofGroup [], (eventOf group).toList) := by
  unfold ofGroup flushEvent eventOf
  by_cases h : group.filterMap dataText = []
  · simp [h]
  · simp [h]

/-- A line by its kind. -/
theorem processLine_eq (parser : SseEventParser) (line : List UInt8) :
    parser.processLine line =
      match ofBytes line with
      | .blank => .ok parser.flushEvent
      | .ignored => .ok (parser, [])
      | .event value =>
        match fromUtf8 value with
        | .ok value => .ok ({ parser with event_type := some value }, [])
        | .error error => .error s!"invalid UTF-8 in SSE event line: {error}"
      | .data value =>
        match fromUtf8 value with
        | .ok text => .ok ({ parser with data_lines := parser.data_lines ++ [text] }, [])
        | .error error => .error s!"invalid UTF-8 in SSE data line: {error}" := by
  unfold processLine ofBytes stripPrefix
  generalize stripReturn line = line
  by_cases hblank : line = []
  · rw [if_pos hblank, if_pos hblank]
  · rw [if_neg hblank, if_neg hblank]
    split_ifs <;> rfl

/-- The state behind one more line of a group. -/
theorem processLine_ofGroup {line : List UInt8} (hvalid : (ofBytes line).Valid)
    (hmore : ofBytes line ≠ .blank) (group : List SseLine) :
    processLine (ofGroup group) line = .ok (ofGroup (group ++ [ofBytes line]), []) := by
  rw [processLine_eq]
  unfold ofGroup
  cases hkind : ofBytes line with
  | blank => exact absurd hkind hmore
  | ignored => simp [typeText, dataText]
  | event value =>
    rw [hkind] at hvalid
    obtain ⟨text, htext⟩ := exists_ok hvalid
    simp [typeText, dataText, htext, Except.toOption]
  | data value =>
    rw [hkind] at hvalid
    obtain ⟨text, htext⟩ := exists_ok hvalid
    simp [typeText, dataText, htext, Except.toOption]

/-- The parser gives the events of the grammar. -/
theorem parse_eq {chunks : List (List UInt8)}
    (hvalid : ∀ line ∈ linesOf 0x0A chunks.flatten, (ofBytes line).Valid) :
    parse chunks = .ok (sseEvents chunks.flatten) := by
  unfold parse sseEvents
  apply run_groups ofBytes _ eventOf ofGroup
  · exact fun group => congrArg Prod.snd (flushEvent_ofGroup group)
  · intro group line _ hblank
    rw [processLine_eq, of_decide_eq_true hblank, flushEvent_ofGroup]
  · intro group line hline hmore
    exact processLine_ofGroup (hvalid line hline) (of_decide_eq_false hmore) group

end SseEventParser

namespace SseDataParser

open SseLine

/-- The state behind the lines of a group. -/
def ofGroup (group : List SseLine) : SseDataParser := ⟨group.filterMap dataText⟩

/-- What comes of a group: the data of its event. -/
def payloadOf (group : List SseLine) : Option String := (eventOf group).map SseEvent.data

theorem flushEvent_ofGroup (group : List SseLine) :
    (ofGroup group).flushEvent = (ofGroup [], (payloadOf group).toList) := by
  unfold ofGroup flushEvent payloadOf eventOf
  by_cases h : group.filterMap dataText = []
  · simp [h]
  · simp [h]

/-- No line names both fields. -/
theorem not_data_of_event {line : List UInt8} (h : ascii "event:" <+: line) :
    ¬ascii "data:" <+: line := by
  intro hdata
  obtain ⟨rest, rfl⟩ := h
  obtain ⟨rest', heq⟩ := hdata
  have hhead : (some 0x64 : Option UInt8) = some 0x65 := congrArg List.head? heq
  exact absurd hhead (by decide)

/-- A line by its kind. -/
theorem processLine_eq (parser : SseDataParser) (line : List UInt8) :
    parser.processLine line =
      match ofBytes line with
      | .blank => .ok parser.flushEvent
      | .ignored | .event _ => .ok (parser, [])
      | .data value =>
        match fromUtf8 value with
        | .ok text => .ok ({ data_lines := parser.data_lines ++ [text] }, [])
        | .error error => .error s!"invalid UTF-8 in SSE data line: {error}" := by
  unfold processLine ofBytes stripPrefix
  generalize stripReturn line = line
  by_cases hblank : line = []
  · rw [if_pos hblank, if_pos hblank]
  · rw [if_neg hblank, if_neg hblank]
    split_ifs with hcomment hdata hevent hevent
    · rfl
    · exact absurd hdata (not_data_of_event hevent)
    · rfl
    · rfl
    · rfl

/-- The state behind one more line of a group. -/
theorem processLine_ofGroup {line : List UInt8} (hvalid : (ofBytes line).Valid)
    (hmore : ofBytes line ≠ .blank) (group : List SseLine) :
    processLine (ofGroup group) line = .ok (ofGroup (group ++ [ofBytes line]), []) := by
  rw [processLine_eq]
  unfold ofGroup
  cases hkind : ofBytes line with
  | blank => exact absurd hkind hmore
  | ignored => simp [dataText]
  | event value => simp [dataText]
  | data value =>
    rw [hkind] at hvalid
    obtain ⟨text, htext⟩ := exists_ok hvalid
    simp [dataText, htext, Except.toOption]

/-- The parser gives the data of the events of the grammar. -/
theorem parse_eq {chunks : List (List UInt8)}
    (hvalid : ∀ line ∈ linesOf 0x0A chunks.flatten, (ofBytes line).Valid) :
    parse chunks = .ok ((sseEvents chunks.flatten).map SseEvent.data) := by
  unfold parse sseEvents groups
  rw [List.map_filterMap]
  apply run_groups ofBytes _ payloadOf ofGroup
  · exact fun group => congrArg Prod.snd (flushEvent_ofGroup group)
  · intro group line _ hblank
    rw [processLine_eq, of_decide_eq_true hblank, flushEvent_ofGroup]
  · intro group line hline hmore
    exact processLine_ofGroup (hvalid line hline) (of_decide_eq_false hmore) group

end SseDataParser

/-- However a stream with valid lines is cut into chunks, the parsers give what they give of the
stream in one chunk: the events of the grammar, and their data. -/
theorem sseParsers_eq (chunks : List (List UInt8))
    (hvalid : ∀ line ∈ linesOf 0x0A chunks.flatten, (SseLine.ofBytes line).Valid) :
    SseEventParser.parse chunks = SseEventParser.parse [chunks.flatten] ∧
      SseDataParser.parse chunks = SseDataParser.parse [chunks.flatten] ∧
      SseEventParser.parse chunks = .ok (sseEvents chunks.flatten) ∧
      SseDataParser.parse chunks = .ok ((sseEvents chunks.flatten).map SseEvent.data) :=
  ⟨run_flatten _ _ _ _ _, run_flatten _ _ _ _ _, SseEventParser.parse_eq hvalid,
    SseDataParser.parse_eq hvalid⟩

/-- A stream that is cut inside a field name, a CRLF pair and a character. -/
theorem sseParsers_eq_cut : SseEventParser.parse
      [ascii "event: a\r\nda", ascii "ta: " ++ [0xC3], 0xA9 :: ascii "\r", ascii "\n\ndata:b"] =
    .ok (sseEvents (ascii "event: a\r\ndata: " ++ [0xC3, 0xA9] ++ ascii "\r\n\ndata:b")) :=
  (sseParsers_eq [ascii "event: a\r\nda", ascii "ta: " ++ [0xC3], 0xA9 :: ascii "\r",
    ascii "\n\ndata:b"] (by decide)).2.2.1

end Oxydra
