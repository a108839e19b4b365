import Oxydra.Provider.AnthropicStream

/-!
# An Anthropic message at once and as a stream

`streamsAlike_iff`: of a message in one response and of its stream the same response is made exactly
where the stop reason is not empty and the texts are held apart by one line break each
(`AnthropicMessage.OneLineApart`). In one response the texts are trimmed and joined with line
breaks, and of a stream they are put together as they are. Tool calls and usage are always the same.
-/

namespace Oxydra

open List Text ToolBlockEvent AnthropicStreamEvent

variable {parts : List (AnthropicBlock × List String)}

/-! ## The two responses -/

/-- The tool calls of a message. -/
def AnthropicMessage.toolCalls (message : AnthropicMessage) : List ToolCall :=
  message.content.filterMap AnthropicBlock.toolCall

/-- The text of a content, if there is any. -/
def contentOf (text : String) : Option String := if text = "" then none else some text

/-- Different texts, different contents. -/
theorem contentOf_inj {text text' : String} (h : contentOf text = contentOf text') :
    text = text' := by
  unfold contentOf at h
  split_ifs at h with hnone hnone' <;> simp_all

/-- The response of a message whose content is a text. -/
def AnthropicMessage.responseOf (message : AnthropicMessage) (text : String)
    (finish_reason : Option String) : Response where
  message := { role := .assistant, content := contentOf text, tool_calls := message.toolCalls }
  tool_calls := message.toolCalls
  finish_reason := finish_reason
  usage := message.usage.map AnthropicUsage.update

section

variable {json : JsonText}

/-- What the runtime reads of the fragments of an input. -/
theorem entryCalls_split (hempty : json.parse "\x7b\x7d" = .ok (.object []))
    (hblank : ∀ s, trim s = "" → ∀ v, json.parse s ≠ .ok v) {id name : String} {input : Value}
    {fragments : List String} (h : (AnthropicBlock.toolUse id name input).IsSplit json fragments) :
    entryCalls json id name
        { id := some id, name := some name, arguments := String.join fragments } =
      [{ id, name, arguments := input }] := by
  unfold entryCalls
  dsimp only
  rcases h with hparse | ⟨hnothing, rfl⟩
  · rw [if_neg fun hnothing => hblank _ hnothing _ hparse, hparse]
  · rw [if_pos hnothing, hempty]

/-- The calls that are built of the parts of a message. -/
theorem flatMap_entryCalls (hempty : json.parse "\x7b\x7d" = .ok (.object []))
    (hblank : ∀ s, trim s = "" → ∀ v, json.parse s ≠ .ok v)
    (hsplit : ∀ part ∈ parts, part.1.IsSplit json part.2) :
    ((parts.filterMap partEntry).flatMap fun entry =>
        entryCalls json (entry.id.getD "") (entry.name.getD "") entry) =
      (parts.map Prod.fst).filterMap AnthropicBlock.toolCall := by
  induction parts with
  | nil => rfl
  | cons part parts ih =>
    obtain ⟨hpart, hparts⟩ := forall_mem_cons.mp hsplit
    obtain ⟨block, fragments⟩ := part
    rw [map_cons]
    cases block with
    | text s => exact ih hparts
    | thinking s => exact ih hparts
    | toolUse id name input =>
      have hentry : partEntry (.toolUse id name input, fragments) =
          some { id := some id, name := some name, arguments := String.join fragments } := rfl
      rw [filterMap_cons_some hentry, flatMap_cons, ih hparts]
      exact congrArg (· ++ _) (entryCalls_split hempty hblank hpart)

/-- The runtime builds the tool calls of a message. -/
theorem build_toolsOf (hempty : json.parse "\x7b\x7d" = .ok (.object []))
    (hblank : ∀ s, trim s = "" → ∀ v, json.parse s ≠ .ok v) (provider : String)
    (hsplit : ∀ part ∈ parts, part.1.IsSplit json part.2) {message : AnthropicMessage}
    (hcontent : parts.map Prod.fst = message.content) :
    (accumulate (run (toolsOf parts)).1).build json provider = .ok message.toolCalls := by
  have hsnd : ((parts.filterMap partEntry).mapIdx Prod.mk).map Prod.snd =
      parts.filterMap partEntry := by
    refine ext_getElem? fun i => ?_
    rw [List.getElem?_map, List.getElem?_mapIdx, Option.map_map]
    exact Option.map_id'
  have hentries : ∀ c ∈ (parts.filterMap partEntry).mapIdx Prod.mk,
      c.2.id.isSome ∧ c.2.name.isSome := by
    intro c hc
    have hmem : c.2 ∈ parts.filterMap partEntry := hsnd ▸ mem_map_of_mem hc
    obtain ⟨⟨block, fragments⟩, -, hentry⟩ := mem_filterMap.mp hmem
    cases block with
    | text s => exact absurd hentry nofun
    | thinking s => exact absurd hentry nofun
    | toolUse id name input =>
      rw [← Option.some.inj hentry]
      exact ⟨rfl, rfl⟩
  rw [accumulate_toolsOf, build_eq_ok json provider hentries, AnthropicMessage.toolCalls,
    ← hcontent, ← flatMap_entryCalls hempty hblank hsplit]
  conv_rhs => rw [← hsnd, flatMap_map]

/-- The events of a message are events of blocks. -/
theorem isBlockEvent_events {event : AnthropicStreamEvent}
    (h : event ∈ (parts.mapIdx AnthropicBlock.events).flatten) : event.IsBlockEvent := by
  obtain ⟨events, hevents, hevent⟩ := mem_flatten.mp h
  obtain ⟨index, hindex, rfl⟩ := mem_mapIdx.mp hevents
  rcases mem_cons.mp hevent with rfl | hevent
  · trivial
  · obtain ⟨fragment, -, rfl⟩ := mem_map.mp hevent
    trivial

/-- The text of the events of a block is its text, if it is one. -/
theorem join_textOf_events {part : AnthropicBlock × List String}
    (h : part.1.IsSplit json part.2) (index : ℕ) :
    String.join ((AnthropicBlock.events index part).map AnthropicStreamEvent.textOf) =
      String.join ([part.1].filterMap AnthropicBlock.textOf) := by
  obtain ⟨block, fragments⟩ := part
  have hnone : ∀ fragments : List String, String.join (fragments.map fun _ => "") = "" := by
    intro fragments
    induction fragments with
    | nil => rfl
    | cons fragment fragments ih =>
      rw [map_cons, String.join_cons, ih]
      rfl
  unfold AnthropicBlock.events
  rw [map_cons, map_map, String.join_cons]
  cases block with
  | text s =>
    have hfragments : String.join fragments = s := h
    have htexts : (fragments.map fun fragment =>
        AnthropicStreamEvent.textOf
          (.contentBlockDelta index (AnthropicBlock.delta fragment (.text s)))) = fragments :=
      map_id' fragments
    refine (String.empty_append).trans ((congrArg String.join htexts).trans ?_)
    rw [hfragments]
    exact (String.join_cons.trans String.append_empty).symm
  | toolUse id name input => exact (String.empty_append).trans (hnone fragments)
  | thinking s => exact (String.empty_append).trans (hnone fragments)

/-- The text of the events of a message is its texts put together. -/
theorem join_textOf_message (h : ∀ part ∈ parts, part.1.IsSplit json part.2) :
    String.join (((parts.mapIdx AnthropicBlock.events).flatten).map AnthropicStreamEvent.textOf) =
      String.join ((parts.map Prod.fst).filterMap AnthropicBlock.textOf) := by
  induction parts using List.reverseRecOn with
  | nil => rfl
  | append_singleton parts part ih =>
    obtain ⟨hparts, hpart⟩ := forall_mem_append.mp h
    rw [mapIdx_concat, flatten_append, flatten_singleton, map_append,
      String.join_append, ih hparts, join_textOf_events (hpart part (mem_singleton_self _)),
      map_append, filterMap_append, String.join_append, map_singleton]

/-- What is made of a stream of a message. -/
theorem streamResponse_message (hempty : json.parse "\x7b\x7d" = .ok (.object []))
    (hblank : ∀ s, trim s = "" → ∀ v, json.parse s ≠ .ok v) (provider : String)
    {message : AnthropicMessage} {first_output : Option ℕ} {events : List AnthropicStreamEvent}
    (h : message.IsStreamed json parts first_output events) :
    streamResponse json provider (anthropicStream provider {} (events.map .ok)) =
      .ok (message.responseOf (String.join message.texts)
        (message.stop_reason.filter (· ≠ ""))) := by
  obtain ⟨hcontent, hsplit, hsent⟩ := h
  have htexts := join_textOf_message hsplit
  rw [hcontent] at htexts
  rw [anthropicStream_filter, hsent]
  unfold streamResponse
  rw [collect_message fun event => isBlockEvent_events, htexts]
  have hbuild := build_toolsOf hempty hblank provider hsplit hcontent
  unfold toolsOf at hbuild
  dsimp only [collectedOf, Bind.bind, Except.bind]
  rw [hbuild]
  rfl

/-- A block adds its text, trimmed and if it is not blank, or its tool call. -/
theorem normalizeBlock_response (provider : String) (done : List String × List ToolCall)
    (block : AnthropicBlock) :
    normalizeBlock provider done block.response =
      .ok (done.1 ++ ([block].filterMap AnthropicBlock.textOf).filterMap nonEmpty,
        done.2 ++ [block].filterMap AnthropicBlock.toolCall) := by
  cases block with
  | text s =>
    have htext : [AnthropicBlock.text s].filterMap AnthropicBlock.textOf = [s] := rfl
    have hcall : [AnthropicBlock.text s].filterMap AnthropicBlock.toolCall = [] := rfl
    rw [htext, hcall, append_nil]
    unfold normalizeBlock AnthropicBlock.response
    rw [Option.bind_some]
    cases hs : nonEmpty s with
    | none =>
      rw [filterMap_cons_none hs, filterMap_nil, append_nil]
      rfl
    | some text =>
      rw [filterMap_cons_some hs, filterMap_nil]
      rfl
  | toolUse id name input => exact congrArg Except.ok (Prod.ext (append_nil _).symm rfl)
  | thinking s =>
    exact congrArg Except.ok (Prod.ext (append_nil _).symm (append_nil _).symm)

/-- The loop over the blocks of a message. -/
theorem foldlM_normalizeBlock (provider : String) (done : List String × List ToolCall)
    (blocks : List AnthropicBlock) :
    (blocks.map AnthropicBlock.response).foldlM (normalizeBlock provider) done =
      .ok (done.1 ++ (blocks.filterMap AnthropicBlock.textOf).filterMap nonEmpty,
        done.2 ++ blocks.filterMap AnthropicBlock.toolCall) := by
  induction blocks generalizing done with
  | nil => simp [Pure.pure, Except.pure]
  | cons block blocks ih =>
    rw [map_cons, foldlM_cons, normalizeBlock_response]
    refine (ih _).trans ?_
    have hcons : block :: blocks = [block] ++ blocks := rfl
    rw [hcons, filterMap_append, filterMap_append, filterMap_append,
      append_assoc, append_assoc]

/-- `trim` strips white space. -/
theorem toList_trim (s : String) : (trim s).toList = StrippedTexts.strip isWhitespace s.toList := by
  unfold trim trimEnd trimStart
  rw [String.toList_ofList, String.toList_ofList]
  rfl

/-- The texts that one response keeps are the words of the texts. -/
theorem map_toList_nonEmpty (texts : List String) :
    (texts.filterMap nonEmpty).map String.toList =
      StrippedTexts.words isWhitespace (texts.map String.toList) := by
  induction texts with
  | nil => rfl
  | cons s texts ih =>
    have hblank : s.toList.all isWhitespace = true ↔ trim s = "" := by
      rw [← StrippedTexts.strip_eq_nil_iff, ← toList_trim, String.toList_eq_nil_iff]
    rw [map_cons, StrippedTexts.words_cons, ← toList_trim, ← ih]
    by_cases hs : trim s = ""
    · have hnone : nonEmpty s = none := by
        unfold nonEmpty
        exact if_pos hs
      rw [if_pos (hblank.mpr hs), filterMap_cons_none hnone]
    · have hsome : nonEmpty s = some (trim s) := by
        unfold nonEmpty
        exact if_neg hs
      rw [if_neg (mt hblank.mp hs), filterMap_cons_some hsome, map_cons]

/-- Texts that are not empty, joined, are the content of a message, and without a text it has
none. -/
theorem contentOf_intercalate (texts : List String) :
    (if texts.filterMap nonEmpty = [] then none
      else some (String.intercalate "\n" (texts.filterMap nonEmpty))) =
      contentOf (String.intercalate "\n" (texts.filterMap nonEmpty)) := by
  have hnil := @StrippedTexts.joined_eq_nil_iff _ isWhitespace ['\n']
    (texts.map String.toList)
  rw [← map_toList_nonEmpty, map_eq_nil_iff] at hnil
  have hjoined : (String.intercalate "\n" (texts.filterMap nonEmpty)).toList =
      ['\n'].intercalate ((texts.filterMap nonEmpty).map String.toList) := String.toList_intercalate
  rw [← hjoined, String.toList_eq_nil_iff] at hnil
  unfold contentOf
  simp only [hnil]

/-- What is made of a message in one response. -/
theorem normalizeAnthropicResponse_message (provider : String) (message : AnthropicMessage) :
    normalizeAnthropicResponse message.response provider =
      .ok (message.responseOf (String.intercalate "\n" (message.texts.filterMap nonEmpty))
        message.stop_reason) := by
  unfold normalizeAnthropicResponse AnthropicMessage.response
  rw [foldlM_normalizeBlock]
  unfold AnthropicMessage.responseOf
  rw [← contentOf_intercalate]
  rfl

end

/-- What is made of a message and of its stream is the same exactly where the stop reason is not
empty and the texts are held apart by one line break each. -/
theorem streamsAlike_iff {json : JsonText} (hempty : json.parse "\x7b\x7d" = .ok (.object []))
    (hblank : ∀ s, trim s = "" → ∀ v, json.parse s ≠ .ok v) (provider : String)
    {message : AnthropicMessage} {parts : List (AnthropicBlock × List String)}
    {first_output : Option ℕ} {events : List AnthropicStreamEvent}
    (h : message.IsStreamed json parts first_output events) :
    streamResponse json provider (anthropicStream provider {} (events.map .ok)) =
        (normalizeAnthropicResponse message.response provider).mapError .provider ↔
      message.OneLineApart ∧ message.stop_reason ≠ some "" := by
  have htexts : String.join message.texts =
      String.intercalate "\n" (message.texts.filterMap nonEmpty) ↔ message.OneLineApart := by
    have hspace : ∀ c ∈ ['\n'], isWhitespace c = true := by
      intro c hc
      rw [mem_singleton.mp hc]
      decide
    rw [← String.toList_inj, String.toList_join, String.toList_intercalate, map_toList_nonEmpty,
      flatMap_def]
    exact StrippedTexts.flatten_eq_joined_iff hspace _
  have hreason : message.stop_reason.filter (· ≠ "") = message.stop_reason ↔
      message.stop_reason ≠ some "" := by
    cases message.stop_reason with
    | none => simp
    | some reason => by_cases hreason : reason = "" <;> simp [hreason]
  rw [streamResponse_message hempty hblank provider h, normalizeAnthropicResponse_message,
    ← htexts, ← hreason]
  constructor
  · intro heq
    have hresponse := Except.ok.inj heq
    exact ⟨contentOf_inj (congrArg (fun r => r.message.content) hresponse),
      congrArg Response.finish_reason hresponse⟩
  · rintro ⟨htext, hfinish⟩
    rw [htext, hfinish]
    rfl

/-! ### A reader of JSON -/

/-- A digit is no white space. -/
theorem isWhitespace_of_isDigit {c : Char} (h : c.isDigit = true) : isWhitespace c = false := by
  have hbounds : 48 ≤ c.toNat ∧ c.toNat ≤ 57 := by
    unfold Char.isDigit at h
    rw [Bool.and_eq_true, decide_eq_true_iff, decide_eq_true_iff] at h
    exact ⟨UInt32.le_iff_toNat_le.mp h.1, UInt32.le_iff_toNat_le.mp h.2⟩
  unfold isWhitespace
  simp only [Bool.or_eq_false_iff, Bool.and_eq_false_iff, decide_eq_false_iff_not,
    beq_eq_false_iff_ne]
  omega

/-- White space starts no value. -/
theorem Json.readValue_blank (fuel : ℕ) {cs : List Char} (h : ∀ c ∈ cs, isWhitespace c = true) :
    Json.readValue Fields.insert fuel cs = none := by
  cases fuel with
  | zero => rfl
  | succ fuel =>
    have hrest : ∀ c ∈ Json.skipSpace cs, isWhitespace c = true := fun c hc =>
      h c ((dropWhile_sublist _).subset hc)
    have hfirst {c : Char} {rest : List Char} (hcs : Json.skipSpace cs = c :: rest)
        (hc : isWhitespace c = false) : False := by
      rw [hrest c (hcs ▸ mem_cons_self)] at hc
      exact absurd hc (by decide)
    unfold Json.readValue
    split
    case h_7 =>
      have hdigits : Json.readMagnitude (Json.skipSpace cs) = none := by
        have hnone : (Json.skipSpace cs).takeWhile Char.isDigit = [] := by
          cases hcs : Json.skipSpace cs with
          | nil => rfl
          | cons c rest =>
            refine takeWhile_cons_of_neg fun hdigit => hfirst hcs ?_
            exact isWhitespace_of_isDigit hdigit
        unfold Json.readMagnitude Json.readDigits
        rw [hnone]
        rfl
      unfold Json.readNumber
      split
      case h_1 hcs => exact (hfirst hcs (by decide)).elim
      case h_2 => rw [hdigits]; rfl
    all_goals exact (hfirst ‹_› (by decide)).elim

/-- A blank text is no JSON text. -/
theorem Json.parse_blank {s : String} (h : trim s = "") : Json.parse s.toList = none := by
  have hblank : s.toList.all isWhitespace = true := by
    rw [← StrippedTexts.strip_eq_nil_iff, ← toList_trim, h]
    rfl
  unfold Json.parse Json.parseWith
  rw [Json.readValue_blank _ (all_eq_true.mp hblank)]

/-- A blank text is no JSON text. -/
theorem readerJson_blank (s : String) (h : trim s = "") (v : Value) :
    readerJson.parse s ≠ .ok v := by
  unfold readerJson
  dsimp only
  rw [Json.parse_blank h]
  exact nofun

/-- A thought, a text and a call of `file_read`, with fragments of them. -/
def fileReadParts : List (AnthropicBlock × List String) :=
  [(.thinking "The file is small.", ["The file", " is small."]),
    (.text "Let me look.", ["Let me ", "look."]),
    (.toolUse "call_1" "file_read" (.object [("path", .string "Cargo.toml")]),
      ["", "\x7b\"path\":", "\"Cargo.toml\"\x7d"])]

def fileReadMessage : AnthropicMessage where
  content := fileReadParts.map Prod.fst
  stop_reason := some "tool_use"
  usage := some { input_tokens := some 5, output_tokens := some 2 }

/-- The stream of the fragments, with a ping. -/
def fileReadEvents : List AnthropicStreamEvent :=
  .messageStart (some { input_tokens := some 5, output_tokens := some 1 }) :: .ignored ::
    ((fileReadParts.mapIdx AnthropicBlock.events).flatten ++
      [.messageDelta (some "tool_use") (some (some 2)), .messageStop])

/-- A call and its text, streamed or not. -/
theorem fileRead_alike :
    streamResponse readerJson "anthropic"
        (anthropicStream "anthropic" {} (fileReadEvents.map .ok)) =
      (normalizeAnthropicResponse fileReadMessage.response "anthropic").mapError .provider := by
  have hstream : fileReadMessage.IsStreamed readerJson fileReadParts (some 1) fileReadEvents := by
    refine ⟨rfl, forall_mem_cons.mpr ⟨rfl, forall_mem_cons.mpr ⟨rfl,
      forall_mem_cons.mpr ⟨.inl ?_, nofun⟩⟩⟩, by decide⟩
    decide +kernel
  exact (streamsAlike_iff (by rfl) readerJson_blank "anthropic" hstream).mpr
    ⟨by decide, by decide⟩

/-- Two texts in one sentence. -/
def greetingParts : List (AnthropicBlock × List String) :=
  [(.text "Hello, ", ["Hel", "lo, "]), (.text "world.", ["world."])]

def greetingMessage : AnthropicMessage where
  content := greetingParts.map Prod.fst
  stop_reason := some "end_turn"

/-- The stream of the two texts. -/
def greetingEvents : List AnthropicStreamEvent :=
  .messageStart none :: ((greetingParts.mapIdx AnthropicBlock.events).flatten ++
    [.messageDelta (some "end_turn") none, .messageStop])

/-- In one response the sentence is broken into two lines. -/
theorem greeting_broken :
    greetingMessage.IsStreamed readerJson greetingParts none greetingEvents ∧
      streamResponse readerJson "anthropic"
          (anthropicStream "anthropic" {} (greetingEvents.map .ok)) ≠
        (normalizeAnthropicResponse greetingMessage.response "anthropic").mapError .provider := by
  refine ⟨⟨rfl, ?_, by decide⟩, fun heq => ?_⟩
  · exact forall_mem_cons.mpr ⟨rfl, forall_mem_cons.mpr ⟨rfl, nofun⟩⟩
  · have hcontent := congrArg (fun made => made.toOption.map fun r => r.message.content) heq
    exact absurd hcontent (by decide +kernel)

end Oxydra
