import Oxydra.Library.StrippedTexts
import Oxydra.Provider.Anthropic

/-!
# What is collected of an Anthropic message

A message of the Messages API is sent in one response (`AnthropicMessage.response`) or as a stream
of events (`AnthropicMessage.IsStreamed`), with each content block cut into fragments in any way.

Of the stream the runtime collects the texts put together, the stop reason if it is not empty, the
usage (`collect_message`), and an entry for each tool call, with its fragments
(`accumulate_toolsOf`).
-/

namespace Oxydra

open Option List Text ToolBlockEvent

/-! ## Messages -/

/-- A content block of a message. -/
inductive AnthropicBlock where
  | text (text : String)
  | toolUse (id name : String) (input : Value)
  | thinking (thinking : String)
  deriving DecidableEq, Repr

/-- A message of the assistant. -/
structure AnthropicMessage where
  content : List AnthropicBlock
  stop_reason : Option String := none
  usage : Option AnthropicUsage := none
  deriving DecidableEq, Repr

namespace AnthropicBlock

/-- A block in one response. -/
def response : AnthropicBlock → AnthropicResponseContentBlock
  | .text s => { kind := "text", text := some s }
  | .toolUse id name input =>
    { kind := "tool_use", id := some id, name := some name, input := some input }
  | .thinking _ => { kind := "thinking" }

/-- A fragment of a block in a stream. -/
def delta (fragment : String) : AnthropicBlock → AnthropicDelta
  | .text _ => { kind := "text_delta", text := some fragment }
  | .toolUse _ _ _ => { kind := "input_json_delta", partial_json := some fragment }
  | .thinking _ => { kind := "thinking_delta", thinking := some fragment }

/-- What the fragments of a block are when they are put together. The input of a tool is a JSON
text, and nothing at all for an empty object. -/
def IsSplit (json : JsonText) (fragments : List String) : AnthropicBlock → Prop
  | .text s => String.join fragments = s
  | .toolUse _ _ input => json.parse (String.join fragments) = .ok input ∨
      trim (String.join fragments) = "" ∧ input = .object []
  | .thinking s => String.join fragments = s

/-- The events of a block at an index, with these fragments. -/
def events (index : ℕ) (part : AnthropicBlock × List String) : List AnthropicStreamEvent :=
  .contentBlockStart index part.1.response.kind part.1.response.id part.1.response.name ::
    part.2.map fun fragment => .contentBlockDelta index (part.1.delta fragment)

/-- The text of a block, if it is one. -/
def textOf : AnthropicBlock → Option String
  | .text s => some s
  | _ => none

/-- The tool call of a block, if it is one. -/
def toolCall : AnthropicBlock → Option ToolCall
  | .toolUse id name input => some { id, name, arguments := input }
  | _ => none

end AnthropicBlock

namespace AnthropicMessage

/-- A message in one response. -/
def response (message : AnthropicMessage) : AnthropicMessagesResponse where
  role := "assistant"
  content := message.content.map AnthropicBlock.response
  stop_reason := message.stop_reason
  usage := message.usage

/-- The texts of a message. -/
def texts (message : AnthropicMessage) : List String :=
  message.content.filterMap AnthropicBlock.textOf

/-- A message as a stream, each block with its fragments. The prompt tokens are in the first event,
whatever it says of the output tokens, and events that are ignored stand anywhere. -/
structure IsStreamed (json : JsonText) (message : AnthropicMessage)
    (parts : List (AnthropicBlock × List String)) (first_output : Option ℕ)
    (events : List AnthropicStreamEvent) : Prop where
  content : parts.map Prod.fst = message.content
  split : ∀ part ∈ parts, part.1.IsSplit json part.2
  sent : events.filter (· ≠ .ignored) =
    .messageStart (message.usage.map fun usage => { usage with output_tokens := first_output }) ::
      ((parts.mapIdx AnthropicBlock.events).flatten ++
        [.messageDelta message.stop_reason (message.usage.map AnthropicUsage.output_tokens),
          .messageStop])

/-- One line break stands between two texts that are not blank, and no white space at their ends. -/
def OneLineApart (message : AnthropicMessage) : Prop :=
  StrippedTexts.Apart isWhitespace ['\n'] true [] (message.texts.map String.toList)

instance (message : AnthropicMessage) : Decidable message.OneLineApart :=
  inferInstanceAs (Decidable (StrippedTexts.Apart isWhitespace ['\n'] true []
    (message.texts.map String.toList)))

end AnthropicMessage

/-! ## Collecting a stream -/

namespace AnthropicStreamEvent

/-- The events of blocks. -/
def IsBlockEvent : AnthropicStreamEvent → Prop
  | contentBlockStart _ _ _ _ | contentBlockDelta _ _ => True
  | _ => False

/-- The call of the accumulator that an event of a block makes. -/
def toolEvent : AnthropicStreamEvent → Option ToolBlockEvent
  | contentBlockStart index kind id name =>
    if kind = "tool_use" then some (startTool index id name) else none
  | contentBlockDelta index delta =>
    if delta.kind = "input_json_delta" then delta.partial_json.map (appendJson index) else none
  | _ => none

/-- The text that an event of a block brings. -/
def textOf : AnthropicStreamEvent → String
  | contentBlockDelta _ delta => if delta.kind = "text_delta" then delta.text.getD "" else ""
  | _ => ""

end AnthropicStreamEvent

open AnthropicStreamEvent

/-- Events that are ignored may be left out. -/
theorem anthropicStream_filter (provider : String) (s : AnthropicStreamState)
    (events : List AnthropicStreamEvent) :
    anthropicStream provider s (events.map .ok) =
      anthropicStream provider s ((events.filter (· ≠ .ignored)).map .ok) := by
  induction events generalizing s with
  | nil => rfl
  | cons event events ih =>
    by_cases hignored : event = .ignored
    · subst hignored
      exact ih s
    · rw [filter_cons_of_pos (by simpa using hignored), map_cons, map_cons,
        anthropicStream, anthropicStream]
      cases parseAnthropicStreamPayload provider s (.ok event) with
      | mk action s' =>
        cases action with
        | items items => exact congrArg _ (ih s')
        | done => rfl
        | error error => rfl

section Collect

variable (provider : String) (tools : List ToolBlockEvent) (text : String)
  (finish_reason : Option String) (usage : Option UsageUpdate) (input_tokens : Option ℕ)

/-- What is collected after some calls of the accumulator and some text. -/
def collectedOf : Collected where
  text_buffer := text
  tool_calls := accumulate (ToolBlockEvent.run tools).1
  finish_reason := finish_reason
  usage := usage

/-- The state of the stream after some calls of the accumulator. -/
def streamStateOf : AnthropicStreamState where
  accumulator := (ToolBlockEvent.run tools).2
  input_tokens := input_tokens

variable {provider tools text finish_reason usage input_tokens}

/-- A call of the accumulator is one delta. -/
theorem collect_toolEvent (event : ToolBlockEvent) (items : List ProviderItem) :
    collectStream (collectedOf tools text finish_reason usage)
        (.ok (.toolCallDelta (event.call (ToolBlockEvent.run tools).2).1) :: items) =
      collectStream (collectedOf (tools ++ [event]) text finish_reason usage) items := by
  unfold collectedOf
  rw [run_concat, accumulate_concat]
  rfl

/-- What is collected of an item of a text, if it is not empty. -/
theorem collect_text (text' : Option String) (items : List ProviderItem) :
    collectStream (collectedOf tools text finish_reason usage)
        (((text'.filter (· ≠ "")).toList.map StreamItem.text).map .ok ++ items) =
      collectStream (collectedOf tools (text ++ text'.getD "") finish_reason usage) items := by
  cases text' with
  | none => rw [getD_none, String.append_empty]; rfl
  | some text' =>
    by_cases hempty : text' = ""
    · subst hempty
      rw [getD_some, String.append_empty]
      rfl
    · rw [filter_some_pos (by simpa using hempty)]
      rfl

/-- The thinking of a model is not collected. -/
theorem collect_thinking (thinking : Option String) (items : List ProviderItem) :
    collectStream (collectedOf tools text finish_reason usage)
        (((thinking.filter (· ≠ "")).toList.map StreamItem.reasoningDelta).map .ok ++ items) =
      collectStream (collectedOf tools text finish_reason usage) items := by
  cases thinking.filter (· ≠ "") with
  | none => rfl
  | some thinking => rfl

/-- The items of a delta bring its text and its call. -/
theorem collect_delta (index : ℕ) (delta : AnthropicDelta) :
    ∃ items, parseContentBlockDelta (streamStateOf tools input_tokens) index delta =
        (items, streamStateOf (tools ++ (toolEvent (.contentBlockDelta index delta)).toList)
          input_tokens) ∧
      ∀ rest, collectStream (collectedOf tools text finish_reason usage) (items.map .ok ++ rest) =
        collectStream (collectedOf (tools ++ (toolEvent (.contentBlockDelta index delta)).toList)
          (text ++ AnthropicStreamEvent.textOf (.contentBlockDelta index delta)) finish_reason
          usage) rest := by
  obtain ⟨kind, text', partial_json, thinking⟩ := delta
  unfold parseContentBlockDelta toolEvent AnthropicStreamEvent.textOf
  dsimp only
  split
  case h_1 =>
    refine ⟨(text'.filter (· ≠ "")).toList.map .text, by simp, fun rest => ?_⟩
    rw [if_neg (by decide), if_pos rfl, toList_none, append_nil]
    exact collect_text text' rest
  case h_2 =>
    rw [if_pos rfl, if_neg (by decide), String.append_empty]
    cases partial_json with
    | none =>
      rw [map_none, toList_none, append_nil]
      exact ⟨[], rfl, fun rest => rfl⟩
    | some partial_json =>
      refine ⟨[.toolCallDelta ((appendJson index partial_json).call (run tools).2).1],
        Prod.ext rfl ?_, fun rest => collect_toolEvent _ rest⟩
      rw [map_some, toList_some, streamStateOf, streamStateOf, run_concat]
      rfl
  case h_3 =>
    refine ⟨(thinking.filter (· ≠ "")).toList.map .reasoningDelta, by simp, fun rest => ?_⟩
    rw [if_neg (by decide), if_neg (by decide), toList_none, append_nil,
      String.append_empty]
    exact collect_thinking thinking rest
  case h_4 htext hjson _ =>
    rw [if_neg hjson, if_neg htext, toList_none, append_nil, String.append_empty]
    exact ⟨[], rfl, fun rest => rfl⟩

/-- An event of a block brings its text and its call. -/
theorem collect_blockEvent {event : AnthropicStreamEvent} (hblock : event.IsBlockEvent)
    (payloads : List (Except String AnthropicStreamEvent)) :
    collectStream (collectedOf tools text finish_reason usage)
        (anthropicStream provider (streamStateOf tools input_tokens) (.ok event :: payloads)) =
      collectStream
        (collectedOf (tools ++ event.toolEvent.toList) (text ++ event.textOf) finish_reason usage)
        (anthropicStream provider (streamStateOf (tools ++ event.toolEvent.toList) input_tokens)
          payloads) := by
  cases event with
  | contentBlockStart index kind id name =>
    rw [show AnthropicStreamEvent.textOf (.contentBlockStart index kind id name) = "" from rfl,
      String.append_empty,
      toolEvent]
    by_cases hkind : kind = "tool_use"
    · subst hkind
      rw [if_pos rfl, toList_some, ← collect_toolEvent, streamStateOf, streamStateOf,
        run_concat]
      rfl
    · have hparse : parseAnthropicStreamPayload provider (streamStateOf tools input_tokens)
          (.ok (.contentBlockStart index kind id name)) =
            (.items [], streamStateOf tools input_tokens) := by
        unfold parseAnthropicStreamPayload
        dsimp only
        split
        · exact absurd rfl hkind
        · rfl
      rw [if_neg hkind, toList_none, append_nil, anthropicStream, hparse]
      rfl
  | contentBlockDelta index delta =>
    obtain ⟨items, hparse, hcollect⟩ :=
      @collect_delta tools text finish_reason usage input_tokens index delta
    rw [anthropicStream, parseAnthropicStreamPayload, hparse]
    exact hcollect _
  | messageStart | messageDelta | messageStop | error | ignored => exact hblock.elim

/-- The events of blocks bring their texts and their calls, one after the other. -/
theorem collect_blockEvents {events : List AnthropicStreamEvent}
    (hblocks : ∀ event ∈ events, event.IsBlockEvent)
    (payloads : List (Except String AnthropicStreamEvent)) :
    collectStream (collectedOf tools text finish_reason usage)
        (anthropicStream provider (streamStateOf tools input_tokens)
          (events.map .ok ++ payloads)) =
      collectStream
        (collectedOf (tools ++ events.filterMap toolEvent)
          (text ++ String.join (events.map AnthropicStreamEvent.textOf)) finish_reason usage)
        (anthropicStream provider (streamStateOf (tools ++ events.filterMap toolEvent) input_tokens)
          payloads) := by
  induction events generalizing tools text with
  | nil => simp [String.join]
  | cons event events ih =>
    obtain ⟨hblock, hrest⟩ := forall_mem_cons.mp hblocks
    rw [map_cons, cons_append, collect_blockEvent hblock, ih hrest]
    have htools : event.toolEvent.toList ++ events.filterMap toolEvent =
        (event :: events).filterMap toolEvent := by
      cases htool : event.toolEvent <;> simp [htool]
    rw [append_assoc, htools, String.append_assoc, ← String.join_cons, ← map_cons]

/-- The end of a stream gives the stop reason, if it is not empty, and completes the usage. -/
theorem collect_messageDelta (stop_reason : Option String) (usage : Option AnthropicUsage) :
    collectStream (collectedOf tools text none ((usage.bind AnthropicUsage.input_tokens).map
          fun prompt => { prompt_tokens := some prompt }))
        (anthropicStream provider
          (streamStateOf tools (usage.bind AnthropicUsage.input_tokens))
          [.ok (.messageDelta stop_reason (usage.map AnthropicUsage.output_tokens)),
            .ok .messageStop]) =
      .ok (collectedOf tools text (stop_reason.filter (· ≠ ""))
        (usage.map AnthropicUsage.update)) := by
  have hfinish : ∀ (update : Option UsageUpdate) (items : List ProviderItem),
      collectStream (collectedOf tools text none update)
          (((stop_reason.filter (· ≠ "")).toList.map StreamItem.finishReason).map .ok ++ items) =
        collectStream (collectedOf tools text (stop_reason.filter (· ≠ "")) update) items := by
    intro update items
    cases stop_reason.filter (· ≠ "") with
    | none => rfl
    | some reason => rfl
  have hdone : ∀ s, anthropicStream provider s [.ok .messageStop] = [] := fun s => rfl
  rw [anthropicStream, parseAnthropicStreamPayload]
  dsimp only
  rw [hdone, append_nil, parseMessageDelta, map_append, hfinish]
  cases usage with
  | none => rfl
  | some usage =>
    obtain ⟨input, output⟩ := usage
    cases input <;> cases output <;> rfl

/-- What is collected of the whole stream of a message. -/
theorem collect_message {events : List AnthropicStreamEvent}
    (hblocks : ∀ event ∈ events, event.IsBlockEvent) (stop_reason : Option String)
    (usage : Option AnthropicUsage) (first_output : Option ℕ) :
    collectStream {} (anthropicStream provider {}
        ((.messageStart (usage.map fun usage => { usage with output_tokens := first_output }) ::
          (events ++ [.messageDelta stop_reason (usage.map AnthropicUsage.output_tokens),
            .messageStop])).map .ok)) =
      .ok (collectedOf (events.filterMap toolEvent)
        (String.join (events.map AnthropicStreamEvent.textOf))
        (stop_reason.filter (· ≠ "")) (usage.map AnthropicUsage.update)) := by
  have hstart : ∀ payloads, collectStream {} (anthropicStream provider {} (.ok (.messageStart
        (usage.map fun usage => { usage with output_tokens := first_output })) :: payloads)) =
      collectStream (collectedOf [] "" none ((usage.bind AnthropicUsage.input_tokens).map
          fun prompt => { prompt_tokens := some prompt }))
        (anthropicStream provider (streamStateOf [] (usage.bind AnthropicUsage.input_tokens))
          payloads) := by
    intro payloads
    cases usage with
    | none => rfl
    | some usage =>
      obtain ⟨input, output⟩ := usage
      cases input with
      | none => rfl
      | some input => rfl
  rw [map_cons, map_append, hstart, collect_blockEvents hblocks, String.empty_append,
    nil_append]
  exact collect_messageDelta stop_reason usage

end Collect

/-! ## The tool calls of a stream -/

namespace ToolBlockEvent

variable {tools : List ToolBlockEvent}

/-- A last event that starts no block late. -/
theorem StartsFirst.concat (h : StartsFirst tools) {event : ToolBlockEvent}
    (hevent : ∀ b id name, event = startTool b id name → b ∉ tools.map block) :
    StartsFirst (tools ++ [event]) := by
  intro before b id name after heq
  rcases eq_nil_or_concat after with rfl | ⟨after, last, rfl⟩
  · obtain ⟨rfl, hlast⟩ := append_inj' heq rfl
    exact hevent b id name (List.cons.inj hlast).1
  · rw [concat_eq_append, ← cons_append, ← append_assoc] at heq
    obtain ⟨rfl, -⟩ := append_inj' heq rfl
    exact h before b id name after rfl

theorem startsFirst_nil : StartsFirst [] :=
  fun _ _ _ _ _ heq => absurd heq.symm (by simp)

/-- The start of a block that is new and its fragments. -/
theorem start_fragments {b : ℕ} (hnew : b ∉ blocks tools) (id name : Option String)
    (fragments : List String) (h : StartsFirst tools) :
    let tools' := tools ++ startTool b id name :: fragments.map (appendJson b)
    StartsFirst tools' ∧ blocks tools' = blocks tools ++ [b] ∧
      (∀ b' ≠ b, assembled tools' b' = assembled tools b') ∧
      assembled tools' b = { id, name, arguments := String.join fragments } := by
  induction fragments using List.reverseRecOn with
  | nil =>
    refine ⟨h.concat fun b' id' name' heq hmem => ?_, ?_, fun b' hne => ?_, ?_⟩
    · obtain ⟨rfl, -⟩ := startTool.inj heq
      exact hnew (mem_eraseDups.mpr hmem)
    · exact (blocks_concat _ _).trans (if_neg hnew)
    · exact assembled_concat_of_ne (Ne.symm hne)
    · exact assembled_start id name hnew
  | append_singleton fragments fragment ih =>
    obtain ⟨hstarts, hblocks, hothers, hown⟩ := ih
    have hsplit : tools ++ startTool b id name :: (fragments ++ [fragment]).map (appendJson b) =
        tools ++ startTool b id name :: fragments.map (appendJson b) ++
          [appendJson b fragment] := by
      simp
    intro tools'
    have htools : tools' = _ := hsplit
    rw [htools]
    refine ⟨hstarts.concat nofun, ?_, fun b' hne => ?_, ?_⟩
    · rw [blocks_concat, hblocks]
      exact if_pos (mem_append_right _ (mem_singleton_self b))
    · rw [assembled_concat_of_ne (Ne.symm hne), hothers b' hne]
    · rw [assembled_append, hown, String.join_append]
      simp [String.join]

end ToolBlockEvent

/-- The entry of a tool call that is sent in fragments. -/
def partEntry : AnthropicBlock × List String → Option ToolCallAccumulatorEntry
  | (.toolUse id name _, fragments) =>
    some { id := some id, name := some name, arguments := String.join fragments }
  | _ => none

/-- The calls of the accumulator that the parts of a message make. -/
def toolsOf (parts : List (AnthropicBlock × List String)) : List ToolBlockEvent :=
  (parts.mapIdx AnthropicBlock.events).flatten.filterMap toolEvent

/-- A block makes calls of the accumulator only if it is a tool call. -/
theorem filterMap_toolEvent_events (index : ℕ) (part : AnthropicBlock × List String) :
    (AnthropicBlock.events index part).filterMap toolEvent =
      match part with
      | (.toolUse id name _, fragments) =>
        startTool index (some id) (some name) :: fragments.map (appendJson index)
      | _ => [] := by
  obtain ⟨block, fragments⟩ := part
  unfold AnthropicBlock.events
  cases block with
  | text s =>
    rw [filterMap_cons_none rfl, filterMap_map]
    exact filterMap_eq_nil_iff.mpr fun fragment _ => rfl
  | toolUse id name input =>
    have hstart : toolEvent (.contentBlockStart index "tool_use" (some id) (some name)) =
        some (startTool index (some id) (some name)) := rfl
    refine (filterMap_cons_some hstart).trans (congrArg _ ?_)
    rw [filterMap_map]
    exact congrFun filterMap_eq_map fragments
  | thinking s =>
    rw [filterMap_cons_none rfl, filterMap_map]
    exact filterMap_eq_nil_iff.mpr fun fragment _ => rfl

theorem toolsOf_concat (parts : List (AnthropicBlock × List String))
    (part : AnthropicBlock × List String) :
    toolsOf (parts ++ [part]) =
      toolsOf parts ++ (AnthropicBlock.events parts.length part).filterMap toolEvent := by
  unfold toolsOf
  rw [mapIdx_concat, flatten_append, filterMap_append, flatten_singleton]

/-- The tool calls of a message are started one after the other, each at the index of its block, and
of each its fragments are assembled. -/
theorem toolsOf_spec (parts : List (AnthropicBlock × List String)) :
    StartsFirst (toolsOf parts) ∧ (∀ b ∈ ToolBlockEvent.blocks (toolsOf parts), b < parts.length) ∧
      (ToolBlockEvent.blocks (toolsOf parts)).map (assembled (toolsOf parts)) =
        parts.filterMap partEntry := by
  induction parts using List.reverseRecOn with
  | nil => exact ⟨startsFirst_nil, nofun, rfl⟩
  | append_singleton parts part ih =>
    obtain ⟨hstarts, hbelow, hassembled⟩ := ih
    have hlength : (parts ++ [part]).length = parts.length + 1 := length_append
    rw [toolsOf_concat, filterMap_toolEvent_events, filterMap_append, hlength]
    have hother (hnone : partEntry part = none) : StartsFirst (toolsOf parts ++ []) ∧
        (∀ b ∈ ToolBlockEvent.blocks (toolsOf parts ++ []), b < parts.length + 1) ∧
        (ToolBlockEvent.blocks (toolsOf parts ++ [])).map (assembled (toolsOf parts ++ [])) =
          parts.filterMap partEntry ++ [part].filterMap partEntry := by
      rw [append_nil, filterMap_cons_none hnone, filterMap_nil, append_nil]
      exact ⟨hstarts, fun b hb => Nat.lt_succ_of_lt (hbelow b hb), hassembled⟩
    obtain ⟨block, fragments⟩ := part
    cases block with
    | text s => exact hother rfl
    | thinking s => exact hother rfl
    | toolUse id name input =>
      have hnew : parts.length ∉ ToolBlockEvent.blocks (toolsOf parts) := fun hmem =>
        absurd (hbelow _ hmem) (lt_irrefl _)
      obtain ⟨hstarts', hblocks, hothers, hown⟩ :=
        start_fragments hnew (some id) (some name) fragments hstarts
      refine ⟨hstarts', fun b hb => ?_, ?_⟩
      · rw [hblocks, mem_append, mem_singleton] at hb
        rcases hb with hb | rfl
        · exact Nat.lt_succ_of_lt (hbelow b hb)
        · exact Nat.lt_succ_self _
      · rw [hblocks, map_append, map_singleton, hown, ← hassembled]
        refine congrArg (· ++ _) (map_congr_left fun b hb => hothers b ?_)
        exact ne_of_lt (hbelow b hb)

/-- The positions of a list are its keys. -/
theorem keys_mapIdx {α : Type*} (items : List α) :
    Fields.keys (items.mapIdx Prod.mk) = List.range items.length := by
  induction items using List.reverseRecOn with
  | nil => rfl
  | append_singleton items item ih =>
    rw [mapIdx_concat, length_append, length_singleton, range_succ, ← ih]
    exact map_append

/-- At its position stands each item. -/
theorem lookup_mapIdx {α : Type*} (items : List α) (i : ℕ) :
    (items.mapIdx Prod.mk).lookup i = items[i]? := by
  induction items using List.reverseRecOn with
  | nil => rfl
  | append_singleton items item ih =>
    rw [mapIdx_concat, lookup_append, ih, List.getElem?_append, Fields.lookup_cons]
    split_ifs with hlast hlt hlt
    · omega
    · simp [hlast]
    · simp [hlt]
    · rw [List.getElem?_eq_none (by omega), List.getElem?_eq_none (by simp; omega)]
      rfl

/-- The runtime has an entry for each tool call, in their order. -/
theorem accumulate_toolsOf (parts : List (AnthropicBlock × List String)) :
    accumulate (run (toolsOf parts)).1 = (parts.filterMap partEntry).mapIdx Prod.mk := by
  obtain ⟨hstarts, -, hassembled⟩ := toolsOf_spec parts
  refine Fields.ext_lookup (pairwise_accumulate _) ?_ fun ordinal => ?_
  · rw [keys_mapIdx]
    exact pairwise_lt_range
  · rw [(run_records hstarts).2.assembles, lookup_mapIdx, ← hassembled, List.getElem?_map]

end Oxydra
