import Oxydra.Library.Word
import Oxydra.Provider.AnthropicToolCalls

/-!
# Responses of the Anthropic provider

`crates/provider/src/anthropic.rs` turns what the Messages API answers into a response of its own in
two ways: `normalize_anthropic_response` at once, and `parse_anthropic_stream_payload` event by
event, for the runtime to collect.

What `serde` reads of a body or of an event is data here: an event is given by the fields of its
type, and an event that cannot be read by the message of the error. The reading of the event stream
off the connection is left out.
-/

namespace Oxydra

open Text

structure AnthropicUsage where
  input_tokens : Option ℕ := none
  output_tokens : Option ℕ := none
  deriving DecidableEq, Repr

/-! ## At once -/

structure AnthropicResponseContentBlock where
  kind : String
  text : Option String := none
  id : Option String := none
  name : Option String := none
  input : Option Value := none
  deriving DecidableEq, Repr

structure AnthropicMessagesResponse where
  role : String
  content : List AnthropicResponseContentBlock
  stop_reason : Option String := none
  usage : Option AnthropicUsage := none
  deriving DecidableEq, Repr

/-- `non_empty`. -/
def nonEmpty (value : String) : Option String :=
  let trimmed := trim value
  if trimmed = "" then none else some trimmed

/-- `anthropic_role_to_message_role`. -/
def anthropicRoleToMessageRole : String → Option MessageRole
  | "user" => some .user
  | "assistant" => some .assistant
  | _ => none

/-- The total of two counts, where both are given. -/
def summedTokens (input output : Option ℕ) : Option ℕ :=
  match input, output with
  | some input, some output => some (U64.saturatingAdd input output)
  | _, _ => none

/-- The update of the usage of a response. -/
def AnthropicUsage.update (usage : AnthropicUsage) : UsageUpdate where
  prompt_tokens := usage.input_tokens
  completion_tokens := usage.output_tokens
  total_tokens := summedTokens usage.input_tokens usage.output_tokens

/-- What a block adds to the texts and the calls before it. -/
def normalizeBlock (provider : String) (done : List String × List ToolCall)
    (block : AnthropicResponseContentBlock) : Except ProviderError (List String × List ToolCall) :=
  match block.kind with
  | "text" =>
    match block.text.bind nonEmpty with
    | some text => .ok (done.1 ++ [text], done.2)
    | none => .ok done
  | "tool_use" => do
    let id ← block.id.elim
      (.error (.responseParse provider "Anthropic tool_use block missing id")) .ok
    let name ← block.name.elim
      (.error (.responseParse provider
        ("Anthropic tool_use block `" ++ id ++ "` missing name"))) .ok
    let arguments ← block.input.elim
      (.error (.responseParse provider
        ("Anthropic tool_use block `" ++ id ++ "` missing input"))) .ok
    return (done.1, done.2 ++ [{ id, name, arguments }])
  | _ => .ok done

/-- `normalize_anthropic_response`. -/
def normalizeAnthropicResponse (response : AnthropicMessagesResponse) (provider : String) :
    Except ProviderError Response := do
  let role ← (anthropicRoleToMessageRole response.role).elim
    (.error (.responseParse provider ("unsupported Anthropic role `" ++ response.role ++ "`"))) .ok
  let (text_chunks, tool_calls) ← response.content.foldlM (normalizeBlock provider) ([], [])
  let usage := response.usage.map AnthropicUsage.update
  let content := if text_chunks = [] then none else some (String.intercalate "\n" text_chunks)
  return {
    message := { role, content, tool_calls }
    tool_calls
    finish_reason := response.stop_reason
    usage }

/-! ## Event by event -/

structure AnthropicDelta where
  kind : String
  text : Option String := none
  partial_json : Option String := none
  thinking : Option String := none
  deriving DecidableEq, Repr

/-- An event, by its type. A `ping`, a `content_block_stop` and a type that is not known are
ignored. -/
inductive AnthropicStreamEvent where
  | messageStart (usage : Option AnthropicUsage)
  | contentBlockStart (index : ℕ) (kind : String) (id name : Option String)
  | contentBlockDelta (index : ℕ) (delta : AnthropicDelta)
  | messageDelta (stop_reason : Option String) (output_tokens : Option (Option ℕ))
  | messageStop
  | error (message : Option String)
  | ignored
  deriving DecidableEq, Repr

inductive AnthropicEventAction where
  | items (items : List StreamItem)
  | done
  | error (error : ProviderError)
  deriving DecidableEq, Repr

/-- What is kept from event to event: the tool calls, and the prompt tokens of `message_start`. -/
structure AnthropicStreamState where
  accumulator : AnthropicToolCallAccumulator := {}
  input_tokens : Option ℕ := none
  deriving DecidableEq, Repr

/-- `parse_content_block_delta`, of a delta. -/
def parseContentBlockDelta (s : AnthropicStreamState) (index : ℕ) (delta : AnthropicDelta) :
    List StreamItem × AnthropicStreamState :=
  match delta.kind with
  | "text_delta" => ((delta.text.filter (· ≠ "")).toList.map .text, s)
  | "input_json_delta" =>
    match delta.partial_json with
    | some partial_json =>
      let (delta, accumulator) := s.accumulator.appendJson index partial_json
      ([.toolCallDelta delta], { s with accumulator })
    | none => ([], s)
  | "thinking_delta" => ((delta.thinking.filter (· ≠ "")).toList.map .reasoningDelta, s)
  | _ => ([], s)

/-- `parse_message_delta`, of a stop reason and of usage. -/
def parseMessageDelta (s : AnthropicStreamState) (stop_reason : Option String)
    (usage : Option (Option ℕ)) : List StreamItem :=
  (stop_reason.filter (· ≠ "")).toList.map .finishReason ++
    usage.toList.map fun output =>
      .usageUpdate {
        prompt_tokens := s.input_tokens
        completion_tokens := output
        total_tokens := summedTokens s.input_tokens output }

/-- `parse_anthropic_stream_payload`, of an event or the message of the error that it is not one. -/
def parseAnthropicStreamPayload (provider : String) (s : AnthropicStreamState) :
    Except String AnthropicStreamEvent → AnthropicEventAction × AnthropicStreamState
  | .error message => (.error (.responseParse provider message), s)
  | .ok (.messageStart usage) =>
    match usage.bind AnthropicUsage.input_tokens with
    | some prompt =>
      (.items [.usageUpdate { prompt_tokens := some prompt }],
        { s with input_tokens := some prompt })
    | none => (.items [], s)
  | .ok (.contentBlockStart index kind id name) =>
    match kind with
    | "tool_use" =>
      let (delta, accumulator) := s.accumulator.startTool index id name
      (.items [.toolCallDelta delta], { s with accumulator })
    | _ => (.items [], s)
  | .ok (.contentBlockDelta index delta) =>
    let (items, s) := parseContentBlockDelta s index delta
    (.items items, s)
  | .ok (.messageDelta stop_reason usage) => (.items (parseMessageDelta s stop_reason usage), s)
  | .ok .messageStop => (.done, s)
  | .ok (.error message) =>
    (.error (.responseParse provider
      (message.getD "unknown streaming error from Anthropic")), s)
  | .ok .ignored => (.items [], s)

/-- The items that `AnthropicProvider::stream` sends of the events of a stream. -/
def anthropicStream (provider : String) (s : AnthropicStreamState) :
    List (Except String AnthropicStreamEvent) → List ProviderItem
  | [] => [.ok (.connectionLost "Anthropic stream ended before message_stop")]
  | payload :: payloads =>
    match parseAnthropicStreamPayload provider s payload with
    | (.items items, s) => items.map .ok ++ anthropicStream provider s payloads
    | (.done, _) => []
    | (.error error, _) => [.error error]

end Oxydra
