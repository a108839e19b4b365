import Oxydra.Runtime.ProviderResponse

/-!
# Requests and responses of the Responses API

`ResponsesApiRequest::from_context_with_stream` of `crates/provider/src/responses.rs` makes the input
items of a context, from the message on at which a chained request starts, and
`normalize_responses_response` makes a response of the output of the API.

What a prefix of the messages gives and what the others give are the items of the whole context, one
after the other (`contextItems_append`), and a chained request has the items that come after the ones
it skips (`fromContext_input`).
-/

namespace Oxydra

open Text

/-! ## Requests -/

inductive ResponsesInputItem where
  | message (role : String) (content : Value)
  | functionCall (call_id name arguments : String)
  | functionCallOutput (call_id output : String)
  deriving DecidableEq, Repr

/-- `ResponsesToolDeclaration`, which is never strict. -/
structure ResponsesToolDeclaration where
  type : String
  name : String
  description : Option String
  parameters : Value
  deriving DecidableEq, Repr

structure ResponsesApiRequest where
  model : String
  input : List ResponsesInputItem
  previous_response_id : Option String
  instructions : Option String
  tools : List ResponsesToolDeclaration
  store : Bool
  stream : Bool
  deriving DecidableEq, Repr

/-- An object schema is closed, and all its properties are required. -/
def strictObject (fields : List (String × Value)) : List (String × Value) :=
  if fields.lookup "type" = some (.string "object") then
    let all_keys :=
      match fields.lookup "properties" with
      | some (.object properties) => Fields.keys properties
      | _ => []
    let required :=
      match fields.lookup "required" with
      | some (.array required) => .array (all_keys.foldl (fun required key =>
          if .string key ∈ required then required else required ++ [.string key]) required)
      | some other => other
      | none => .array (all_keys.foldl (fun required key =>
          if .string key ∈ required then required else required ++ [.string key]) [])
    Fields.insert "required" required (Fields.insert "additionalProperties" (.bool false) fields)
  else fields

mutual

/-- `sanitize_schema_strict`. -/
def sanitizeSchemaStrict : Value → Value
  | .object fields => .object (strictObject (sanitizeFields fields))
  | schema => schema

/-- The fields of a schema, with its properties and its items sanitized. -/
def sanitizeFields : List (String × Value) → List (String × Value)
  | [] => []
  | (key, v) :: fields =>
    let sanitized :=
      if key = "properties" then sanitizeProperties v
      else if key = "items" then sanitizeSchemaStrict v
      else v
    (key, sanitized) :: sanitizeFields fields

/-- The properties of a schema, each of them sanitized. -/
def sanitizeProperties : Value → Value
  | .object fields => .object (sanitizeValues fields)
  | properties => properties

/-- Sanitized schemas under their names. -/
def sanitizeValues : List (String × Value) → List (String × Value)
  | [] => []
  | (key, v) :: fields => (key, sanitizeSchemaStrict v) :: sanitizeValues fields

end

/-- `ResponsesToolDeclaration::from`. -/
def responsesToolDeclaration (value : FunctionDecl) : ResponsesToolDeclaration where
  type := "function"
  name := value.name
  description := value.description
  parameters := sanitizeSchemaStrict value.parameters

/-- A text with more than white space. -/
def visibleContent (message : Message) : Option String :=
  message.content.filter fun text => trim text ≠ ""

section Request

/- `serde_json::to_string`, and `base64` with its standard alphabet. -/
variable (json : JsonText) (base64 : List UInt8 → String)

/-- The item of an image. -/
def imagePart (attachment : InlineMedia) : Value :=
  .object [("image_url", .string
      ("data:" ++ attachment.mime_type ++ ";base64," ++ base64 attachment.data)),
    ("type", .string "input_image")]

/-- The text and the images of a message of the user. -/
def userContent (message : Message) (images : List InlineMedia) : Value :=
  if images = [] then .string (message.content.getD "")
  else .array (message.content.toList.map (fun text =>
      .object [("text", .string text), ("type", .string "input_text")]) ++
    images.map (imagePart base64))

/-- The input items of a message. -/
def messageItems (message : Message) : List ResponsesInputItem :=
  match message.role with
  | .system => []
  | .user =>
    let images := message.attachments.filter fun a => "image/".toList.isPrefixOf a.mime_type.toList
    if (visibleContent message).isSome ∨ images ≠ [] then
      [.message "user" (userContent base64 message images)]
    else []
  | .assistant =>
    (visibleContent message).toList.map (fun text => .message "assistant" (.string text)) ++
      message.tool_calls.map fun call =>
        .functionCall call.id call.name (json.print call.arguments)
  | .tool => [.functionCallOutput (message.tool_call_id.getD "") (message.content.getD "")]

/-- The input items of messages. -/
def contextItems (messages : List Message) : List ResponsesInputItem :=
  messages.flatMap (messageItems json base64)

/-- The texts of the system messages. -/
def systemInstructions (messages : List Message) : List String :=
  messages.filterMap fun message =>
    if message.role = .system then visibleContent message else none

/-- Where a request starts: a chained one skips as many messages as were counted. -/
def startIndex (messages : List Message) (previous_response_id : Option String)
    (last_input_count : ℕ) : ℕ :=
  if previous_response_id.isSome ∧ 0 < last_input_count then min last_input_count messages.length
  else 0

/-- `ResponsesApiRequest::from_context_with_stream`. -/
def fromContextWithStream (context : Context) (previous_response_id : Option String)
    (last_input_count : ℕ) (stream : Bool) : ResponsesApiRequest :=
  let start_index := startIndex context.messages previous_response_id last_input_count
  let messages := context.messages.drop start_index
  let system_instructions := systemInstructions messages
  { model := context.model
    input := contextItems json base64 messages
    previous_response_id
    instructions :=
      if start_index = 0 ∧ system_instructions ≠ [] then
        some ("\n".intercalate system_instructions)
      else none
    tools := context.tools.map responsesToolDeclaration
    store := true
    stream }

theorem contextItems_append (messages messages' : List Message) :
    contextItems json base64 (messages ++ messages') =
      contextItems json base64 messages ++ contextItems json base64 messages' :=
  List.flatMap_append

/-- A request has the items of the messages that it does not skip. -/
theorem fromContext_input (context : Context) (previous_response_id : Option String)
    (last_input_count : ℕ) (stream : Bool) :
    let start_index := startIndex context.messages previous_response_id last_input_count
    contextItems json base64 (context.messages.take start_index) ++
        (fromContextWithStream json base64 context previous_response_id last_input_count stream).input =
      contextItems json base64 context.messages := by
  dsimp only
  rw [fromContextWithStream, ← contextItems_append, List.take_append_drop]

/-- A request that is not chained has the items of the whole context. -/
theorem fromContext_input_none (context : Context) (last_input_count : ℕ) (stream : Bool) :
    (fromContextWithStream json base64 context none last_input_count stream).input =
      contextItems json base64 context.messages := by
  simp [fromContextWithStream, startIndex]

end Request

/-! ## Responses -/

/-- `ResponsesOutputBlock`, with the texts of a message. -/
inductive ResponsesOutputBlock where
  | message (role : String) (content : List String)
  | functionCall (call_id name arguments : String)
  deriving DecidableEq, Repr

structure ResponsesApiResponse where
  id : Option String
  output : List ResponsesOutputBlock := []
  status : Option String := none
  usage : Option UsageUpdate := none
  deriving DecidableEq, Repr

/-- The texts of a block, without the empty ones. -/
def ResponsesOutputBlock.texts : ResponsesOutputBlock → List String
  | .message _ content => content.filter (· ≠ "")
  | .functionCall _ _ _ => []

/-- The call of a block. Arguments that are no JSON text are taken as a string. -/
def ResponsesOutputBlock.toolCall (json : JsonText) : ResponsesOutputBlock → Option ToolCall
  | .message _ _ => none
  | .functionCall call_id name arguments =>
    let args_json := (json.parse arguments).toOption.getD (.string arguments)
    some ⟨call_id, name, args_json, none⟩

/-- `normalize_responses_response`: the response and its id. -/
def normalizeResponsesResponse (json : JsonText) (provider : String)
    (response : ResponsesApiResponse) : Except ProviderError (Response × Option String) :=
  let text_chunks := response.output.flatMap ResponsesOutputBlock.texts
  let tool_calls := response.output.filterMap (ResponsesOutputBlock.toolCall json)
  let content := if text_chunks = [] then none else some (String.join text_chunks)
  if response.output = [] then
    .error (.responseParse provider "Responses API response contained no output items")
  else
    .ok ({ message := { role := .assistant, content, tool_calls }
           tool_calls
           finish_reason := response.status
           usage := response.usage }, response.id)

/-- What a block is as an item of a conversation. -/
def ResponsesOutputBlock.item : ResponsesOutputBlock → ResponsesInputItem
  | .message role content => .message role (.string (String.join content))
  | .functionCall call_id name arguments => .functionCall call_id name arguments

end Oxydra
