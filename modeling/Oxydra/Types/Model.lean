import Mathlib.Data.Rat.Defs

/-!
# Messages, contexts, and responses

The data of `crates/types/src/model.rs`, `tool.rs`, and `error.rs` that the runtime's turn loop
reads and writes. A `serde_json::Value` is the inductive type `Value`, with an object as the list of
its fields in key order, and with numbers that are integers or floats; every other type keeps the
source's fields under the source's names. A `u64` or a `usize` is a natural number; the operations of
`Library/Word.lean` say where one wraps or saturates.
-/

namespace Oxydra

/-- A `serde_json::Number`: a word with or without a sign, or an `f64`, which is finite. An integer
and a float are never equal. -/
inductive Number where
  | integer (n : ℤ)
  | float (x : ℚ)
  deriving DecidableEq, Repr

instance (n : ℕ) : OfNat Number n := ⟨.integer n⟩

instance : Coe ℕ Number := ⟨fun n => .integer n⟩

/-- A `serde_json::Value`. An object's fields stand in key order, as its `BTreeMap` keeps them. -/
inductive Value where
  | null
  | bool (b : Bool)
  | number (n : Number)
  | string (s : String)
  | array (items : List Value)
  | object (fields : List (String × Value))
  deriving Repr

mutual

/-- Equality of JSON values is decidable, by recursion on both. -/
def Value.decEq : (a b : Value) → Decidable (a = b)
  | .null, .null => isTrue rfl
  | .bool a, .bool b => decidable_of_iff (a = b) (by simp)
  | .number a, .number b => decidable_of_iff (a = b) (by simp)
  | .string a, .string b => decidable_of_iff (a = b) (by simp)
  | .array a, .array b =>
    match Value.decEqItems a b with
    | isTrue h => isTrue (by rw [h])
    | isFalse h => isFalse (by simpa using h)
  | .object a, .object b =>
    match Value.decEqFields a b with
    | isTrue h => isTrue (by rw [h])
    | isFalse h => isFalse (by simpa using h)
  | .null, .bool _ | .null, .number _ | .null, .string _ | .null, .array _ | .null, .object _
  | .bool _, .null | .bool _, .number _ | .bool _, .string _ | .bool _, .array _
  | .bool _, .object _ | .number _, .null | .number _, .bool _ | .number _, .string _
  | .number _, .array _ | .number _, .object _ | .string _, .null | .string _, .bool _
  | .string _, .number _ | .string _, .array _ | .string _, .object _ | .array _, .null
  | .array _, .bool _ | .array _, .number _ | .array _, .string _ | .array _, .object _
  | .object _, .null | .object _, .bool _ | .object _, .number _ | .object _, .string _
  | .object _, .array _ => isFalse (by simp)

/-- Equality of the items of two arrays. -/
def Value.decEqItems : (a b : List Value) → Decidable (a = b)
  | [], [] => isTrue rfl
  | [], _ :: _ | _ :: _, [] => isFalse (by simp)
  | a :: as, b :: bs =>
    match Value.decEq a b, Value.decEqItems as bs with
    | isTrue h, isTrue h' => isTrue (by rw [h, h'])
    | isFalse h, _ => isFalse (by simp [h])
    | _, isFalse h => isFalse (by simp [h])

/-- Equality of the fields of two objects. -/
def Value.decEqFields : (a b : List (String × Value)) → Decidable (a = b)
  | [], [] => isTrue rfl
  | [], _ :: _ | _ :: _, [] => isFalse (by simp)
  | (k, a) :: as, (l, b) :: bs =>
    match instDecidableEqString k l, Value.decEq a b, Value.decEqFields as bs with
    | isTrue h, isTrue h', isTrue h'' => isTrue (by rw [h, h', h''])
    | isFalse h, _, _ => isFalse (by simp [h])
    | _, isFalse h, _ => isFalse (by simp [h])
    | _, _, isFalse h => isFalse (by simp [h])

end

instance : DecidableEq Value := Value.decEq

/-- `Value::get` on an object: the field's value, or `none` on any other value. -/
def Value.get? (key : String) : Value → Option Value
  | .object fields => fields.lookup key
  | _ => none

/-- `Value::as_str`. -/
def Value.asStr : Value → Option String
  | .string s => some s
  | _ => none

inductive MessageRole where
  | system
  | user
  | assistant
  | tool
  deriving DecidableEq, Repr

/-- `ToolCall`: one call that an assistant message asks for. -/
structure ToolCall where
  id : String
  name : String
  arguments : Value
  /-- Provider data that is echoed back with the call. -/
  metadata : Option Value := none
  deriving DecidableEq, Repr

/-- `InlineMedia`: an attachment, with its bytes. -/
structure InlineMedia where
  mime_type : String
  data : List UInt8
  deriving DecidableEq, Repr

structure Message where
  role : MessageRole
  content : Option String := none
  tool_calls : List ToolCall := []
  tool_call_id : Option String := none
  attachments : List InlineMedia := []
  deriving DecidableEq, Repr

/-- `FunctionDecl`: what the provider is told about a tool. -/
structure FunctionDecl where
  name : String
  description : Option String := none
  parameters : Value
  deriving DecidableEq, Repr

/-- `Context`: the transcript that a run extends, with its provider route and tool schemas. -/
structure Context where
  provider : String
  model : String
  tools : List FunctionDecl := []
  messages : List Message := []
  deriving DecidableEq, Repr

/-- `UsageUpdate`: the token counts that a provider reports. -/
structure UsageUpdate where
  prompt_tokens : Option ℕ := none
  completion_tokens : Option ℕ := none
  total_tokens : Option ℕ := none
  deriving DecidableEq, Repr

/-- `Response`: what one provider turn returns. -/
structure Response where
  message : Message
  tool_calls : List ToolCall := []
  finish_reason : Option String := none
  usage : Option UsageUpdate := none
  deriving DecidableEq, Repr

/-- `ProviderCaps`, the fields that the runtime reads. -/
structure ProviderCaps where
  supports_streaming : Bool := false
  supports_tools : Bool := false
  max_context_tokens : Option ℕ := none
  deriving DecidableEq, Repr

/-- `SafetyTier` of a tool. -/
inductive SafetyTier where
  | readOnly
  | sideEffecting
  | privileged
  deriving DecidableEq, Repr

/-- `StopReason`: why a run stopped. -/
inductive StopReason where
  | completed
  | cancelled
  | maxTurns
  | maxRuntimeExceeded
  | maxBudgetExceeded
  | toolDisallowed
  | toolPermissionDenied
  | providerTimedOut
  | error (message : String)
  deriving DecidableEq, Repr

/-- The derived `Debug` text of a stop reason, which a policy violation shows. -/
def StopReason.debug : StopReason → String
  | .completed => "Completed"
  | .cancelled => "Cancelled"
  | .maxTurns => "MaxTurns"
  | .maxRuntimeExceeded => "MaxRuntimeExceeded"
  | .maxBudgetExceeded => "MaxBudgetExceeded"
  | .toolDisallowed => "ToolDisallowed"
  | .toolPermissionDenied => "ToolPermissionDenied"
  | .providerTimedOut => "ProviderTimedOut"
  | .error message => "Error(" ++ message.quote ++ ")"

inductive ProviderError where
  | unknownModel (provider model : String)
  | missingApiKey (provider : String)
  | transport (provider message : String)
  | httpStatus (provider : String) (status : ℕ) (message : String)
  | responseParse (provider message : String)
  | requestFailed (provider message : String)
  | serialization (message : String)
  deriving DecidableEq, Repr

inductive ToolError where
  | invalidArguments (tool message : String)
  | executionFailed (tool message : String)
  | policyViolation (reason : StopReason)
  | serialization (message : String)
  deriving DecidableEq, Repr

/-- The text of a tool error, which the loop shows to the model. -/
def ToolError.display : ToolError → String
  | .invalidArguments tool message => "invalid arguments for tool " ++ tool ++ ": " ++ message
  | .executionFailed tool message => "tool execution failed for " ++ tool ++ ": " ++ message
  | .policyViolation reason => "tool execution blocked by policy: " ++ reason.debug
  | .serialization message => "tool serialization failed: " ++ message

/-- The text of a provider error. -/
def ProviderError.display : ProviderError → String
  | .unknownModel provider model =>
    "unknown model id `" ++ model ++ "` for provider `" ++ provider ++ "`"
  | .missingApiKey provider => "missing API key for provider `" ++ provider ++ "`"
  | .transport provider message =>
    "provider transport failed for `" ++ provider ++ "`: " ++ message
  | .httpStatus provider status message =>
    "provider `" ++ provider ++ "` returned HTTP " ++ toString status ++ ": " ++ message
  | .responseParse provider message =>
    "provider response parsing failed for `" ++ provider ++ "`: " ++ message
  | .requestFailed provider message => "provider request failed for " ++ provider ++ ": " ++ message
  | .serialization message => "provider serialization failed: " ++ message

inductive MemoryError where
  | connection (message : String)
  | initialization (message : String)
  | migration (message : String)
  | query (message : String)
  | serialization (message : String)
  | notFound (session_id : String)
  deriving DecidableEq, Repr

/-- The text of a memory error. -/
def MemoryError.display : MemoryError → String
  | .connection message => "memory connection failed: " ++ message
  | .initialization message => "memory initialization failed: " ++ message
  | .migration message => "memory migration failed: " ++ message
  | .query message => "memory query failed: " ++ message
  | .serialization message => "memory serialization failed: " ++ message
  | .notFound session_id => "memory item not found for session `" ++ session_id ++ "`"

/-- `RuntimeError`, without the scheduler's errors, which no run of the loop raises. -/
inductive RuntimeError where
  | provider (error : ProviderError)
  | tool (error : ToolError)
  | memory (error : MemoryError)
  | cancelled
  | budgetExceeded
  | turnLimitExceeded
  | deadlineExceeded
  deriving DecidableEq, Repr

/-- The text of a runtime error, which the gateway shows to its clients. -/
def RuntimeError.display : RuntimeError → String
  | .provider error => error.display
  | .tool error => error.display
  | .memory error => error.display
  | .cancelled => "turn cancelled"
  | .budgetExceeded => "turn budget exceeded"
  | .turnLimitExceeded => "turn limit exceeded"
  | .deadlineExceeded => "deadline exceeded"

inductive PolicyStreamEvent where
  | budgetWarning (remaining threshold_pct : ℕ)
  | policyStop (reason : StopReason)
  | budgetUpdate (remaining : ℕ)
  deriving DecidableEq, Repr

inductive RuntimeProgressKind where
  | providerCall
  | toolExecution (tool_names : List String)
  | rollingSummary
  /-- Sent by a timer while tools are executing. -/
  | toolHeartbeat (tool_names : List String) (elapsed_secs : ℕ)
  deriving DecidableEq, Repr

structure RuntimeProgressEvent where
  kind : RuntimeProgressKind
  message : String
  turn : ℕ
  max_turns : ℕ
  deriving DecidableEq, Repr

/-- `ToolCallDelta`: a piece of a call that a provider streams. -/
structure ToolCallDelta where
  index : ℕ
  id : Option String := none
  name : Option String := none
  arguments : Option String := none
  metadata : Option Value := none
  deriving DecidableEq, Repr

inductive MediaType where
  | photo
  | audio
  | document
  | voice
  | video
  deriving DecidableEq, Repr

/-- `MediaAttachment`: a file that the `send_media` tool sends to the user. -/
structure MediaAttachment where
  file_path : String
  media_type : MediaType
  caption : Option String := none
  data : List UInt8
  file_name : Option String := none
  deriving DecidableEq, Repr

/-- `StreamItem`: what a run sends to its listener. The turn loop itself sends progress and policy
events; the rest comes from the provider and from the tools. -/
inductive StreamItem where
  | text (delta : String)
  | toolCallDelta (delta : ToolCallDelta)
  | reasoningDelta (delta : String)
  | usageUpdate (update : UsageUpdate)
  | connectionLost (message : String)
  | finishReason (reason : String)
  | progress (event : RuntimeProgressEvent)
  | media (attachment : MediaAttachment)
  | policyEvent (event : PolicyStreamEvent)
  deriving DecidableEq, Repr

end Oxydra
