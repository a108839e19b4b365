import Oxydra.Runtime.Agent

/-!
# The execution of one tool call

`execute_tool_call` and `execute_tool_and_format` of `crates/runtime/src/tool_execution.rs`: the
arguments are checked against the tool's schema, the registry's dispatch races the cancellation and
the turn timeout, and whatever happens becomes one tool message, except for a cancellation.
-/

namespace Oxydra

/-! ## Arguments -/

mutual

/-- `strip_additional_properties`. -/
def stripAdditionalProperties : Value → Value
  | .object fields => .object (stripSchemaFields fields)
  | .null => .null
  | .bool b => .bool b
  | .number n => .number n
  | .string s => .string s
  | .array items => .array items

/-- The fields of an object schema: `additionalProperties` goes, and `properties` and `items` are
schemas again. -/
def stripSchemaFields : List (String × Value) → List (String × Value)
  | [] => []
  | (key, value) :: rest =>
    if key = "additionalProperties" then stripSchemaFields rest
    else if key = "properties" then (key, stripPropertySchemas value) :: stripSchemaFields rest
    else if key = "items" then (key, stripAdditionalProperties value) :: stripSchemaFields rest
    else (key, value) :: stripSchemaFields rest

/-- The value of `properties`, if it is an object. -/
def stripPropertySchemas : Value → Value
  | .object properties => .object (stripEachProperty properties)
  | .null => .null
  | .bool b => .bool b
  | .number n => .number n
  | .string s => .string s
  | .array items => .array items

/-- Each property's schema. -/
def stripEachProperty : List (String × Value) → List (String × Value)
  | [] => []
  | (key, value) :: rest => (key, stripAdditionalProperties value) :: stripEachProperty rest

end

/-- The names that a schema requires. -/
def requiredNames (schema : Value) : List String :=
  match schema.get? "required" with
  | some (.array items) => items.filterMap Value.asStr
  | _ => []

/-- `strip_null_optional_fields`. -/
def stripNullOptionalFields (args schema : Value) : Value :=
  match args, schema with
  | .object fields, .object _ =>
    .object (fields.filter fun (key, value) => !(value = .null && key ∉ requiredNames schema))
  | _, _ => args

/-- `invalid_streamed_arguments`: what the stream's collector left of arguments that are no JSON. -/
def invalidStreamedArguments (arguments : Value) : Option String := do
  let raw_payload ← (← arguments.get? "__oxydra_invalid_tool_args_raw").asStr
  let parse_error ← (← arguments.get? "__oxydra_invalid_tool_args_error").asStr
  pure s!"invalid JSON arguments payload: {parse_error}; raw payload: {raw_payload}"

/-! ## One call -/

/-- How the race of a call ended. Where the dispatch lost the race, it may have reached the tool or
not. -/
inductive CallRace where
  | finished (outcome : ToolOutcome)
  | cancelled (reached : Bool)
  | timedOut (reached : Bool)

/-- What one call left behind: the arguments under which the tool was executed, if it was, the items
that were sent, and the result. -/
structure CallRun (α : Type) where
  executed : Option Value
  events : List StreamItem
  result : Except RuntimeError α

/-- A call that fails before the dispatch. -/
def CallRun.failed {α : Type} (error : ToolError) : CallRun α := ⟨none, [], .error (.tool error)⟩

namespace AgentRuntime

variable (rt : AgentRuntime)

/-- The dispatch of a call against the cancellation and the turn timeout. -/
def raceDispatch (name : String) (args : Value) (tool_context : ToolExecutionContext) :
    CallRace → CallRun String
  | .finished outcome =>
    let run := rt.tool_registry.executeWithContext name args tool_context outcome
    ⟨run.executed, run.events, match run.result with
      | .ok output => .ok output
      | .error e => .error (.tool e)⟩
  | .cancelled reached =>
    let run := rt.tool_registry.executeWithContext name args tool_context .timedOut
    if reached then ⟨run.executed, run.events, .error .cancelled⟩ else ⟨none, [], .error .cancelled⟩
  | .timedOut reached =>
    let run := rt.tool_registry.executeWithContext name args tool_context .timedOut
    let e := executionFailed name
      s!"tool execution timed out after {Text.durationDebug rt.limits.turn_timeout}"
    if reached then ⟨run.executed, run.events, .error (.tool e)⟩ else .failed e

/-- `execute_tool_call`. -/
def executeToolCall (name : String) (arguments : Value) (tool_context : ToolExecutionContext)
    (race : CallRace) : CallRun String :=
  match rt.tool_registry.get name with
  | none => .failed (executionFailed name s!"unknown tool `{name}`")
  | some tool =>
    match invalidStreamedArguments arguments with
    | some message => .failed (.invalidArguments name message)
    | none =>
      let schema_json := stripAdditionalProperties tool.schema.parameters
      let validation_args := stripNullOptionalFields arguments schema_json
      match rt.schema_errors schema_json validation_args with
      | .error error =>
        .failed (executionFailed name s!"failed to compile validation schema: {error}")
      | .ok (error :: errors) =>
        let error_msgs := (error :: errors).map fun e => "- " ++ e
        .failed (.invalidArguments name
          ("schema validation failed:\n" ++ String.intercalate "\n" error_msgs))
      | .ok [] =>
        rt.raceDispatch name (rt.translate_tool_arg_paths name validation_args) tool_context race

/-- `execute_tool_and_format`: a failed tool is told to the model, a cancellation ends the run. -/
def executeToolAndFormat (tool_call : ToolCall) (tool_context : ToolExecutionContext)
    (race : CallRace) : CallRun Message :=
  let run := rt.executeToolCall tool_call.name tool_call.arguments tool_context race
  let message := fun (output : String) =>
    ({ role := .tool, content := some (rt.scrub output), tool_call_id := some tool_call.id } :
      Message)
  ⟨run.executed, run.events, match run.result with
    | .ok output => .ok (message output)
    | .error (.tool e) => .ok (message ("Tool execution failed: " ++ e.display))
    | .error e => .error e⟩

variable {rt} {tool_call : ToolCall} {tool_context : ToolExecutionContext} {race : CallRace}

/-- A call that reaches its tool names a registered tool that an enforced policy does not
disallow. -/
theorem executeToolAndFormat_executed {a : Value}
    (h : (rt.executeToolAndFormat tool_call tool_context race).executed = some a) :
    (∃ tool, rt.tool_registry.get tool_call.name = some tool) ∧
      ∀ policy, tool_context.policy = some policy → policy.rollout_mode = .enforce →
        tool_call.name ∉ policy.disallowed_tools := by
  simp only [executeToolAndFormat, executeToolCall] at h
  -- only the dispatch executes anything
  split at h
  · simp [CallRun.failed] at h
  split at h
  · simp [CallRun.failed] at h
  split at h
  · simp [CallRun.failed] at h
  · simp [CallRun.failed] at h
  · cases race with
    | finished outcome => exact ToolRegistry.executeWithPolicyAndContext_executed h
    | cancelled reached =>
      cases reached with
      | false => simp [raceDispatch] at h
      | true => exact ToolRegistry.executeWithPolicyAndContext_executed h
    | timedOut reached =>
      cases reached with
      | false => simp [raceDispatch, CallRun.failed] at h
      | true => exact ToolRegistry.executeWithPolicyAndContext_executed h

/-- The message of a call is a tool message that carries the call's id, and nothing else of the
call. -/
theorem executeToolAndFormat_ok {m : Message}
    (h : (rt.executeToolAndFormat tool_call tool_context race).result = .ok m) :
    m.role = .tool ∧ m.tool_call_id = some tool_call.id ∧ m.tool_calls = [] ∧
      m.attachments = [] := by
  simp only [executeToolAndFormat] at h
  split at h
  · rw [← Except.ok.inj h]
    exact ⟨rfl, rfl, rfl, rfl⟩
  · rw [← Except.ok.inj h]
    exact ⟨rfl, rfl, rfl, rfl⟩
  · simp at h

end AgentRuntime

end Oxydra
