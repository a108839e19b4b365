import Oxydra.Runtime.PolicyGuard
import Oxydra.Runtime.Session

/-!
# The gateway's turn runner

`RuntimeGatewayTurnRunner` of `crates/gateway/src/turn_runner.rs`: it keeps the conversation context
of each session in memory, under the session's id, and runs a user's turn on it. A turn that fails
is rolled back to the messages that were there before it; the runtime's memory of the session, which
has stored messages by then, is not. A context that is dropped is not read back from the memory.

`runTurn` is one call of `run_turn`, on the inputs of the run's iterations. It is `none` when the
run is not over on these inputs, and when resolving the policy panics.
-/

namespace Oxydra

/-! ## The user's message -/

structure UserTurnInput where
  prompt : String
  attachments : List InlineMedia := []
  deriving DecidableEq

/-- `TurnOrigin`, with the section of the system prompt that the channel's capabilities make. -/
structure TurnOrigin where
  channel_id : Option String := none
  channel_context_id : Option String := none
  agent_name : Option String := none
  channel_section : Option String := none
  deriving DecidableEq

/-- `format_attachment_size`. The quotients are exact in an `f64`. -/
def formatAttachmentSize (bytes : ℕ) : String :=
  if bytes < 1024 then s!"~{bytes}B"
  else if bytes < 1024 * 1024 then
    -- `round` takes a half away from zero
    s!"~{(bytes + 512) / 1024}KB"
  else
    let tenths := Text.roundHalfEven ((bytes : ℚ) * 10 / (1024 * 1024))
    s!"~{tenths / 10}.{tenths % 10}MB"

/-- `MAX_MIME_TYPE_LEN`. -/
def maxMimeTypeLen : ℕ := 150

/-- One attachment, as the prompt describes it: its type is kept from injecting text. -/
def describeAttachment (index : ℕ) (attachment : InlineMedia) : String :=
  let safe_mime := String.ofList
    ((attachment.mime_type.toList.filter fun c => !Text.isControl c).take maxMimeTypeLen)
  s!"[{index}] {safe_mime} ({formatAttachmentSize attachment.data.length})"

/-- `attachment_prompt_addendum`. -/
def attachmentPromptAddendum (attachments : List InlineMedia) : Option String :=
  if attachments = [] then none
  else
    let descriptors := String.intercalate ", "
      (attachments.mapIdx fun index attachment => describeAttachment index attachment)
    let noun := if attachments.length = 1 then "attachment" else "attachments"
    some (s!"User sent {attachments.length} {noun}: {descriptors}.\n" ++
      "Use attachment_save(index, path) to persist any of them to /shared or /tmp.")

/-- `augment_prompt_with_attachment_metadata`. -/
def augmentPromptWithAttachmentMetadata (prompt : String) (attachments : List InlineMedia) :
    String :=
  match attachmentPromptAddendum attachments with
  | some addendum => if Text.trim prompt = "" then addendum else prompt ++ "\n\n" ++ addendum
  | none => prompt

/-- The message that a turn adds to the transcript. -/
def UserTurnInput.message (input : UserTurnInput) : Message where
  role := .user
  content := some (augmentPromptWithAttachmentMetadata input.prompt input.attachments)
  attachments := input.attachments

/-- The messages without the attachments of earlier turns. -/
def stripAttachments (messages : List Message) : List Message :=
  messages.map fun m => if m.role = .user then { m with attachments := [] } else m

/-! ## The runner -/

/-- `RuntimeGatewayTurnRunner`, without its contexts. -/
structure TurnRunner where
  runtime : AgentRuntime
  default_selection : ProviderSelection
  agent_selections : List (String × ProviderSelection) := []
  agent_definitions : List (String × AgentDefinition) := []

/-- One call of `run_turn`, with what the world decides about it. -/
structure TurnRequest where
  user_id : String
  session_id : String
  input : UserTurnInput
  origin : TurnOrigin := {}
  policy : Option RunPolicyInput := none
  /-- The readings of the clock when the policy is resolved. -/
  clock : Timestamp × Timestamp × Timestamp := (0, 0, 0)
  /-- The iterations of the run. -/
  inputs : List TurnInput

/-- The contexts that are kept, and the memory of each session. -/
structure RunnerState where
  contexts : String → Option Context := fun _ => none
  memory : String → SessionMemory := fun _ => {}

/-- The in-memory transcript of a session. -/
def RunnerState.transcript (st : RunnerState) (session_id : String) : List Message :=
  ((st.contexts session_id).map Context.messages).getD []

/-- The messages that a session's memory holds. -/
def RunnerState.stored (st : RunnerState) (session_id : String) : List Message :=
  (st.memory session_id).records.map Prod.snd

/-- The agent whose selection and definition a turn uses. -/
def TurnRequest.agentName (req : TurnRequest) : String := req.origin.agent_name.getD "default"

namespace TurnRunner

variable (runner : TurnRunner)

/-- `selection_for_agent`. -/
def selectionForAgent (agent_name : String) : ProviderSelection :=
  if agent_name = "default" then runner.default_selection
  else (runner.agent_selections.lookup agent_name).getD runner.default_selection

/-- `base_context`. -/
def baseContext (agent_name : String) : Context where
  provider := (runner.selectionForAgent agent_name).provider
  model := (runner.selectionForAgent agent_name).model

/-- `resolve_session_policy`. -/
def resolveSessionPolicy (agent_name : String) (per_run : RunPolicyInput)
    (clock : Timestamp × Timestamp × Timestamp) :
    Option (Except PolicyValidationError EffectiveRunPolicy) :=
  let limits := runner.runtime.limits
  let global_config : RuntimeConfig :=
    { turn_timeout_secs := limits.turn_timeout / 1000000000
      max_turns := limits.max_turns % 2^32
      max_cost := limits.max_cost }
  let agent_def := (runner.agent_definitions.lookup agent_name).getD {}
  resolvePolicy global_config agent_def per_run runner.runtime.tool_registry.schemas
    clock.1 clock.2.1 clock.2.2

/-- The policy of a turn, if it asks for one. -/
def turnPolicy (req : TurnRequest) :
    Option (Except PolicyValidationError (Option EffectiveRunPolicy)) :=
  match req.policy with
  | none => some (.ok none)
  | some per_run =>
    (runner.resolveSessionPolicy req.agentName per_run req.clock).map (Except.map some)

section

variable (st : RunnerState) (req : TurnRequest)

/-- The context that a turn finds or makes. -/
def contextFor : Context :=
  (st.contexts req.session_id).getD (runner.baseContext req.agentName)

/-- The messages on which a turn is run: those from before it, and the user's. -/
def turnMessages : List Message :=
  stripAttachments (runner.contextFor st req).messages ++ [req.input.message]

/-- The environment of a turn's run. -/
def turnEnv (policy : Option EffectiveRunPolicy) :
    RunEnv where
  rt := runner.runtime
  session_id := some req.session_id
  stream_events := true
  tool_context :=
    { user_id := some req.user_id
      session_id := some req.session_id
      provider := some (runner.contextFor st req).provider
      model := some (runner.contextFor st req).model
      channel_id := req.origin.channel_id
      channel_context_id := req.origin.channel_context_id }
  channel_section := req.origin.channel_section
  policy := policy

/-- The run of a turn. -/
def turnRun (policy : Option EffectiveRunPolicy) :
    SessionState :=
  runSessionInternal (runner.turnEnv st req policy)
    { runner.contextFor st req with messages := runner.turnMessages st req }
    (st.memory req.session_id) req.inputs

end

/-- The error of a turn whose policy does not pass its checks. -/
def policyFailure (error : PolicyValidationError) : RuntimeError :=
  .provider (.requestFailed "policy_guard" ("policy validation failed: " ++ error.display))

/-- The messages that a turn leaves: one that failed is rolled back to those from before it. -/
def messagesAfter (pre_turn_message_count : ℕ) (messages : List Message) :
    Except RuntimeError Response → List Message
  | .error _ => messages.take pre_turn_message_count
  | .ok _ => messages

/-- `run_turn`. -/
def runTurn (st : RunnerState) (req : TurnRequest) :
    Option (Except RuntimeError Response × RunnerState) :=
  let context := runner.contextFor st req
  match runner.turnPolicy req with
  | none => none
  | some (.error error) =>
    -- the context was put into the map before the policy was resolved
    some (.error (policyFailure error),
      { st with contexts := Function.update st.contexts req.session_id (some context) })
  | some (.ok policy) =>
    match runner.turnRun st req policy with
    | .running _ => none
    | .done result s =>
      -- the memory keeps what the run stored, also when the transcript is rolled back
      let messages := messagesAfter context.messages.length s.context.messages result
      some (result,
        { contexts := Function.update st.contexts req.session_id
            (some { s.context with messages := messages })
          memory := Function.update st.memory req.session_id s.memory })

/-- `drop_session_context`. -/
def dropSessionContext (st : RunnerState) (session_id : String) : RunnerState :=
  { st with contexts := Function.update st.contexts session_id none }

end TurnRunner

end Oxydra
