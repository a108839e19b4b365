import Oxydra.Library.Lts
import Oxydra.Runtime.BudgetLedger
import Oxydra.Runtime.Memory
import Oxydra.Runtime.ToolExecution

/-!
# The turn loop

`run_session_internal` of `crates/runtime/src/lib.rs`, with the persistence of
`crates/runtime/src/memory.rs`. A run is a computation over `RunState` that may fail; a failure
keeps the state, as `?` does with data behind a mutable reference. What the world decides in one
iteration of the loop is a `TurnInput`: whether the run was cancelled, what the clock says, what the
memory retrieves, what the provider returns, and how each tool call fares.

`runTurn` is one iteration. It returns the response that ends the run, or `none` when the loop goes
on; `sessionSystem` is the transition system of all runs. The state also records what happened
(`trace`), which no part of the code reads.
-/

namespace Oxydra

open Lts

/-- What happens in a run. -/
inductive RunEvent where
  /-- An iteration saw that the deadline had passed. -/
  | deadlinePassed
  /-- The provider was called for a response, streamed or complete. -/
  | providerCall
  /-- The stream had failed, and the provider was called again for a complete response. -/
  | fallbackCall
  /-- A turn's cost was settled. -/
  | settled (cost : ℕ)
  /-- `Tool::execute` was reached. -/
  | toolExecuted (name : String) (args : Value)
  deriving DecidableEq

/-- What a run is given besides its context and memory. -/
structure RunEnv where
  rt : AgentRuntime
  session_id : Option String := none
  /-- Whether there is a listener for stream items. -/
  stream_events : Bool := false
  tool_context : ToolExecutionContext := {}
  /-- The channel's section of the system prompt. -/
  channel_section : Option String := none
  policy : Option EffectiveRunPolicy := none

/-- The local state of a run. -/
structure RunState where
  context : Context
  memory : SessionMemory := {}
  next_memory_sequence : ℕ := 1
  turn : ℕ := 0
  accumulated_cost : ℚ := 0
  budget_ledger : Option BudgetLedger := none
  /-- The stream items that were sent. -/
  events : List StreamItem := []
  trace : List RunEvent := []

/-- A computation of a run. -/
abbrev RunM := EStateM RuntimeError RunState

/-- What the world decides about one tool call. -/
structure CallInput where
  /-- What `is_cancelled` says before a call that is not read-only. -/
  cancelled : Bool := false
  race : CallRace

/-- What the world decides in one iteration of the loop. -/
structure TurnInput where
  cancelled : Bool := false
  now : Timestamp := 0
  /-- The memory's answers to the two retrievals of an iteration. -/
  summary_query : String → Except MemoryError (List MemoryHybridQueryResult) := fun _ => .ok []
  context_query : String → Except MemoryError (List MemoryHybridQueryResult) := fun _ => .ok []
  response : Except RuntimeError Response
  /-- Whether a stream fails, other than by a cancellation or a time-out. -/
  stream_fails : Bool := false
  /-- How the tool call at each position fares. -/
  calls : ℕ → CallInput := fun _ => { race := .finished (.returned (.ok "")) }

namespace RunEnv

variable (env : RunEnv)

/-- Whether the memory of a session is in use. -/
def remembers : Bool := env.rt.memory && env.session_id.isSome

/-- The effective turn limit. -/
def maxTurns : ℕ := (env.policy.bind EffectiveRunPolicy.max_turns).getD env.rt.limits.max_turns

/-- `should_block`: without a policy, or under one that is enforced. -/
def enforced : Bool :=
  match env.policy with
  | none => true
  | some p => p.rollout_mode = .enforce

/-- Whether violations are told and let pass. -/
def softFails : Bool :=
  match env.policy with
  | none => false
  | some p => p.rollout_mode = .softFail

end RunEnv

/-- Send an item to the listener, if there is one. -/
def send (env : RunEnv) (item : StreamItem) : RunM Unit :=
  modify fun s => if env.stream_events then { s with events := s.events ++ [item] } else s

/-- Record what happened. -/
def record (event : RunEvent) : RunM Unit :=
  modify fun s => { s with trace := s.trace ++ [event] }

/-- An operation on the memory of the session, as a part of a run. -/
def liftMemory {α : Type} (x : MemoryM α) : RunM α := fun s =>
  match x s.memory with
  | .ok a memory => .ok a { s with memory := memory }
  | .error e memory => .error (.memory e) { s with memory := memory }

/-! ## Persistence -/

/-- A message as the memory stores it: without the bytes of its attachments. -/
def messageForMemory (message : Message) : Message :=
  { message with attachments := message.attachments.map fun a => { a with data := [] } }

/-- `persist_message_if_needed`. -/
def persistMessageIfNeeded (env : RunEnv) (message : Message) : RunM Unit := do
  if env.remembers then
    let s ← get
    liftMemory (SessionMemory.store (env.session_id.getD "") s.next_memory_sequence
      (messageForMemory message))
    modify fun s => { s with next_memory_sequence := U64.saturatingAdd s.next_memory_sequence 1 }
  else pure ()

/-- `next_memory_sequence`: one past the last stored sequence number, or 1. -/
def nextMemorySequence (env : RunEnv) : RunM ℕ := fun s =>
  if env.remembers then
    match SessionMemory.recallLast (env.session_id.getD "") s.memory with
    | .ok record memory => .ok (U64.saturatingAdd record.1 1) { s with memory := memory }
    -- a session that the memory does not know is a new one
    | .error (.notFound _) memory => .ok 1 { s with memory := memory }
    | .error e memory => .error (.memory e) { s with memory := memory }
  else .ok 1 s

/-- The messages of a list, persisted one after another. -/
def persistAll (env : RunEnv) : List Message → RunM Unit
  | [] => pure ()
  | message :: rest => do
    persistMessageIfNeeded env message
    persistAll env rest

/-- `persist_context_tail_if_needed`: as many messages as are stored are taken to be stored. -/
def persistContextTailIfNeeded (env : RunEnv) : RunM Unit := do
  let s ← get
  if env.remembers then
    -- the cursor is a count, so the stored messages are taken to be the first ones
    persistAll env (s.context.messages.drop (s.next_memory_sequence - 1))
  else pure ()

/-- Push a message to the context, and persist it. -/
def commitMessage (env : RunEnv) (message : Message) : RunM Unit := do
  modify fun s =>
    { s with context := { s.context with messages := s.context.messages ++ [message] } }
  persistMessageIfNeeded env message

/-! ## The start of a run -/

/-- The tool schemas that the provider is shown, unless the caller has set them. -/
def visibleTools (env : RunEnv) (context : Context) : List FunctionDecl :=
  if context.tools = [] then
    match env.policy with
    | some p =>
      env.rt.tool_registry.filteredSchemas (some (toolNames p.toolset)) p.disallowed_tools
    | none => env.rt.tool_registry.schemas
  else context.tools

/-- The messages with the system prompt in front, if one is configured and none is there. -/
def withSystemPrompt (env : RunEnv) (messages : List Message) : List Message :=
  match env.rt.system_prompt with
  | some prompt =>
    if messages.any fun m => m.role = .system then messages
    else
      let augmented_prompt := match env.channel_section with
        | some sec => prompt ++ "\n\n" ++ sec
        | none => prompt
      { role := .system, content := some augmented_prompt } :: messages
  | none => messages

/-- What comes before the loop. -/
def startRun (env : RunEnv) : RunM Unit := do
  modify fun s =>
    { s with
      context := { s.context with
        tools := visibleTools env s.context
        messages := withSystemPrompt env s.context.messages } }
  let next ← nextMemorySequence env
  modify fun s => { s with next_memory_sequence := next }
  persistContextTailIfNeeded env
  -- the limits are checked after the messages are stored
  Effect.ofExcept env.rt.validateGuardPreconditions
  modify fun s =>
    { s with
      budget_ledger := env.policy.map fun p => BudgetLedger.new p.remaining_budget_microusd }

/-! ## Before the provider call -/

/-- The cancellation check at the head of the loop. -/
def checkCancelled (cancelled : Bool) : RunM Unit :=
  if cancelled then throw .cancelled else pure ()

section

variable (env : RunEnv)

/-- The turn limit: it ends the run when it is enforced. -/
def checkTurnLimit : RunM Unit := do
  let s ← get
  if env.maxTurns ≤ s.turn then
    if env.enforced then throw .turnLimitExceeded
    else if env.softFails then send env (.policyEvent (.policyStop .maxTurns))
    else pure ()
  else pure ()

/-- Whether the policy has a deadline that has passed. -/
def deadlinePassed (now : Timestamp) : Bool :=
  match env.policy.bind EffectiveRunPolicy.deadline with
  | some deadline => deadline ≤ now
  | none => false

/-- The deadline: it ends the run when it is enforced. -/
def checkDeadline (now : Timestamp) : RunM Unit := do
  if deadlinePassed env now then
    record .deadlinePassed
    if env.enforced then throw .deadlineExceeded
    else if env.softFails then send env (.policyEvent (.policyStop .maxRuntimeExceeded))
    else pure ()
  else pure ()

/-- The progress item before a provider call. -/
def announceProviderCall : RunM Unit := do
  let s ← get
  -- the runtime's limit is shown, also when the policy has a lower one
  let max_turns := env.rt.limits.max_turns
  send env (.progress
    { kind := .providerCall
      message := s!"[{s.turn}/{max_turns}] Calling provider"
      turn := s.turn
      max_turns := max_turns })

/-- `load_summary_state`, with its failure as a value. -/
def loadSummaryState : RunM (Except RuntimeError (Option MemorySummaryState)) :=
  fun s =>
    if env.rt.memory_retrieval && env.session_id.isSome then
      match SessionMemory.readSummaryState s.memory with
      | .ok state memory => .ok (.ok state) { s with memory := memory }
      | .error e memory => .ok (.error (.memory e)) { s with memory := memory }
    else .ok (.ok none) s

/-- `maybe_trigger_rolling_summary`. -/
def maybeTriggerRollingSummary (inp : TurnInput) : RunM Unit := do
  if env.rt.memory_retrieval && env.session_id.isSome then
    let s ← get
    if s.context.messages.length < env.rt.limits.summarization.min_turns then pure ()
    else
      let loaded ← loadSummaryState env
      let fetched :=
        env.rt.fetchRetrievedMemoryMessage env.session_id s.context inp.summary_query
      let due ← Effect.ofExcept (env.rt.rollingSummary s.context loaded fetched)
      match due with
      | none => pure ()
      | some (expected_epoch, state) =>
        -- a write that loses against another one is logged and ignored
        let _ ← liftMemory (SessionMemory.writeSummaryState expected_epoch state)
        pure ()
  else pure ()

/-- `prepare_provider_context`, with its reads of the memory. -/
def prepareContext (inp : TurnInput) : RunM Context := do
  let s ← get
  let loaded ← loadSummaryState env
  let fetched := env.rt.fetchRetrievedMemoryMessage env.session_id s.context inp.context_query
  Effect.ofExcept (env.rt.prepareProviderContext s.context loaded fetched)

/-- The head of an iteration, up to the provider context. -/
def beforeProvider (inp : TurnInput) : RunM Context := do
  checkCancelled inp.cancelled
  checkTurnLimit env
  -- a turn counts from here on, whatever becomes of it
  modify fun s => { s with turn := s.turn + 1 }
  checkDeadline env inp.now
  announceProviderCall env
  maybeTriggerRollingSummary env inp
  prepareContext env inp

end

/-! ## The provider call and its cost -/

/-- The estimated cost of a provider context: four bytes a token. -/
def estimatedCost (provider_context : Context) : ℕ :=
  tokenCost ((provider_context.messages.filterMap fun m =>
    m.content.map String.utf8ByteSize).sum / 4)

/-- The reservation of an estimated cost: what the ledger said before, and the amount. When the
estimate does not fit, nothing is reserved and the call is made all the same. -/
def reserveEstimate (estimated_cost : ℕ) : RunM (Option (BudgetSnapshot × ℕ)) := do
  let s ← get
  match s.budget_ledger with
  | none => pure none
  | some ledger =>
    match ledger.reserve estimated_cost with
    | .ok (amount, ledger') =>
      set { s with budget_ledger := some ledger' }
      pure (some (ledger.snapshot, amount))
    | .error _ => pure (some (ledger.snapshot, 0))

/-- The reservation before a provider call. -/
def reserveBudget (provider_context : Context) : RunM (Option (BudgetSnapshot × ℕ)) :=
  reserveEstimate (estimatedCost provider_context)

/-- `request_provider_response`: the route is resolved, and then the provider answers. Where its
stream fails, it is called again for a complete response. -/
def requestProviderResponse (env : RunEnv) (provider_context : Context) (inp : TurnInput) :
    RunM Response := do
  let caps ← Effect.ofExcept (env.rt.capabilitiesFor provider_context)
  record .providerCall
  if caps.supports_streaming && caps.supports_tools && inp.stream_fails then record .fallbackCall
  else pure ()
  Effect.ofExcept inp.response

/-- The whole percents of the budget that are used. -/
def usedPct (remaining initial : ℕ) : ℕ := 100 - remaining * 100 / initial

/-- The items about the budget after a settlement. -/
def budgetEvents (old new : BudgetSnapshot) : List StreamItem :=
  let update : StreamItem := .policyEvent (.budgetUpdate new.remaining)
  if 0 < new.initial then
    let old_used_pct := usedPct old.remaining new.initial
    let new_used_pct := usedPct new.remaining new.initial
    if old_used_pct < 80 ∧ 80 ≤ new_used_pct then
      [update, .policyEvent (.budgetWarning new.remaining 80)]
    else if old_used_pct < 95 ∧ 95 ≤ new_used_pct then
      [update, .policyEvent (.budgetWarning new.remaining 95)]
    else [update]
  else [update]

/-- The settlement of a cost against its reservation. -/
def settleCost (env : RunEnv) (reservation : Option (BudgetSnapshot × ℕ))
    (turn_cost_microusd : ℕ) : RunM Unit := do
  let s ← get
  match s.budget_ledger, reservation with
  | some ledger, some (old_snapshot, amount) =>
    let ledger' := ledger.settle amount turn_cost_microusd
    set { s with
      budget_ledger := some ledger'
      events := s.events ++
        (if env.stream_events then budgetEvents old_snapshot ledger'.snapshot else [])
      trace := s.trace ++ [RunEvent.settled turn_cost_microusd] }
  | _, _ => pure ()

/-- The settlement of a turn's cost. -/
def settleTurn (env : RunEnv) (reservation : Option (BudgetSnapshot × ℕ))
    (usage : Option UsageUpdate) : RunM Unit :=
  settleCost env reservation (turnCostMicrousd usage)

/-- The cost check of a run without a policy. -/
def checkCostBudget (env : RunEnv) (usage : Option UsageUpdate) : RunM Unit := do
  let s ← get
  let (accumulated_cost, result) := env.rt.enforceCostBudget usage s.accumulated_cost
  set { s with accumulated_cost := accumulated_cost }
  Effect.ofExcept result

/-- The calls of a response: those of its message, or else its own. -/
def Response.calls (response : Response) : List ToolCall :=
  if response.message.tool_calls = [] then response.tool_calls else response.message.tool_calls

/-- The assistant message of a response, with all its calls. -/
def Response.assistantMessage (response : Response) : Message :=
  { response.message with tool_calls := response.calls }

/-- The response that a run returns. -/
def Response.final (response : Response) : Response :=
  { response with message := response.assistantMessage, tool_calls := response.calls }

/-- The provider call of an iteration, with the reservation before it. -/
def callProvider (env : RunEnv) (inp : TurnInput) :
    RunM (Option (BudgetSnapshot × ℕ) × Response) := do
  let provider_context ← beforeProvider env inp
  let reservation ← reserveBudget provider_context
  let response ← requestProviderResponse env provider_context inp
  pure (reservation, response)

/-! ## The tool phase -/

/-- Whether a call names a registered read-only tool. -/
def isReadOnly (env : RunEnv) (call : ToolCall) : Bool :=
  match env.rt.tool_registry.get call.name with
  | some tool => tool.safety_tier = .readOnly
  -- a call of an unknown tool runs alone, and fails there
  | none => false

/-- The context of a turn's tool calls. -/
def turnToolContext (env : RunEnv) (s : RunState) : ToolExecutionContext :=
  { env.tool_context with
    provider := some s.context.provider
    model := some s.context.model
    policy := env.policy
    permission_handler := env.rt.permission_handler
    event_sender := env.tool_context.event_sender || env.stream_events
    turn := some (s.turn % 2^32)
    remaining_budget := s.budget_ledger.map BudgetLedger.remaining }

/-- The progress item before the tool calls. -/
def announceToolExecution (env : RunEnv) (calls : List ToolCall) : RunM Unit := do
  let s ← get
  let max_turns := env.rt.limits.max_turns
  let tool_names := calls.map ToolCall.name
  let names_display := String.intercalate ", " tool_names
  send env (.progress
    { kind := .toolExecution tool_names
      message := s!"[{s.turn}/{max_turns}] Executing tools: {names_display}"
      turn := s.turn
      max_turns := max_turns })

/-- What a call did, apart from its message. -/
def recordCall (call : ToolCall) (run : CallRun Message) : RunM Unit :=
  modify fun s => { s with
    events := s.events ++ run.events
    trace := s.trace ++ (match run.executed with
      | some args => [.toolExecuted call.name args]
      | none => []) }

/-- Each call of a batch, recorded. -/
def recordCalls : List (ToolCall × CallRun Message) → RunM Unit
  | [] => pure ()
  | (call, run) :: rest => do
    recordCall call run
    recordCalls rest

/-- The results of a batch, in the order of its calls; the first failure ends the run. -/
def commitResults (env : RunEnv) : List (ToolCall × CallRun Message) → RunM Unit
  | [] => pure ()
  | (_, run) :: rest => do
    let message ← Effect.ofExcept run.result
    commitMessage env message
    commitResults env rest

/-- A batch of calls: all of them run to their end, and then their results are taken. -/
def runBatch (env : RunEnv) (tool_context : ToolExecutionContext) (inp : TurnInput)
    (batch : List (ℕ × ToolCall)) : RunM Unit := do
  let runs := batch.map fun (i, call) =>
    (call, env.rt.executeToolAndFormat call tool_context (inp.calls i).race)
  recordCalls runs
  commitResults env runs

/-- The calls of a turn: read-only calls gather in a batch, which runs before the next call that is
not read-only, and at the end. -/
def runCalls (env : RunEnv) (tool_context : ToolExecutionContext) (inp : TurnInput) :
    List (ℕ × ToolCall) → List (ℕ × ToolCall) → RunM Unit
  | [], current_batch => runBatch env tool_context inp current_batch
  | (i, call) :: rest, current_batch =>
    if isReadOnly env call then
      runCalls env tool_context inp rest (current_batch ++ [(i, call)])
    else do
      -- the batch before this call has finished when the call starts
      runBatch env tool_context inp current_batch
      checkCancelled (inp.calls i).cancelled
      runBatch env tool_context inp [(i, call)]
      runCalls env tool_context inp rest []

/-- The tool phase. -/
def toolPhase (env : RunEnv) (inp : TurnInput) (calls : List ToolCall) : RunM Unit := do
  let s ← get
  announceToolExecution env calls
  runCalls env (turnToolContext env s) inp (Greedy.indexed calls) []

/-! ## One iteration, and a run -/

/-- Whether the budget ends the run after this turn: the ledger is exhausted, and the policy is
enforced. -/
def budgetStops (env : RunEnv) (s : RunState) : Bool :=
  s.budget_ledger.any BudgetLedger.isExhausted && env.enforced

/-- The item about an exhausted budget that does not end the run. -/
def tellExhausted (env : RunEnv) : RunM Unit := do
  let s ← get
  if s.budget_ledger.any BudgetLedger.isExhausted && env.softFails then
    send env (.policyEvent (.policyStop .maxBudgetExceeded))
  else pure ()

/-- An iteration from the response on. -/
def finishTurn (env : RunEnv) (inp : TurnInput) (response : Response) : RunM (Option Response) := do
  commitMessage env response.assistantMessage
  if response.calls = [] then pure (some response.final)
  else
    toolPhase env inp response.calls
    pure none

/-- One iteration of the loop: the response that ends the run, or `none`. -/
def runTurn (env : RunEnv) (inp : TurnInput) : RunM (Option Response) := do
  let (reservation, response) ← callProvider env inp
  if env.policy.isSome then
    settleTurn env reservation response.usage
    let s ← get
    if budgetStops env s then
      -- the message is kept with its calls, which are not run
      commitMessage env response.assistantMessage
      pure (some response.final)
    else
      tellExhausted env
      finishTurn env inp response
  else
    -- without a policy there is no ledger, and the runtime's own cost limit counts
    checkCostBudget env response.usage
    finishTurn env inp response

/-- Where a run is between two iterations. -/
inductive SessionState where
  | running (s : RunState)
  | done (result : Except RuntimeError Response) (s : RunState)

/-- The local state. -/
def SessionState.state : SessionState → RunState
  | .running s => s
  | .done _ s => s

/-- The response and the state of a run that succeeded. -/
def SessionState.success : SessionState → Option (Response × RunState)
  | .done (.ok response) s => some (response, s)
  | _ => none

/-- What an iteration leaves behind. -/
def SessionState.ofResult : EStateM.Result RuntimeError RunState (Option Response) → SessionState
  | .ok none s => .running s
  | .ok (some response) s => .done (.ok response) s
  | .error e s => .done (.error e) s

/-- One iteration of a run that is not over. -/
def sessionStep (env : RunEnv) : SessionState → TurnInput → Option SessionState
  | .running s, inp => some (.ofResult (runTurn env inp s))
  | .done _ _, _ => none

section

variable (env : RunEnv) (context : Context) (memory : SessionMemory)

/-- A run at the head of its loop, or over before it. -/
def startSession : SessionState :=
  match startRun env { context := context, memory := memory } with
  | .ok _ s => .running s
  | .error e s => .done (.error e) s

/-- All runs of `run_session_internal` on a context and a memory. -/
def sessionSystem :
    System SessionState TurnInput :=
  ofStep (fun st => st = startSession env context memory) (sessionStep env)

/-- `run_session_internal` on the inputs of its iterations, as far as they go. -/
def runSessionInternal (inputs : List TurnInput) : SessionState :=
  inputs.foldl (fun st inp => (sessionStep env st inp).getD st) (startSession env context memory)

end

/-! ## A small run -/

/-- A tool without parameters. -/
def plainTool (name : String) (tier : SafetyTier) : String × Tool :=
  (name, { schema := { name := name, parameters := .object [] }, safety_tier := tier })

/-- A runtime with a read-only tool and one that is not. -/
def toolRuntime : AgentRuntime :=
  { smallRuntime 2000 false with
    tool_registry := ⟨[plainTool "file_read" .readOnly, plainTool "shell_exec" .sideEffecting],
      16384, none⟩ }

/-- A policy with a budget and five turns, under which files may be read. -/
def readingPolicy (budget : ℕ) : EffectiveRunPolicy where
  started_at := 0
  initial_budget_microusd := budget
  remaining_budget_microusd := budget
  toolset := [{ name := "file_read", parameters := .object [] }]
  max_turns := some 5

/-- A run that may read files, on a budget. -/
def readingRun (budget : ℕ) : RunEnv where
  rt := toolRuntime
  policy := some (readingPolicy budget)

/-- A run like it, whose provider streams. -/
def streamingRun (budget max_turns : ℕ) : RunEnv where
  rt := { toolRuntime with
    provider := ⟨fun _ => .ok { supports_streaming := true, supports_tools := true }⟩ }
  policy := some { readingPolicy budget with max_turns := some max_turns }

/-- A call without arguments. -/
def plainCall (id name : String) : ToolCall where
  id := id
  name := name
  arguments := .object []

/-- An iteration in which the provider asks for calls, at ten micro-USD a token. -/
def reply (calls : List ToolCall) (tokens : ℕ) : TurnInput where
  response := .ok
    { message := { role := .assistant, tool_calls := calls }
      usage := some { total_tokens := some tokens } }

/-- A context in which the user has asked something. -/
def asked : Context where
  provider := "openai"
  model := "gpt-4o"
  messages := [{ role := .user, content := some "Any errors?" }]

end Oxydra
