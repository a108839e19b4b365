import Oxydra.Library.Greedy
import Oxydra.Runtime.Agent

/-!
# The context budget

`prepare_provider_context` and the rolling summary of `crates/runtime/src/budget.rs`. The stored
summary state and the snippets that the memory retrieves are arguments here; the turn loop reads
them.

A provider context is made of the system messages, the summary, the retrieved snippets, and the part
of the history that the budget admits, newest first. `Runtime/ContextSelection.lean` says which part
that is.
-/

namespace Oxydra

/-- `MemorySummaryState`: what the rolling summary stands for. -/
structure MemorySummaryState where
  epoch : ℕ
  upper_sequence : ℕ
  summary : String
  deriving DecidableEq, Repr

/-- `MemoryHybridQueryResult`, the fields that the context shows. -/
structure MemoryHybridQueryResult where
  chunk_id : String
  text : String
  score : ℚ
  deriving DecidableEq, Repr

/-! ## Sequences and summaries -/

/-- `sequence_from_index`. -/
def sequenceFromIndex (index : ℕ) : ℕ := U64.saturatingAdd index 1

/-- `is_summarized_sequence`: whether the summary stands for the message at an index. -/
def isSummarizedSequence (summary_state : Option MemorySummaryState) (index : ℕ) : Bool :=
  match summary_state with
  | some state => 0 < state.upper_sequence && sequenceFromIndex index ≤ state.upper_sequence
  | none => false

/-- `ROLLING_SUMMARY_PREFIX`. -/
def rollingSummaryPrefix : String := "Rolling session summary:"

/-- `summary_state_message`. -/
def summaryStateMessage (state : MemorySummaryState) : Option Message :=
  let summary := Text.trim state.summary
  if summary = "" then none
  else some { role := .system, content := some (rollingSummaryPrefix ++ "\n" ++ summary) }

/-- `message_role_label`. -/
def messageRoleLabel : MessageRole → String
  | .system => "system"
  | .user => "user"
  | .assistant => "assistant"
  | .tool => "tool"

/-- `summary_message_content`. -/
def summaryMessageContent (message : Message) : String :=
  let normalized := Text.normalizeWhitespace (message.content.getD "")
  let content :=
    if normalized = "" then
      if message.tool_calls = [] then "[no text]"
      else
        let names := String.intercalate ", " (message.tool_calls.map ToolCall.name)
        s!"[tool calls: {names}]"
    else normalized
  Text.ellipsize 180 content

/-- `compose_rolling_summary`: at most 24 of the summarized entries are told. -/
def composeRollingSummary (previous : Option MemorySummaryState)
    (summarized_entries : List (ℕ × Message × ℕ)) : String :=
  let existing := match previous with
    | some previous => Text.trim previous.summary
    | none => ""
  let head := if existing = "" then "" else existing ++ "\n"
  let lines := (summarized_entries.take 24).map fun (sequence, message, _) =>
    s!"- [{sequence}] {messageRoleLabel message.role}: {summaryMessageContent message}"
  -- the newline after the last line is popped
  let summary := head ++ String.intercalate "\n" ("Recent condensed turns:" :: lines)
  Text.ellipsize 4000 summary

/-! ## Retrieval -/

/-- A text without the white space around it, if there is any text. -/
def trimmedContent (content : String) : Option String :=
  let trimmed := Text.trim content
  if trimmed = "" then none else some trimmed

/-- `latest_retrieval_query`: the latest user text, or else the latest text. -/
def latestRetrievalQuery (context : Context) : Option String :=
  let from_latest_user := context.messages.reverse.findSome? fun message =>
    if message.role = .user then trimmedContent (message.content.getD "") else none
  match from_latest_user with
  | some query => some query
  | none => context.messages.reverse.findSome? fun message => message.content.bind trimmedContent

/-- The line that shows a snippet. -/
def snippetLine (snippet : MemoryHybridQueryResult) : String :=
  let truncated := Text.ellipsize 240 (Text.normalizeWhitespace snippet.text)
  s!"- [{snippet.chunk_id} score={Text.fixed3 snippet.score}] {truncated}\n"

/-- The message that shows the retrieved snippets. -/
def retrievedMemoryMessage (snippets : List MemoryHybridQueryResult) : Option Message :=
  if snippets = [] then none
  else
    let memory_block := "Retrieved memory snippets:\n" ++ String.join (snippets.map snippetLine)
    some { role := .system, content := some (Text.trimEnd memory_block) }

namespace AgentRuntime

variable (rt : AgentRuntime)

/-- `fetch_retrieved_memory_message`, with the memory's `hybrid_query` of the session. -/
def fetchRetrievedMemoryMessage (session_id : Option String) (context : Context)
    (hybrid_query : String → Except MemoryError (List MemoryHybridQueryResult)) :
    Except RuntimeError (Option Message) :=
  if rt.memory_retrieval && session_id.isSome then
    match latestRetrievalQuery context with
    | none => .ok none
    | some query =>
      match hybrid_query query with
      | .error e => .error (.memory e)
      | .ok snippets => .ok (retrievedMemoryMessage snippets)
  else .ok none

/-! ## Token estimates -/

/-- `estimate_text_tokens`. -/
def estimateTextTokens (text : String) : Except RuntimeError ℕ :=
  match rt.count_tokens with
  | some count => .ok (count text)
  | none => .error .budgetExceeded

/-- `estimate_message_tokens`. -/
def estimateMessageTokens (message : Message) : Except RuntimeError ℕ :=
  rt.estimateTextTokens (rt.message_json message)

/-- `estimate_messages_tokens`. -/
def estimateMessagesTokens (messages : List Message) : Except RuntimeError ℕ :=
  messages.foldlM (fun accumulator message => do
    let tokens ← rt.estimateMessageTokens message
    pure (U64.saturatingAdd accumulator tokens)) 0

/-- `estimate_tool_schema_tokens`. -/
def estimateToolSchemaTokens (context : Context) : Except RuntimeError ℕ :=
  rt.estimateTextTokens (rt.tools_json context.tools)

/-- `resolve_max_context_tokens`. -/
def resolveMaxContextTokens (context : Context) : Except RuntimeError ℕ := do
  let caps ← rt.capabilitiesFor context
  pure (caps.max_context_tokens.getD rt.limits.context_budget.fallback_max_context_tokens)

/-- `is_obviously_within_budget`: three bytes a token, and no attachments. -/
def isObviouslyWithinBudget (context : Context) (max_context_tokens safety_buffer_tokens : ℕ) :
    Bool :=
  let available_tokens := max_context_tokens - safety_buffer_tokens
  let rough_char_budget := min (available_tokens * 3) U64.max
  let message_chars := (context.messages.map fun m => (m.content.getD "").utf8ByteSize).sum
  context.messages.all (fun m => m.attachments = []) && available_tokens ≠ 0 &&
    U64.saturatingAdd message_chars (rt.tools_json context.tools).utf8ByteSize ≤ rough_char_budget

/-! ## Selection -/

/-- One step of `select_messages_within_budget`, on the messages selected so far, newest last, and
their tokens: a message that does not fit is passed over. -/
def admitMessage (budget already_used : ℕ) (acc : List Message × ℕ) (message : Message) :
    Except RuntimeError (List Message × ℕ) := do
  let message_tokens ← rt.estimateMessageTokens message
  if U64.saturatingAdd (U64.saturatingAdd already_used acc.2) message_tokens ≤ budget then
    pure (message :: acc.1, U64.saturatingAdd acc.2 message_tokens)
  -- older messages may still fit
  else pure acc

/-- `select_messages_within_budget`, from the newest message to the oldest. -/
def selectMessagesWithinBudget (messages : List Message) (budget already_used : ℕ) :
    Except RuntimeError (List Message × ℕ) :=
  if budget ≤ already_used then .ok ([], 0)
  else messages.reverse.foldlM (rt.admitMessage budget already_used) ([], 0)

/-- The retrieved snippets and their tokens, if they fit beside what is fixed. -/
def admitRetrieved (retrieval_message : Option Message) (static_tokens max_context_tokens : ℕ) :
    Except RuntimeError (List Message × ℕ) :=
  match retrieval_message with
  | none => .ok ([], 0)
  | some message => do
    let candidate_tokens ← rt.estimateMessageTokens message
    if U64.saturatingAdd static_tokens candidate_tokens ≤ max_context_tokens then
      pure ([message], candidate_tokens)
    else pure ([], 0)

/-- The system messages of a context, and the summary after them. -/
def systemMessages (context : Context) (summary_state : Option MemorySummaryState) :
    List Message :=
  context.messages.filter (fun m => m.role = .system) ++
    (summary_state.bind summaryStateMessage).toList

/-- The history that the summary does not stand for, with its indices. -/
def unsummarized (context : Context) (summary_state : Option MemorySummaryState) :
    List (ℕ × Message) :=
  (Greedy.indexed context.messages).filter fun (index, m) =>
    m.role ≠ .system && !isSummarizedSequence summary_state index

/-- What `prepare_provider_context` has settled before it looks at the history. -/
structure ContextPlan where
  retrieved_messages : List Message
  retrieved_memory_tokens : ℕ
  tool_schema_tokens : ℕ
  message_budget : ℕ
  selected_system : List Message
  system_tokens : ℕ

/-- `prepare_provider_context` up to the history: the fixed tokens, the snippets, and the system
messages. -/
def planContext (context : Context) (max_context_tokens : ℕ)
    (summary_state : Option MemorySummaryState) (fetched : Except RuntimeError (Option Message)) :
    Except RuntimeError ContextPlan := do
  let tool_schema_tokens ← rt.estimateToolSchemaTokens context
  let static_tokens := U64.saturatingAdd tool_schema_tokens
    rt.limits.context_budget.safety_buffer_tokens
  if max_context_tokens < static_tokens then
    throw .budgetExceeded
  else
    -- the snippets come before the system messages, and take from their budget
    let retrieval_message ← fetched
    let (retrieved_messages, retrieved_memory_tokens) ←
      rt.admitRetrieved retrieval_message static_tokens max_context_tokens
    let message_budget := max_context_tokens - static_tokens - retrieved_memory_tokens
    let (selected_system, system_tokens) ←
      rt.selectMessagesWithinBudget (systemMessages context summary_state) message_budget 0
    pure ⟨retrieved_messages, retrieved_memory_tokens, tool_schema_tokens, message_budget,
      selected_system, system_tokens⟩

/-- The latest user message of a history. -/
def latestUser (history_messages : List Message) : Option Message :=
  history_messages.reverse.find? fun m => m.role = .user

/-- `prepare_provider_context` from the history on: the part of it that fits, if that holds its
latest user message, and the total within the limit. -/
def selectHistory (context : Context) (max_context_tokens : ℕ) (history_messages : List Message)
    (plan : ContextPlan) : Except RuntimeError Context := do
  let (selected_history, history_tokens) ←
    rt.selectMessagesWithinBudget history_messages plan.message_budget plan.system_tokens
  let total_tokens := U64.saturatingAdd (U64.saturatingAdd (U64.saturatingAdd (U64.saturatingAdd
    plan.system_tokens plan.retrieved_memory_tokens) history_tokens) plan.tool_schema_tokens)
    rt.limits.context_budget.safety_buffer_tokens
  -- the messages are compared by value, not by place
  if (latestUser history_messages).any fun m => m ∉ selected_history then
    throw .budgetExceeded
  else if max_context_tokens < total_tokens then
    throw .budgetExceeded
  else
    pure { context with
      messages := plan.selected_system ++ plan.retrieved_messages ++ selected_history }

/-- Whether `prepare_provider_context` passes the context on as it is. -/
def fastPath (context : Context) (max_context_tokens : ℕ)
    (summary_state : Option MemorySummaryState) : Bool :=
  !rt.memory_retrieval && summary_state.isNone &&
    rt.isObviouslyWithinBudget context max_context_tokens
      rt.limits.context_budget.safety_buffer_tokens

/-- `prepare_provider_context`, on the answers of the memory to the reads that it makes. -/
def prepareProviderContext (context : Context)
    (loaded : Except RuntimeError (Option MemorySummaryState))
    (fetched : Except RuntimeError (Option Message)) : Except RuntimeError Context := do
  let max_context_tokens ← rt.resolveMaxContextTokens context
  let summary_state ← loaded
  if rt.fastPath context max_context_tokens summary_state then
    pure context
  else
    let plan ← rt.planContext context max_context_tokens summary_state fetched
    rt.selectHistory context max_context_tokens ((unsummarized context summary_state).map Prod.snd)
      plan

/-! ## The rolling summary -/

/-- The loop of `maybe_trigger_rolling_summary`: how many of the oldest messages to summarize,
leaving two. -/
def summarizeCount (target_tokens : ℕ) : List ℕ → ℕ → ℕ
  | tokens :: rest, remaining_total =>
    if target_tokens < remaining_total ∧ 2 < rest.length + 1 then
      summarizeCount target_tokens rest (remaining_total - tokens) + 1
    else 0
  | [], _ => 0

/-- `maybe_trigger_rolling_summary` up to its write: the expected epoch and the new state, if a
summary is due. -/
def rollingSummary (context : Context)
    (loaded : Except RuntimeError (Option MemorySummaryState))
    (fetched : Except RuntimeError (Option Message)) :
    Except RuntimeError (Option (ℕ × MemorySummaryState)) := do
  if context.messages.length < rt.limits.summarization.min_turns then
    return none
  let summary_state ← loaded
  let unsummarized_history ← (unsummarized context summary_state).mapM fun (index, message) => do
    let message_tokens ← rt.estimateMessageTokens message
    pure (sequenceFromIndex index, message, message_tokens)
  if unsummarized_history.length < rt.limits.summarization.min_turns then
    return none
  let system_tokens ← rt.estimateMessagesTokens (systemMessages context summary_state)
  let history_tokens := unsummarized_history.foldl
    (fun accumulator entry => U64.saturatingAdd accumulator entry.2.2) 0
  let retrieval_message ← fetched
  let retrieved_memory_tokens ← match retrieval_message with
    | some message => rt.estimateMessageTokens message
    | none => pure 0
  let tool_schema_tokens ← rt.estimateToolSchemaTokens context
  let max_context_tokens ← rt.resolveMaxContextTokens context
  let total_tokens := U64.saturatingAdd (U64.saturatingAdd (U64.saturatingAdd (U64.saturatingAdd
    system_tokens history_tokens) retrieved_memory_tokens) tool_schema_tokens)
    rt.limits.context_budget.safety_buffer_tokens
  let utilization : ℚ :=
    if max_context_tokens = 0 then 0 else (total_tokens : ℚ) / max_context_tokens
  if utilization ≤ rt.limits.context_budget.trigger_ratio then
    return none
  let target_tokens := min ⌊(max_context_tokens : ℚ) * rt.limits.summarization.target_ratio⌋.toNat
    U64.max
  let summarize_count := summarizeCount target_tokens
    (unsummarized_history.map fun entry => entry.2.2) total_tokens
  if summarize_count = 0 then
    return none
  let summarized_entries := unsummarized_history.take summarize_count
  let upper_sequence := match summarized_entries.getLast? with
    | some entry => entry.1
    | none => 0
  let expected_epoch := match summary_state with
    | some state => state.epoch
    | none => 0
  if U64.max ≤ expected_epoch then
    throw .budgetExceeded
  return some (expected_epoch,
    { epoch := expected_epoch + 1
      upper_sequence := upper_sequence
      summary := composeRollingSummary summary_state summarized_entries })

end AgentRuntime

/-! ## A small runtime -/

/-- The JSON text of an object whose fields are given as JSON texts. -/
def plainObject (fields : List String) : String :=
  "\x7b" ++ String.intercalate "," fields ++ "\x7d"

/-- The JSON text of a field whose value needs no escapes. -/
def plainField (key text : String) : String := "\"" ++ key ++ "\":\"" ++ text ++ "\""

/-- The JSON text of an object whose values are texts that need no escapes. -/
def plainArguments : Value → String
  | .object fields =>
    plainObject (fields.filterMap fun (key, value) => value.asStr.map (plainField key))
  | _ => "null"

/-- The JSON text of a message without attachments whose texts need no escapes and whose calls have
such arguments. -/
def plainMessageJson (m : Message) : String :=
  let call := fun (c : ToolCall) => plainObject
    [plainField "id" c.id, plainField "name" c.name, "\"arguments\":" ++ plainArguments c.arguments]
  plainObject ([plainField "role" (messageRoleLabel m.role)] ++
    (m.content.map (plainField "content")).toList ++
    (if m.tool_calls = [] then []
      else ["\"tool_calls\":[" ++ String.intercalate "," (m.tool_calls.map call) ++ "]"]) ++
    (m.tool_call_id.map (plainField "tool_call_id")).toList)

/-- The JSON text of schemas without descriptions and parameters. -/
def plainToolsJson (tools : List FunctionDecl) : String :=
  let decl := fun (d : FunctionDecl) =>
    plainObject [plainField "name" d.name, "\"parameters\":\x7b\x7d"]
  "[" ++ String.intercalate "," (tools.map decl) ++ "]"

/-- A runtime on a model with a small context window, at four bytes a token. -/
def smallRuntime (max_context_tokens : ℕ) (retrieval : Bool) : AgentRuntime where
  provider := ⟨fun _ => .ok { supports_tools := true, max_context_tokens := max_context_tokens }⟩
  tool_registry := ⟨[], 16384, none⟩
  limits := { context_budget := { safety_buffer_tokens := 0 } }
  memory := retrieval
  memory_retrieval := retrieval
  count_tokens := some fun text => (text.utf8ByteSize + 3) / 4
  message_json := plainMessageJson
  tools_json := plainToolsJson
  schema_errors := fun _ _ => .ok []
  translate_tool_arg_paths := fun _ args => args
  scrub := id

end Oxydra
