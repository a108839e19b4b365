import Oxydra.Tools.Registry

/-!
# The agent runtime

`AgentRuntime` and `RuntimeLimits` of `crates/runtime/src/lib.rs`, with what the runtime calls and
does not define: the providers' capabilities, the tokenizer and the JSON texts that it counts, the
JSON-schema validator, and the translation and scrubbing of paths and secrets. The theorems hold for
every choice of these. Ratios and costs, `f64`s in the source, are rational numbers.
-/

namespace Oxydra

structure ContextBudgetLimits where
  trigger_ratio : ℚ := 17 / 20
  safety_buffer_tokens : ℕ := 1024
  fallback_max_context_tokens : ℕ := 128000
  deriving DecidableEq, Repr

structure SummarizationLimits where
  target_ratio : ℚ := 1 / 2
  min_turns : ℕ := 6
  deriving DecidableEq, Repr

/-- `RuntimeLimits`, with the turn timeout in nanoseconds and without the weights of a retrieval,
which only the memory reads. -/
structure RuntimeLimits where
  turn_timeout : ℕ := 60000000000
  max_turns : ℕ := 100
  max_cost : Option ℚ := none
  context_budget : ContextBudgetLimits := {}
  summarization : SummarizationLimits := {}
  deriving DecidableEq, Repr

/-- A `Provider`, by what it says of a model. Its responses are inputs of a run. -/
structure Provider where
  capabilities : String → Except ProviderError ProviderCaps

structure AgentRuntime where
  provider : Provider
  primary_selection : Option ProviderSelection := none
  /-- The further routes, under their route keys. -/
  selection_providers : List (String × Provider) := []
  tool_registry : ToolRegistry
  limits : RuntimeLimits := {}
  /-- Whether a memory, and with it the retrieval layer, is configured. -/
  memory : Bool := false
  memory_retrieval : Bool := false
  system_prompt : Option String := none
  permission_handler : Option ToolPermissionHandler := none
  /-- The number of tokens of a text, or `none` when the tokenizer cannot be initialized. -/
  count_tokens : Option (String → ℕ)
  /-- `serde_json::to_string` of a message and of a list of tool schemas. -/
  message_json : Message → String
  tools_json : List FunctionDecl → String
  /-- The errors of a value under a schema, or the reason why the schema does not compile. -/
  schema_errors : Value → Value → Except String (List String)
  /-- `translate_tool_arg_paths`, and `scrub_host_paths` followed by `scrub_tool_output`. -/
  translate_tool_arg_paths : String → Value → Value
  scrub : String → String

namespace AgentRuntime

variable (rt : AgentRuntime)

/-- `selection_route_key`. -/
def selectionRouteKey (provider model : String) : String := provider ++ "::" ++ model

/-- `provider_for_context`: a registered route, or the default provider unless a primary selection
says otherwise. -/
def providerForContext (context : Context) : Except RuntimeError Provider :=
  match rt.selection_providers.lookup (selectionRouteKey context.provider context.model) with
  | some provider => .ok provider
  | none =>
    match rt.primary_selection with
    | some primary =>
      if primary.provider ≠ context.provider ∨ primary.model ≠ context.model then
        .error (.provider (.requestFailed context.provider
          s!"provider/model route `{context.provider}`/`{context.model}` is not configured"))
      else .ok rt.provider
    | none => .ok rt.provider

/-- The capabilities of the provider that a context is routed to. -/
def capabilitiesFor (context : Context) : Except RuntimeError ProviderCaps :=
  match rt.providerForContext context with
  | .error e => .error e
  | .ok provider =>
    match provider.capabilities context.model with
    | .error e => .error (.provider e)
    | .ok caps => .ok caps

/-- `validate_guard_preconditions`. -/
def validateGuardPreconditions : Except RuntimeError Unit :=
  if rt.limits.turn_timeout = 0 ∨ rt.limits.max_turns = 0 then .error .budgetExceeded
  else
    match rt.limits.max_cost with
    | some max_cost => if max_cost ≤ 0 then .error .budgetExceeded else .ok ()
    | none => .ok ()

end AgentRuntime

/-- The total of a usage report: `total_tokens`, or what the parts add up to when that is not
zero. -/
def UsageUpdate.total (usage : UsageUpdate) : Option ℕ :=
  match usage.total_tokens with
  | some total => some total
  | none =>
    let aggregated := U64.saturatingAdd (usage.prompt_tokens.getD 0)
      (usage.completion_tokens.getD 0)
    if 0 < aggregated then some aggregated else none

/-- `DEFAULT_COST_PER_M_TOKENS_MICROUSD`: $10 per million tokens. -/
def defaultCostPerMTokensMicrousd : ℕ := 10000000

/-- The price of a number of tokens, with the multiplication modulo `2^64` of a release build. -/
def tokenCost (tokens : ℕ) : ℕ := U64.wrappingMul tokens defaultCostPerMTokensMicrousd / 1000000

/-- `turn_cost_microusd`: the price of the tokens that the provider reports. -/
def turnCostMicrousd (usage : Option UsageUpdate) : ℕ :=
  match usage.bind UsageUpdate.total with
  | some total_tokens => tokenCost total_tokens
  | none => 0

/-- `usage_to_cost`: without a policy, tokens are the unit of cost. -/
def usageToCost (usage : UsageUpdate) : Option ℚ := usage.total.map fun tokens => (tokens : ℚ)

/-- `enforce_cost_budget`: the new accumulated cost, or an error when it is too large or unknown. -/
def AgentRuntime.enforceCostBudget (rt : AgentRuntime) (usage : Option UsageUpdate)
    (accumulated_cost : ℚ) : ℚ × Except RuntimeError Unit :=
  match rt.limits.max_cost with
  | none => (accumulated_cost, .ok ())
  | some max_cost =>
    match usage.bind usageToCost with
    | none => (accumulated_cost, .error .budgetExceeded)
    | some turn_cost =>
      let accumulated_cost := accumulated_cost + turn_cost
      (accumulated_cost, if max_cost < accumulated_cost then .error .budgetExceeded else .ok ())

end Oxydra
