import Oxydra.Types.Policy

/-!
# Policy resolution

`resolve_policy` of `crates/runtime/src/policy_guard.rs`: the per-run constraints and the tools that
they name are checked, the three layers are merged, and the merged policy is checked.
-/

namespace Oxydra

inductive PolicyValidationError where
  | zeroBudget
  | negativeMaxTurns
  | negativeMaxBudget
  | negativeMaxRuntime
  | emptyToolset
  | unknownTool (tool_name : String)
  | pastDeadline
  deriving DecidableEq, Repr

/-- The text of a validation error. -/
def PolicyValidationError.display : PolicyValidationError → String
  | .zeroBudget => "budget cannot be zero"
  | .negativeMaxTurns => "max_turns cannot be negative"
  | .negativeMaxBudget => "max_budget cannot be negative"
  | .negativeMaxRuntime => "max_runtime cannot be negative"
  | .emptyToolset => "no tools available after applying policy constraints"
  | .unknownTool tool_name => "unknown tool: " ++ tool_name
  | .pastDeadline => "deadline is in the past"

/-- `validate_per_run_constraints`. A negative number would have come in as a very large one. -/
def validatePerRunConstraints (per_run : RunPolicyInput) : Except PolicyValidationError Unit := do
  if per_run.max_turns = some (2^32 - 1) then
    throw .negativeMaxTurns
  if let some max_budget := per_run.max_budget_microusd then
    if max_budget = 0 then
      throw .zeroBudget
    if max_budget > U64.max / 2 then
      throw .negativeMaxBudget
  if let some max_runtime := per_run.max_runtime then
    if max_runtime / 1000000000 > 2^63 - 1 then
      throw .negativeMaxRuntime

/-- The first name of a list that no available tool has. -/
def checkKnown (available_names : Finset String) (names : Option (List String)) :
    Except PolicyValidationError Unit :=
  match (names.getD []).find? (· ∉ available_names) with
  | some tool_name => .error (.unknownTool tool_name)
  | none => .ok ()

/-- `validate_tool_references`: the disallowed names are not checked. -/
def validateToolReferences (per_run : RunPolicyInput) (available_tools : List FunctionDecl) :
    Except PolicyValidationError Unit := do
  let available_names := toolNames available_tools
  if let some tool_policy := per_run.tool_policy then
    checkKnown available_names tool_policy.toolset
    checkKnown available_names tool_policy.auto_approve_tools

/-- `validate_effective_policy`. -/
def validateEffectivePolicy (policy : EffectiveRunPolicy) : Except PolicyValidationError Unit := do
  if policy.initial_budget_microusd > 0 ∧
      policy.remaining_budget_microusd > policy.initial_budget_microusd then
    throw .negativeMaxBudget
  if policy.toolset = [] then
    throw .emptyToolset
  if let some deadline := policy.deadline then
    if deadline ≤ policy.started_at then
      throw .pastDeadline

/-- `resolve_policy`, with the three readings of the clock that it makes; `none` is a panic. -/
def resolvePolicy (global_config : RuntimeConfig) (agent_def : AgentDefinition)
    (per_run : RunPolicyInput) (available_tools : List FunctionDecl) (now now' now'' : Timestamp) :
    Option (Except PolicyValidationError EffectiveRunPolicy) :=
  match validatePerRunConstraints per_run, validateToolReferences per_run available_tools with
  | .error e, _ => some (.error e)
  | .ok _, .error e => some (.error e)
  | .ok _, .ok _ =>
    match mergePolicy global_config agent_def per_run available_tools now now' with
    | none => none
    | some policy =>
      let policy := { policy with started_at := now'' }
      match validateEffectivePolicy policy with
      | .error e => some (.error e)
      | .ok _ => some (.ok policy)

section

variable {global_config : RuntimeConfig} {agent_def : AgentDefinition} {per_run : RunPolicyInput}
  {available_tools : List FunctionDecl} {now now' now'' : Timestamp} {p : EffectiveRunPolicy}

/-- A resolved policy is the merged one, under a later start, and has passed its checks. -/
theorem resolvePolicy_merged
    (h : resolvePolicy global_config agent_def per_run available_tools now now' now'' =
      some (.ok p)) :
    ∃ merged, mergePolicy global_config agent_def per_run available_tools now now' = some merged ∧
      p = { merged with started_at := now'' } ∧ validateEffectivePolicy p = .ok () := by
  unfold resolvePolicy at h
  split at h
  · simp at h
  · simp at h
  · split at h
    · simp at h
    · next merged hmerge =>
      simp only at h
      split at h
      · simp at h
      · next hvalid =>
        obtain rfl : _ = p := by simpa using h
        exact ⟨merged, hmerge, rfl, hvalid⟩

/-- A resolved policy is the merged one, under a later start. -/
theorem resolvePolicy_spec
    (h : resolvePolicy global_config agent_def per_run available_tools now now' now'' =
      some (.ok p)) :
    p.initial_budget_microusd = mergeMaxBudget global_config agent_def per_run ∧
      p.remaining_budget_microusd = mergeMaxBudget global_config agent_def per_run ∧
      p.max_turns = mergeMaxTurns global_config agent_def per_run ∧ p.rollout_mode = .enforce := by
  obtain ⟨merged, hmerge, rfl, -⟩ := resolvePolicy_merged h
  have hspec := mergePolicy_spec hmerge
  exact hspec

/-- A per-run budget that is accepted is not zero. -/
theorem max_budget_ne_zero (h : validatePerRunConstraints per_run = .ok ()) :
    per_run.max_budget_microusd ≠ some 0 := by
  intro hzero
  unfold validatePerRunConstraints at h
  rw [hzero] at h
  by_cases hturns : per_run.max_turns = some (2^32 - 1)
  · rw [if_pos hturns] at h
    exact nomatch h
  · rw [if_neg hturns] at h
    exact nomatch h

/-- A policy with a budget of 0 does not resolve. -/
theorem resolvePolicy_budget
    (h : resolvePolicy global_config agent_def per_run available_tools now now' now'' =
      some (.ok p)) : per_run.max_budget_microusd ≠ some 0 := by
  unfold resolvePolicy at h
  split at h
  · simp at h
  · simp at h
  · next hconstraints _ => exact max_budget_ne_zero hconstraints

/-- The deadline and the tools of a resolved policy; there is a tool at least. -/
theorem resolvePolicy_parts
    (h : resolvePolicy global_config agent_def per_run available_tools now now' now'' =
      some (.ok p)) :
    mergeDeadline global_config per_run (mergeMaxTurns global_config agent_def per_run) now =
        some p.deadline ∧
      mergeToolPolicies available_tools agent_def.tools per_run.tool_policy =
        (p.toolset, p.disallowed_tools, p.auto_approve_tools) ∧
      p.toolset ≠ [] := by
  obtain ⟨merged, hmerge, rfl, hvalid⟩ := resolvePolicy_merged h
  obtain ⟨hdeadline, htools⟩ := mergePolicy_parts hmerge
  refine ⟨hdeadline, htools, fun hnil => ?_⟩
  unfold validateEffectivePolicy at hvalid
  simp only at hnil
  simp only [hnil] at hvalid
  split_ifs at hvalid <;> simp [bind, Except.bind, throw, throwThe, MonadExceptOf.throw] at hvalid

end

end Oxydra
