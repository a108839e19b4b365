import Mathlib.Data.Finset.Basic
import Mathlib.Data.Rat.Floor
import Oxydra.Library.Word
import Oxydra.Types.Model

/-!
# Run policies and their merge

The policy types of `crates/types/src/policy.rs`, with the layers that
`crates/types/src/policy_merge.rs` merges: the global configuration, the agent definition, and the
per-run overrides. A hash set of names is a `Finset String`; an instant is a number of nanoseconds
since the Unix epoch; a cost in USD, a finite `f64` in the source, is a rational number.

`chrono` panics when a duration or an instant leaves its range, so the functions that compute a
deadline return `none` there.
-/

namespace Oxydra

open Option

/-- An instant: nanoseconds since the Unix epoch. -/
abbrev Timestamp := ℤ

/-- `RolloutMode`: how a policy violation is handled. -/
inductive RolloutMode where
  | enforce
  | softFail
  | observeOnly
  deriving DecidableEq, Repr

structure ToolPolicyInput where
  toolset : Option (List String) := none
  auto_approve_tools : Option (List String) := none
  disallowed_tools : Option (List String) := none
  deriving DecidableEq, Repr

/-- `RunPolicyInput`: the per-run overrides, with `max_runtime` in nanoseconds. -/
structure RunPolicyInput where
  max_runtime : Option ℕ := none
  max_budget_microusd : Option ℕ := none
  max_turns : Option ℕ := none
  tool_policy : Option ToolPolicyInput := none
  deriving DecidableEq, Repr

/-- `EffectiveRunPolicy`: the policy that a run is held to. -/
structure EffectiveRunPolicy where
  started_at : Timestamp
  deadline : Option Timestamp := none
  initial_budget_microusd : ℕ
  remaining_budget_microusd : ℕ
  toolset : List FunctionDecl
  auto_approve_tools : Finset String := ∅
  disallowed_tools : Finset String := ∅
  parent_run_id : Option String := none
  max_turns : Option ℕ := none
  rollout_mode : RolloutMode := .enforce
  deriving DecidableEq

/-- `RuntimeConfig`, the fields that the merge reads. -/
structure RuntimeConfig where
  turn_timeout_secs : ℕ
  max_turns : ℕ
  max_cost : Option ℚ := none
  deriving DecidableEq, Repr

structure ProviderSelection where
  provider : String
  model : String
  deriving DecidableEq, Repr

structure AgentDefinition where
  system_prompt : Option String := none
  system_prompt_file : Option String := none
  selection : Option ProviderSelection := none
  tools : Option (List String) := none
  max_turns : Option ℕ := none
  max_cost : Option ℚ := none
  deriving DecidableEq, Repr

/-- The names of the tools of a toolset. -/
def toolNames (toolset : List FunctionDecl) : Finset String :=
  (toolset.map FunctionDecl.name).toFinset

/-! ## Limits -/

/-- `merge_max_turns`: the least of the limits that are set. -/
def mergeMaxTurns (global : RuntimeConfig) (agent : AgentDefinition) (per_run : RunPolicyInput) :
    Option ℕ :=
  let result := some global.max_turns
  let result := match agent.max_turns with
    | some agent_max => result.map (min · agent_max)
    | none => result
  match per_run.max_turns with
  | some per_run_max => result.map (min · per_run_max)
  | none => result

/-- `(c * 1_000_000.0) as u64`: rounded towards zero, and clamped to the range of `u64`. -/
def usdToMicrousd (c : ℚ) : ℕ := min ⌊c * 1000000⌋.toNat U64.max

/-- `merge_max_budget`: the least of the budgets that are set, or 0 when none is. -/
def mergeMaxBudget (global : RuntimeConfig) (agent : AgentDefinition) (per_run : RunPolicyInput) :
    ℕ :=
  let limits := [global.max_cost.map usdToMicrousd, agent.max_cost.map usdToMicrousd,
    per_run.max_budget_microusd].filterMap id
  limits.min?.getD 0

/-! ## The deadline -/

/-- `chrono::Duration::seconds`, in nanoseconds; it panics beyond `i64::MAX` milliseconds. -/
def chronoSeconds (secs : ℤ) : Option ℤ :=
  if |secs| ≤ (2^63 - 1) / 1000 then some (secs * 1000000000) else none

/-- `DateTime<Utc> + Duration`, which panics outside the years -262143 to 262142. -/
def addDuration (t : Timestamp) (d : ℤ) : Option Timestamp :=
  if -8334601228800 * 1000000000 ≤ t + d ∧ t + d < 8210266876800 * 1000000000 then some (t + d)
  else none

/-- A `u64` read as an `i64`. -/
def asI64 (n : ℕ) : ℤ := (n : ℤ).bmod (2^64)

/-- `merge_deadline`: the turn timeout times the turns, or the per-run limit when that is
shorter. -/
def mergeDeadline (global : RuntimeConfig) (per_run : RunPolicyInput)
    (effective_max_turns : Option ℕ) (now : Timestamp) : Option (Option Timestamp) :=
  let max_turns := effective_max_turns.getD global.max_turns
  let global_runtime_secs := min (global.turn_timeout_secs * max_turns) U64.max
  let runtime_secs := match per_run.max_runtime with
    -- whole seconds: a limit below one second is none
    | some per_run_max => min global_runtime_secs (per_run_max / 1000000000)
    | none => global_runtime_secs
  if 0 < runtime_secs then do
    let duration ← chronoSeconds (asI64 runtime_secs)
    let deadline ← addDuration now duration
    pure (some deadline)
  else some none

/-! ## Tools -/

/-- Keep the tools that a list names; an absent or empty list keeps every tool. -/
def retainNamed (names : Option (List String)) (toolset : List FunctionDecl) :
    List FunctionDecl :=
  match names with
  | some names => if names = [] then toolset else toolset.filter fun tool => tool.name ∈ names
  | none => toolset

/-- `merge_tool_policies`: the toolset, the disallowed names, and the auto-approved names. -/
def mergeToolPolicies (available_tools : List FunctionDecl)
    (agent_allowlist : Option (List String)) (per_run_tool_policy : Option ToolPolicyInput) :
    List FunctionDecl × Finset String × Finset String :=
  let toolset := retainNamed agent_allowlist available_tools
  let (toolset, disallowed_tools, auto_approve_tools) : _ × Finset String × Finset String :=
    match per_run_tool_policy with
    | none => (toolset, ∅, ∅)
    | some tool_policy =>
      let toolset := retainNamed tool_policy.toolset toolset
      let disallowed_tools := (tool_policy.disallowed_tools.getD []).toFinset
      let auto_approve_tools := match tool_policy.auto_approve_tools with
        | some auto_approve =>
          if auto_approve = [] then ∅ else toolNames toolset ∩ auto_approve.toFinset
        | none => ∅
      (toolset, disallowed_tools, auto_approve_tools)
  -- a disallowed name wins over every list
  let final_toolset := toolset.filter fun tool => tool.name ∉ disallowed_tools
  (final_toolset, disallowed_tools, auto_approve_tools ∩ toolNames final_toolset)

/-- `merge_policy`, with the two readings of the clock that it makes. -/
def mergePolicy (global : RuntimeConfig) (agent : AgentDefinition) (per_run : RunPolicyInput)
    (available_tools : List FunctionDecl) (now now' : Timestamp) : Option EffectiveRunPolicy := do
  let max_turns := mergeMaxTurns global agent per_run
  let initial_budget := mergeMaxBudget global agent per_run
  let deadline ← mergeDeadline global per_run max_turns now
  let (toolset, disallowed_tools, auto_approve_tools) :=
    mergeToolPolicies available_tools agent.tools per_run.tool_policy
  pure
    { started_at := now'
      deadline := deadline
      initial_budget_microusd := initial_budget
      remaining_budget_microusd := initial_budget
      toolset := toolset
      disallowed_tools := disallowed_tools
      auto_approve_tools := auto_approve_tools
      parent_run_id := none
      max_turns := max_turns
      rollout_mode := .enforce }

/-- Without a budget in any layer the merged budget is 0. -/
theorem mergeMaxBudget_unset {global : RuntimeConfig} {agent : AgentDefinition}
    {per_run : RunPolicyInput} (hglobal : global.max_cost = none) (hagent : agent.max_cost = none)
    (hrun : per_run.max_budget_microusd = none) : mergeMaxBudget global agent per_run = 0 := by
  simp [mergeMaxBudget, hglobal, hagent, hrun]

section

variable {global : RuntimeConfig} {agent : AgentDefinition} {per_run : RunPolicyInput}
  {available_tools : List FunctionDecl} {now now' : Timestamp} {p : EffectiveRunPolicy}

/-- What a merged policy takes from its layers, whatever the clock says. -/
theorem mergePolicy_spec (h : mergePolicy global agent per_run available_tools now now' = some p) :
    p.initial_budget_microusd = mergeMaxBudget global agent per_run ∧
      p.remaining_budget_microusd = mergeMaxBudget global agent per_run ∧
      p.max_turns = mergeMaxTurns global agent per_run ∧ p.rollout_mode = .enforce := by
  unfold mergePolicy at h
  cases hd : mergeDeadline global per_run (mergeMaxTurns global agent per_run) now with
  | none => simp [hd] at h
  | some deadline =>
    simp only [hd, bind_eq_bind, bind_some, pure_def, some.injEq] at h
    subst h
    exact ⟨rfl, rfl, rfl, rfl⟩

/-- The deadline and the tools of a merged policy. -/
theorem mergePolicy_parts (h : mergePolicy global agent per_run available_tools now now' = some p) :
    mergeDeadline global per_run (mergeMaxTurns global agent per_run) now = some p.deadline ∧
      mergeToolPolicies available_tools agent.tools per_run.tool_policy =
        (p.toolset, p.disallowed_tools, p.auto_approve_tools) := by
  unfold mergePolicy at h
  cases hd : mergeDeadline global per_run (mergeMaxTurns global agent per_run) now with
  | none => simp [hd] at h
  | some deadline =>
    simp only [hd, bind_eq_bind, bind_some, pure_def, some.injEq] at h
    subst h
    exact ⟨rfl, rfl⟩

end

end Oxydra
