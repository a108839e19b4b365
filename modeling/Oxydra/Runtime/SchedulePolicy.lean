import Mathlib.Data.Finset.Sort
import Mathlib.Data.String.Basic
import Oxydra.Runtime.PolicyGuard

/-!
# The policy of a scheduled run

`resolve_schedule_policy` of `crates/runtime/src/scheduler_executor.rs`, and the snapshot of a
policy that `ScheduleCreateTool::execute` (`crates/tools/src/scheduler_tools.rs`) stores with a
schedule. The stored policy is merged with the scheduler's own limits and resolved against the tools
that are registered by then. When that fails, the run gets the scheduler's limits alone, and when
these fail too it gets no policy. A budget of 0 is no limit: `snapshotPolicy` stores none for it.

`Within` says that a run has no more authority than its stored policy; `schedule_within_iff` says
exactly when `resolve_schedule_policy` keeps to it.
-/

namespace Oxydra

open Option

/-- What the executor computes of a cost limit, which is an `f64`: whether it is positive, and its
micro-USD as a `u64`. The product of floats is rounded, and the cast cuts it off; of a limit that is
not positive it makes 0. -/
structure CostLimit where
  positive : Bool
  microusd : ℕ
  bounded : microusd ≤ U64.max
  zero : positive = false → microusd = 0
  deriving DecidableEq, Repr

/-- `SchedulerConfig`, the fields that a run's policy is made of. -/
structure SchedulerConfig where
  max_turns : ℕ := 10
  max_cost : CostLimit := ⟨true, 500000, by decide, by decide⟩
  deriving DecidableEq, Repr

/-- The readings of the clock in one resolution of a policy. -/
abbrev ClockReadings := Timestamp × Timestamp × Timestamp

namespace SchedulerConfig

variable (config : SchedulerConfig)

/-- `max_turns as u32`. -/
def turns : ℕ := config.max_turns % 2^32

/-- The scheduler's limits as the global layer, whose cost limit comes to the same micro-USD. -/
def globalConfig : RuntimeConfig where
  turn_timeout_secs := 60
  max_turns := config.turns
  max_cost := some (config.max_cost.microusd / 1000000)

/-- The scheduler's budget, if its cost limit is positive. -/
def defaultBudget : Option ℕ :=
  if config.max_cost.positive then some config.max_cost.microusd else none

/-- The stored policy, with the scheduler's limits where it has none. -/
def mergedPerRun (per_run : RunPolicyInput) : RunPolicyInput where
  max_turns := (per_run.max_turns.map (min · config.turns)).or (some config.turns)
  -- the merge takes the minimum with the global layer
  max_budget_microusd := per_run.max_budget_microusd.or config.defaultBudget
  max_runtime := per_run.max_runtime
  tool_policy := per_run.tool_policy

/-- The scheduler's limits alone. -/
def fallbackPerRun : RunPolicyInput where
  max_turns := some config.turns
  max_budget_microusd := config.defaultBudget

/-- The resolution of the stored policy. -/
def resolveStored (per_run : RunPolicyInput) (available_tools : List FunctionDecl)
    (clock : ClockReadings) : Option (Except PolicyValidationError EffectiveRunPolicy) :=
  resolvePolicy config.globalConfig {} (config.mergedPerRun per_run) available_tools
    clock.1 clock.2.1 clock.2.2

/-- The resolution of the scheduler's limits alone. -/
def resolveFallback (available_tools : List FunctionDecl) (clock : ClockReadings) :
    Option (Except PolicyValidationError EffectiveRunPolicy) :=
  resolvePolicy config.globalConfig {} config.fallbackPerRun available_tools
    clock.1 clock.2.1 clock.2.2

/-- `resolve_schedule_policy`, with the readings of the clock in its two resolutions. The inner
`none` is a run without a policy; the outer one is a panic. -/
def resolveSchedulePolicy (policy : Option RunPolicyInput) (available_tools : List FunctionDecl)
    (clock clock' : ClockReadings) : Option (Option EffectiveRunPolicy) :=
  match config.resolveStored (policy.getD {}) available_tools clock with
  | none => none
  | some (.ok p) => some (some p)
  | some (.error _) =>
    -- the stored policy is dropped as a whole
    match config.resolveFallback available_tools clock' with
    | none => none
    | some (.ok p) => some (some p)
    | some (.error _) => some none

/-- The reading of the clock from which the resolved policy's deadline is counted. -/
def resolvedAt (policy : Option RunPolicyInput) (available_tools : List FunctionDecl)
    (clock clock' : ClockReadings) : Timestamp :=
  match config.resolveStored (policy.getD {}) available_tools clock with
  | some (.ok _) => clock.1
  | _ => clock'.1

end SchedulerConfig

/-- The policy that `ScheduleCreateTool::execute` stores for a run under `p`. The sets are listed in
the order of their names, where the source has no order. -/
def snapshotPolicy (p : EffectiveRunPolicy) : RunPolicyInput where
  max_runtime := p.deadline.map fun d => ((d - p.started_at) / 1000000000).toNat * 1000000000
  max_budget_microusd :=
    if 0 < p.initial_budget_microusd then some p.initial_budget_microusd else none
  max_turns := p.max_turns
  tool_policy := some
    { toolset := some (p.toolset.map FunctionDecl.name)
      auto_approve_tools := some p.auto_approve_tools.sort
      disallowed_tools := some p.disallowed_tools.sort }

/-! ## Authority -/

/-- What a run may do: the tools that it is shown, the names that are disallowed, and its limits. -/
structure Authority where
  tools : List FunctionDecl
  disallowed : Finset String
  budget : Option ℕ
  turns : Option ℕ
  deadline : Option Timestamp

/-- A budget of an effective policy as a limit: 0 is none. -/
def budgetLimit (budget : ℕ) : Option ℕ := if budget = 0 then none else some budget

/-- The authority that a policy gives; without one, a run is shown every tool and has no limit of
its own. -/
def authorityOf (available_tools : List FunctionDecl) : Option EffectiveRunPolicy → Authority
  | some p =>
    ⟨p.toolset, p.disallowed_tools, budgetLimit p.initial_budget_microusd, p.max_turns, p.deadline⟩
  | none => ⟨available_tools, ∅, none, none, none⟩

/-- The names of a stored policy's toolset, if it has one, and of the tools that it disallows. -/
def RunPolicyInput.toolset (stored : RunPolicyInput) : Option (List String) :=
  stored.tool_policy.bind ToolPolicyInput.toolset

def RunPolicyInput.disallowed (stored : RunPolicyInput) : List String :=
  (stored.tool_policy.bind ToolPolicyInput.disallowed_tools).getD []

/-- A limit is there and at most `bound`, if there is a bound. -/
def Limited (bound limit : Option ℕ) : Prop := ∀ n ∈ bound, ∃ k ∈ limit, k ≤ n

/-- An authority within a stored policy, with the runtime counted from `now`. -/
structure Within (stored : RunPolicyInput) (now : Timestamp) (a : Authority) : Prop where
  toolset : ∀ names ∈ stored.toolset, ∀ tool ∈ a.tools, tool.name ∈ names
  disallowed : ∀ name ∈ stored.disallowed, name ∈ a.disallowed
  budget : Limited stored.max_budget_microusd a.budget
  turns : Limited stored.max_turns a.turns
  runtime : ∀ r ∈ stored.max_runtime, ∃ d ∈ a.deadline, d ≤ now + r

/-! ## When a run keeps to its stored policy -/

/-- The turn limit of a run whose stored policy resolves. -/
def SchedulerConfig.turnLimit (config : SchedulerConfig) (stored : RunPolicyInput) : ℕ :=
  match stored.max_turns with
  | some n => min n config.turns
  | none => config.turns

/-- The condition: the stored policy resolves, its toolset is not the empty list, a budget of it does
not meet a cost limit of 0, and its runtime is a second at least for a turn at least; or it does not
resolve, and the scheduler's own limits, or a run without a policy, are within it all the same. -/
def KeepsStored (config : SchedulerConfig) (stored : RunPolicyInput)
    (available_tools : List FunctionDecl) (clock clock' : ClockReadings) : Prop :=
  match config.resolveStored stored available_tools clock with
  | some (.ok _) => stored.toolset ≠ some [] ∧
      (stored.max_budget_microusd ≠ none → 0 < config.max_cost.microusd) ∧
      ∀ r ∈ stored.max_runtime, 1000000000 ≤ r ∧ 0 < config.turnLimit stored
  | _ => (∀ names ∈ stored.toolset, ∀ tool ∈ available_tools, tool.name ∈ names) ∧
      stored.disallowed = [] ∧
      match config.resolveFallback available_tools clock' with
      | some (.ok _) => (∀ b ∈ stored.max_budget_microusd,
            0 < config.max_cost.microusd ∧ config.max_cost.microusd ≤ b) ∧
          (∀ n ∈ stored.max_turns, config.turns ≤ n) ∧
          ∀ r ∈ stored.max_runtime, 0 < config.turns ∧ 60 * config.turns * 1000000000 ≤ r
      | _ => stored.max_budget_microusd = none ∧ stored.max_turns = none ∧
          stored.max_runtime = none

section

variable {config : SchedulerConfig} {stored : RunPolicyInput} {available_tools : List FunctionDecl}
  {clock : ClockReadings} {p : EffectiveRunPolicy}

/-- The seconds of a merged runtime. -/
def runtimeSecs (global_secs : ℕ) : Option ℕ → ℕ
  | some r => min global_secs (r / 1000000000)
  | none => global_secs

theorem runtimeSecs_le (global_secs : ℕ) (max_runtime : Option ℕ) :
    runtimeSecs global_secs max_runtime ≤ global_secs := by
  cases max_runtime with
  | none => exact le_rfl
  | some r => exact Nat.min_le_left _ _

/-- A deadline that is a small number of seconds away. -/
theorem deadline_of_secs {secs : ℕ} (hsmall : secs < 2^63) {now : Timestamp}
    {deadline : Option Timestamp}
    (h : (if 0 < secs then do
        let duration ← chronoSeconds (asI64 secs)
        let deadline ← addDuration now duration
        pure (some deadline)
      else some none) = some deadline) :
    deadline = if 0 < secs then some (now + secs * 1000000000) else none := by
  split_ifs at h ⊢ with hpos
  · have hread : asI64 secs = secs := by
      unfold asI64
      rw [Int.bmod_eq_of_le] <;> omega
    rw [hread] at h
    simp only [bind_eq_bind, bind_eq_some_iff, pure_def,
      some.injEq] at h
    obtain ⟨duration, hduration, deadline', hadd, rfl⟩ := h
    simp only [chronoSeconds] at hduration
    split_ifs at hduration
    simp only [addDuration] at hadd
    split_ifs at hadd
    rw [← some.inj hadd, ← some.inj hduration]
  · exact (some.inj h).symm

/-- The deadline of a merge whose global runtime is a small number of seconds. -/
theorem mergeDeadline_eq {global : RuntimeConfig} {per_run : RunPolicyInput} {turns : ℕ}
    {now : Timestamp} {deadline : Option Timestamp}
    (hsmall : global.turn_timeout_secs * turns < 2^63)
    (h : mergeDeadline global per_run (some turns) now = some deadline) :
    deadline = if 0 < runtimeSecs (global.turn_timeout_secs * turns) per_run.max_runtime then
      some (now + (runtimeSecs (global.turn_timeout_secs * turns) per_run.max_runtime : ℕ) *
        1000000000) else none := by
  have hmax : (2 : ℕ)^63 ≤ U64.max := by decide
  have hcap : min (global.turn_timeout_secs * turns) U64.max = global.turn_timeout_secs * turns :=
    Nat.min_eq_left (by omega)
  have hle := runtimeSecs_le (global.turn_timeout_secs * turns) per_run.max_runtime
  refine deadline_of_secs (by omega) ?_
  simp only [mergeDeadline, getD_some, hcap] at h
  rw [← h]
  cases per_run.max_runtime <;> rfl

/-- The scheduler's turns are a `u32`. -/
theorem SchedulerConfig.turns_lt (config : SchedulerConfig) : config.turns < 2^32 :=
  Nat.mod_lt _ (by decide)

/-- The turn limit of the merged layers. -/
theorem mergeMaxTurns_merged :
    mergeMaxTurns config.globalConfig {} (config.mergedPerRun stored) =
      some (config.turnLimit stored) := by
  unfold mergeMaxTurns SchedulerConfig.mergedPerRun SchedulerConfig.globalConfig
    SchedulerConfig.turnLimit
  cases stored.max_turns with
  | none => simp
  | some n => simp

/-- The global layer has the micro-USD of the cost limit. -/
theorem usdToMicrousd_globalConfig :
    config.globalConfig.max_cost.map usdToMicrousd = some config.max_cost.microusd := by
  have hcost : (config.max_cost.microusd / 1000000 : ℚ) * 1000000 = config.max_cost.microusd := by
    rw [div_mul_cancel₀]
    norm_num
  simp only [SchedulerConfig.globalConfig, map_some, usdToMicrousd, hcost, Int.floor_natCast,
    Int.toNat_natCast, Nat.min_eq_left config.max_cost.bounded]

/-- The budget of the merged layers is the least of the cost limit and the stored one. -/
theorem mergeMaxBudget_merged {b : ℕ} (hb : stored.max_budget_microusd = some b) :
    mergeMaxBudget config.globalConfig {} (config.mergedPerRun stored) =
      min config.max_cost.microusd b := by
  simp [mergeMaxBudget, SchedulerConfig.mergedPerRun, usdToMicrousd_globalConfig, hb]

/-- The budget of the scheduler's limits alone. -/
theorem mergeMaxBudget_fallback :
    mergeMaxBudget config.globalConfig {} config.fallbackPerRun = config.max_cost.microusd := by
  unfold mergeMaxBudget SchedulerConfig.fallbackPerRun SchedulerConfig.defaultBudget
  rw [usdToMicrousd_globalConfig]
  split_ifs <;> simp

/-- A limit that a budget of an effective policy gives. -/
theorem limited_budgetLimit {bound : Option ℕ} {budget : ℕ} :
    Limited bound (budgetLimit budget) ↔ ∀ b ∈ bound, 0 < budget ∧ budget ≤ b := by
  unfold Limited budgetLimit
  refine forall₂_congr fun b _ => ?_
  split_ifs with hzero
  · simp [hzero]
  · simp [Nat.pos_of_ne_zero hzero]

/-- The tools of the merged layers: those that the stored policy names, unless it names none. -/
theorem mem_mergedTools {tool_policy : Option ToolPolicyInput} {toolset : List FunctionDecl}
    {disallowed auto_approve : Finset String}
    (h : mergeToolPolicies available_tools none tool_policy = (toolset, disallowed, auto_approve)) :
    disallowed = ((tool_policy.bind ToolPolicyInput.disallowed_tools).getD []).toFinset ∧
      toolset = (retainNamed (tool_policy.bind ToolPolicyInput.toolset) available_tools).filter
        fun tool => tool.name ∉ disallowed := by
  unfold mergeToolPolicies at h
  cases tool_policy with
  | none =>
    simp only [Prod.mk.injEq] at h
    obtain ⟨rfl, rfl, -⟩ := h
    exact ⟨rfl, rfl⟩
  | some tool_policy =>
    simp only [Prod.mk.injEq] at h
    obtain ⟨rfl, rfl, -⟩ := h
    exact ⟨rfl, rfl⟩

/-- A stored policy that resolves is kept to, unless a limit of it is taken for none. -/
theorem within_stored (h : config.resolveStored stored available_tools clock = some (.ok p)) :
    Within stored clock.1 (authorityOf available_tools (some p)) ↔
      stored.toolset ≠ some [] ∧
        (stored.max_budget_microusd ≠ none → 0 < config.max_cost.microusd) ∧
        ∀ r ∈ stored.max_runtime, 1000000000 ≤ r ∧ 0 < config.turnLimit stored := by
  obtain ⟨hbudget, -, hturns, -⟩ := resolvePolicy_spec h
  obtain ⟨hdeadline, htools, hsome⟩ := resolvePolicy_parts h
  rw [mergeMaxTurns_merged] at hturns hdeadline
  obtain ⟨hdisallowed, htoolset⟩ := mem_mergedTools htools
  have hlimit : config.turnLimit stored ≤ config.turns := by
    unfold SchedulerConfig.turnLimit
    split
    · exact Nat.min_le_right _ _
    · exact le_rfl
  have hsmall : config.globalConfig.turn_timeout_secs * config.turnLimit stored < 2^63 := by
    have := config.turns_lt
    simp only [SchedulerConfig.globalConfig]
    omega
  have hd := mergeDeadline_eq hsmall hdeadline
  -- a runtime is kept to exactly when there is a deadline
  have hruntime : ∀ r ∈ stored.max_runtime,
      (∃ d ∈ p.deadline, d ≤ clock.1 + r) ↔ 1000000000 ≤ r ∧ 0 < config.turnLimit stored := by
    intro r hr
    have hr : stored.max_runtime = some r := hr
    simp only [SchedulerConfig.mergedPerRun, hr, SchedulerConfig.globalConfig, runtimeSecs] at hd
    rw [hd]
    constructor
    · rintro ⟨d, hmem, -⟩
      split_ifs at hmem with hpos
      · constructor <;> omega
      · simp at hmem
    · rintro ⟨hr1, hturn⟩
      have hpos : 0 < min (60 * config.turnLimit stored) (r / 1000000000) := by omega
      rw [if_pos hpos]
      refine ⟨_, rfl, ?_⟩
      have hle : min (60 * config.turnLimit stored) (r / 1000000000) * 1000000000 ≤ r := by
        omega
      exact Int.add_le_add_left (by exact_mod_cast hle) _
  -- a stored budget is positive, for one of 0 is refused
  have hlimited : Limited stored.max_budget_microusd (budgetLimit p.initial_budget_microusd) ↔
      (stored.max_budget_microusd ≠ none → 0 < config.max_cost.microusd) := by
    rw [limited_budgetLimit, hbudget]
    cases hb : stored.max_budget_microusd with
    | none => simp
    | some b =>
      have hpos : 0 < b := Nat.pos_of_ne_zero fun hzero =>
        resolvePolicy_budget h (by simp [SchedulerConfig.mergedPerRun, hb, hzero])
      simp only [mergeMaxBudget_merged hb, mem_some_iff, forall_eq', ne_eq, reduceCtorEq,
        not_false_eq_true, true_implies]
      omega
  constructor
  · intro hwithin
    refine ⟨fun hnil => ?_, hlimited.mp hwithin.budget,
      fun r hr => (hruntime r hr).mp (hwithin.runtime r hr)⟩
    -- the empty list would name a tool of the policy
    obtain ⟨tool, htool⟩ := List.exists_mem_of_ne_nil _ hsome
    simpa using hwithin.toolset [] hnil tool htool
  · rintro ⟨hne, hcost, hpositive⟩
    refine ⟨fun names hnames tool htool => ?_, fun name hname => ?_, hlimited.mpr hcost,
      fun n hn => ?_, fun r hr => (hruntime r hr).mpr (hpositive r hr)⟩
    · have htool : tool ∈ p.toolset := htool
      have hnames : stored.toolset = some names := hnames
      have hnil : names ≠ [] := by
        rintro rfl
        exact hne hnames
      rw [htoolset] at htool
      have hretain := (List.mem_filter.mp htool).1
      change tool ∈ retainNamed stored.toolset available_tools at hretain
      simp only [hnames, retainNamed, if_neg hnil] at hretain
      simpa using (List.mem_filter.mp hretain).2
    · show name ∈ p.disallowed_tools
      rw [hdisallowed, List.mem_toFinset]
      exact hname
    · refine ⟨config.turnLimit stored, hturns, ?_⟩
      rw [SchedulerConfig.turnLimit, show stored.max_turns = some n from hn]
      exact Nat.min_le_left _ _

/-- What the scheduler's limits alone keep to. -/
theorem within_fallback (h : config.resolveFallback available_tools clock = some (.ok p)) :
    Within stored clock.1 (authorityOf available_tools (some p)) ↔
      (∀ names ∈ stored.toolset, ∀ tool ∈ available_tools, tool.name ∈ names) ∧
        stored.disallowed = [] ∧
        (∀ b ∈ stored.max_budget_microusd,
          0 < config.max_cost.microusd ∧ config.max_cost.microusd ≤ b) ∧
        (∀ n ∈ stored.max_turns, config.turns ≤ n) ∧
        ∀ r ∈ stored.max_runtime, 0 < config.turns ∧ 60 * config.turns * 1000000000 ≤ r := by
  obtain ⟨hbudget, -, hturns, -⟩ := resolvePolicy_spec h
  obtain ⟨hdeadline, htools, -⟩ := resolvePolicy_parts h
  have hmerge : mergeMaxTurns config.globalConfig {} config.fallbackPerRun = some config.turns := by
    simp [mergeMaxTurns, SchedulerConfig.fallbackPerRun, SchedulerConfig.globalConfig]
  rw [hmerge] at hturns hdeadline
  rw [mergeMaxBudget_fallback] at hbudget
  obtain ⟨hdisallowed, htoolset⟩ := mem_mergedTools htools
  have hsmall : config.globalConfig.turn_timeout_secs * config.turns < 2^63 := by
    have := config.turns_lt
    simp only [SchedulerConfig.globalConfig]
    omega
  have hd := mergeDeadline_eq hsmall hdeadline
  simp only [SchedulerConfig.fallbackPerRun, SchedulerConfig.globalConfig, runtimeSecs] at hd
  have hdis : p.disallowed_tools = ∅ := hdisallowed
  have hall : p.toolset = available_tools := by
    rw [htoolset, hdis]
    simp [SchedulerConfig.fallbackPerRun, retainNamed]
  -- without a tool policy every registered tool stays, and nothing is disallowed
  have hauthority : authorityOf available_tools (some p) =
      ⟨available_tools, ∅, budgetLimit config.max_cost.microusd, some config.turns,
        if 0 < 60 * config.turns then
          some (clock.1 + (60 * config.turns : ℕ) * 1000000000) else none⟩ := by
    rw [authorityOf, hall, hdis, hbudget, hturns, hd]
    rfl
  rw [hauthority]
  constructor
  · intro hwithin
    refine ⟨hwithin.toolset, ?_, limited_budgetLimit.mp hwithin.budget, fun n hn => ?_,
      fun r hr => ?_⟩
    · refine List.eq_nil_iff_forall_not_mem.mpr fun name hname => ?_
      simpa using hwithin.disallowed name hname
    · obtain ⟨k, hk, hle⟩ := hwithin.turns n hn
      rw [← some.inj hk] at hle
      exact hle
    · -- there is a deadline only if the turns times the timeout is positive
      obtain ⟨d, hmem, hle⟩ := hwithin.runtime r hr
      simp only at hmem
      split_ifs at hmem with hpos
      · rw [← some.inj hmem] at hle
        have hle : ((60 * config.turns : ℕ) : ℤ) * 1000000000 ≤ (r : ℤ) :=
          Int.le_of_add_le_add_left hle
        exact ⟨by omega, by exact_mod_cast hle⟩
      · simp at hmem
  · rintro ⟨htools, hnil, hb, hn, hr⟩
    refine ⟨htools, by simp [hnil], limited_budgetLimit.mpr hb, fun n hmem => ⟨_, rfl, hn n hmem⟩,
      fun r hmem => ?_⟩
    obtain ⟨hpos, hle⟩ := hr r hmem
    refine ⟨_, if_pos (by omega), ?_⟩
    exact Int.add_le_add_left (by exact_mod_cast hle) _

/-- What a run without a policy keeps to. -/
theorem within_none {now : Timestamp} :
    Within stored now (authorityOf available_tools none) ↔
      (∀ names ∈ stored.toolset, ∀ tool ∈ available_tools, tool.name ∈ names) ∧
        stored.disallowed = [] ∧ stored.max_budget_microusd = none ∧ stored.max_turns = none ∧
        stored.max_runtime = none := by
  have hnone : ∀ bound, Limited bound none ↔ bound = none := by
    intro bound
    cases bound <;> simp [Limited]
  constructor
  · intro hwithin
    refine ⟨hwithin.toolset, ?_, (hnone _).mp hwithin.budget, (hnone _).mp hwithin.turns, ?_⟩
    · refine List.eq_nil_iff_forall_not_mem.mpr fun name hname => ?_
      simpa [authorityOf] using hwithin.disallowed name hname
    · refine eq_none_iff_forall_not_mem.mpr fun r hr => ?_
      obtain ⟨d, hmem, -⟩ := hwithin.runtime r hr
      simp [authorityOf] at hmem
  · rintro ⟨htools, hnil, hb, hn, hr⟩
    exact ⟨htools, by simp [hnil], (hnone _).mpr hb, (hnone _).mpr hn, by simp [hr]⟩

end

/-- A scheduled run has no more authority than its stored policy exactly when the stored policy
resolves and none of its limits is taken for none, or else what the run falls back to is within
it. -/
theorem schedule_within_iff (config : SchedulerConfig) (policy : Option RunPolicyInput)
    (available_tools : List FunctionDecl) (clock clock' : ClockReadings)
    {result : Option EffectiveRunPolicy}
    (h : config.resolveSchedulePolicy policy available_tools clock clock' = some result) :
    Within (policy.getD {}) (config.resolvedAt policy available_tools clock clock')
        (authorityOf available_tools result) ↔
      KeepsStored config (policy.getD {}) available_tools clock clock' := by
  unfold SchedulerConfig.resolveSchedulePolicy at h
  unfold SchedulerConfig.resolvedAt KeepsStored
  cases hstored : config.resolveStored (policy.getD {}) available_tools clock with
  | none => simp [hstored] at h
  | some resolved =>
    simp only [hstored] at h
    cases resolved with
    | ok p =>
      cases h
      exact within_stored hstored
    | error e =>
      simp only at h ⊢
      cases hfallback : config.resolveFallback available_tools clock' with
      | none => simp [hfallback] at h
      | some resolved =>
        simp only [hfallback] at h
        cases resolved with
        | ok p =>
          cases h
          exact within_fallback hfallback
        | error e =>
          cases h
          exact within_none

/-! ## A stored policy -/

/-- A tool without parameters, as it is declared. -/
def plainDecl (name : String) : FunctionDecl where
  name := name
  parameters := .object []

/-- A run that may read files and search the web for five minutes, but not use the shell. -/
def creatorPolicy : EffectiveRunPolicy where
  started_at := 0
  deadline := some 300000000000
  initial_budget_microusd := 200000
  remaining_budget_microusd := 150000
  toolset := [plainDecl "file_read", plainDecl "web_search"]
  disallowed_tools := {"shell_exec"}
  max_turns := some 5

/-- While its tools are registered, a scheduled run keeps to the policy that it was created
under. -/
theorem snapshot_within :
    ∃ p, ({} : SchedulerConfig).resolveSchedulePolicy (some (snapshotPolicy creatorPolicy))
        [plainDecl "file_read", plainDecl "web_search", plainDecl "shell_exec"] (0, 0, 0) (0, 0, 0) =
          some (some p) ∧
      Within (snapshotPolicy creatorPolicy) 0 (authorityOf
        [plainDecl "file_read", plainDecl "web_search", plainDecl "shell_exec"] (some p)) := by
  have hstored : ({} : SchedulerConfig).resolveStored (snapshotPolicy creatorPolicy)
      [plainDecl "file_read", plainDecl "web_search", plainDecl "shell_exec"] (0, 0, 0) =
        some (.ok { creatorPolicy with remaining_budget_microusd := 200000 }) := by
    decide +kernel
  have hresolve : ({} : SchedulerConfig).resolveSchedulePolicy
      (some (snapshotPolicy creatorPolicy))
      [plainDecl "file_read", plainDecl "web_search", plainDecl "shell_exec"] (0, 0, 0) (0, 0, 0) =
        some (some { creatorPolicy with remaining_budget_microusd := 200000 }) := by
    simp only [SchedulerConfig.resolveSchedulePolicy, getD_some, hstored]
  refine ⟨_, hresolve, ?_⟩
  have hiff := schedule_within_iff {} (some (snapshotPolicy creatorPolicy)) _ _ _ hresolve
  simp only [SchedulerConfig.resolvedAt, getD_some, hstored, KeepsStored] at hiff
  refine hiff.mpr ⟨by decide, by decide, ?_⟩
  decide

/-- Once a tool of the stored toolset is no longer registered, the run gets every other tool, those
that the stored policy disallows among them. -/
theorem unregistered_tool_widens :
    ¬∀ (config : SchedulerConfig) (policy : Option RunPolicyInput)
      (available_tools : List FunctionDecl) (clock clock' : ClockReadings)
      (result : Option EffectiveRunPolicy),
      config.resolveSchedulePolicy policy available_tools clock clock' = some result →
      Within (policy.getD {}) (config.resolvedAt policy available_tools clock clock')
        (authorityOf available_tools result) := by
  intro hall
  obtain ⟨result, hresolve, hallowed⟩ : ∃ result ∈ ({} : SchedulerConfig).resolveSchedulePolicy
      (some (snapshotPolicy creatorPolicy)) [plainDecl "file_read", plainDecl "shell_exec"]
      (0, 0, 0) (0, 0, 0), "shell_exec" ∉ (authorityOf [] result).disallowed := by
    decide +kernel
  have hwithin := hall {} _ _ _ _ result hresolve
  have hmem := hwithin.disallowed "shell_exec" (by decide +kernel)
  cases result with
  | none => simp [authorityOf] at hmem
  | some p => exact hallowed hmem

end Oxydra
