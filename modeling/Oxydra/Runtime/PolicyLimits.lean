import Oxydra.Runtime.SchedulePolicy

/-!
# The limits of a resolved policy

`resolve_policy` counts a runtime in whole seconds and a budget in whole micro-USD, and reads a zero
of either as no limit. So a runtime below a second gives no deadline, and a cost below a micro-USD
no budget. `deadlineLaw_iff` and `budgetLaw_iff` say for which inputs the limits of a resolved
policy are there and at most those of each layer, and that the resolution does not panic.
-/

namespace Oxydra

open Option

/-! ## The deadline -/

section Deadline

variable (global_config : RuntimeConfig) (agent_def : AgentDefinition) (per_run : RunPolicyInput)
  (available_tools : List FunctionDecl)

/-- The turns of the merged policy. -/
def effectiveTurns : ℕ :=
  (mergeMaxTurns global_config agent_def per_run).getD global_config.max_turns

/-- `runtime_secs` of `merge_deadline`. -/
def mergedSecs : ℕ :=
  runtimeSecs
    (min (global_config.turn_timeout_secs * effectiveTurns global_config agent_def per_run) U64.max)
    per_run.max_runtime

/-- The per-run layer passes the checks that come before the merge. -/
def PerRunChecked : Prop :=
  validatePerRunConstraints per_run = .ok () ∧
    validateToolReferences per_run available_tools = .ok ()

/-- The tools of the merged policy. -/
def layeredTools : List FunctionDecl :=
  (mergeToolPolicies available_tools agent_def.tools per_run.tool_policy).1

/-- A resolution does not panic, the seconds of its deadline do not wrap, and where the per-run
layer limits the runtime the resolved policy has a deadline, no later than that runtime and than the
turns take at most, counted from where the clock is read for it. -/
structure DeadlineLaw (now now' now'' : Timestamp) : Prop where
  returns : (resolvePolicy global_config agent_def per_run available_tools now now' now'').isSome
  exact : PerRunChecked per_run available_tools →
    asI64 (mergedSecs global_config agent_def per_run) =
      mergedSecs global_config agent_def per_run
  limited : ∀ p, resolvePolicy global_config agent_def per_run available_tools now now' now'' =
    some (.ok p) → ∀ d ∈ per_run.max_runtime, ∃ deadline ∈ p.deadline, deadline ≤ now + d ∧
      (0 < global_config.turn_timeout_secs * effectiveTurns global_config agent_def per_run →
        deadline ≤ now + (global_config.turn_timeout_secs *
          effectiveTurns global_config agent_def per_run : ℕ) * 1000000000)

/-- A number of seconds that `chrono` takes as a duration, and adds to an instant. -/
def FitsFrom (now : Timestamp) (secs : ℕ) : Prop :=
  secs ≤ (2^63 - 1) / 1000 ∧ -8334601228800 * 1000000000 ≤ now + (secs : ℤ) * 1000000000 ∧
    now + (secs : ℤ) * 1000000000 < 8210266876800 * 1000000000

/-- The inputs that the deadline is right for: those that are refused before the merge; those with
no whole second, if the per-run layer does not limit the runtime or no tool is left; and those whose
seconds are in the range of `chrono`. -/
def DeadlineFits (now : Timestamp) : Prop :=
  ¬PerRunChecked per_run available_tools ∨
    (mergedSecs global_config agent_def per_run = 0 ∧
      (per_run.max_runtime = none ∨ layeredTools agent_def per_run available_tools = [])) ∨
    (0 < mergedSecs global_config agent_def per_run ∧
      FitsFrom now (mergedSecs global_config agent_def per_run))

variable {global_config agent_def per_run available_tools} {now now' now'' : Timestamp}

theorem mergeDeadline_secs :
    mergeDeadline global_config per_run (mergeMaxTurns global_config agent_def per_run) now =
      if 0 < mergedSecs global_config agent_def per_run then do
        let duration ← chronoSeconds (asI64 (mergedSecs global_config agent_def per_run))
        let deadline ← addDuration now duration
        pure (some deadline)
      else some none := by
  unfold mergeDeadline mergedSecs effectiveTurns
  cases per_run.max_runtime <;> rfl

/-- A deadline in range is the seconds after the clock. -/
theorem mergeDeadline_of_fits (hpos : 0 < mergedSecs global_config agent_def per_run)
    (h : FitsFrom now (mergedSecs global_config agent_def per_run)) :
    asI64 (mergedSecs global_config agent_def per_run) =
        mergedSecs global_config agent_def per_run ∧
      mergeDeadline global_config per_run (mergeMaxTurns global_config agent_def per_run) now =
        some (some (now + (mergedSecs global_config agent_def per_run : ℤ) * 1000000000)) := by
  obtain ⟨hsmall, hlow, hhigh⟩ := h
  have hread : asI64 (mergedSecs global_config agent_def per_run) =
      mergedSecs global_config agent_def per_run := by
    unfold asI64
    rw [Int.bmod_eq_of_le] <;> omega
  refine ⟨hread, ?_⟩
  have habs : |(mergedSecs global_config agent_def per_run : ℤ)| ≤ (2^63 - 1) / 1000 := by
    rw [abs_of_nonneg (Int.natCast_nonneg _)]
    omega
  rw [mergeDeadline_secs, if_pos hpos, hread, chronoSeconds, if_pos habs, bind_eq_bind,
    bind_some, addDuration, if_pos ⟨hlow, hhigh⟩]
  rfl

/-- Seconds that do not wrap and give a deadline are in range. -/
theorem fits_of_mergeDeadline (hpos : 0 < mergedSecs global_config agent_def per_run)
    (hread : asI64 (mergedSecs global_config agent_def per_run) =
      mergedSecs global_config agent_def per_run)
    (h : (mergeDeadline global_config per_run (mergeMaxTurns global_config agent_def per_run)
      now).isSome) : FitsFrom now (mergedSecs global_config agent_def per_run) := by
  rw [mergeDeadline_secs, if_pos hpos, hread] at h
  obtain ⟨deadline, h⟩ := isSome_iff_exists.mp h
  obtain ⟨duration, hduration, hadd⟩ := bind_eq_some_iff.mp h
  obtain ⟨instant, hinstant, -⟩ := bind_eq_some_iff.mp hadd
  unfold chronoSeconds at hduration
  split_ifs at hduration with habs
  cases hduration
  unfold addDuration at hinstant
  split_ifs at hinstant with hrange
  rw [abs_of_nonneg (Int.natCast_nonneg _)] at habs
  exact ⟨by omega, hrange⟩

/-- The merged policy panics where its deadline does. -/
theorem isSome_mergePolicy :
    (mergePolicy global_config agent_def per_run available_tools now now').isSome =
      (mergeDeadline global_config per_run (mergeMaxTurns global_config agent_def per_run)
        now).isSome := by
  unfold mergePolicy
  cases hdeadline : mergeDeadline global_config per_run
    (mergeMaxTurns global_config agent_def per_run) now <;> simp [hdeadline]

/-- The parts of a merged policy that it is checked for. -/
theorem mergePolicy_of_deadline {deadline : Option Timestamp}
    (h : mergeDeadline global_config per_run (mergeMaxTurns global_config agent_def per_run) now =
      some deadline) :
    ∃ merged, mergePolicy global_config agent_def per_run available_tools now now' = some merged ∧
      merged.deadline = deadline ∧ merged.toolset = layeredTools agent_def per_run available_tools ∧
      merged.remaining_budget_microusd = merged.initial_budget_microusd := by
  have hsome : (mergePolicy global_config agent_def per_run available_tools now now').isSome := by
    rw [isSome_mergePolicy, h]
    rfl
  obtain ⟨merged, hmerged⟩ := isSome_iff_exists.mp hsome
  obtain ⟨hdeadline, htools⟩ := mergePolicy_parts hmerged
  obtain ⟨hinitial, hremaining, -⟩ := mergePolicy_spec hmerged
  refine ⟨merged, hmerged, some.inj (hdeadline.symm.trans h), ?_, ?_⟩
  · rw [layeredTools, htools]
  · rw [hinitial, hremaining]

/-- A merged policy is refused for its tools and for its deadline only. -/
theorem validateEffectivePolicy_iff {p : EffectiveRunPolicy}
    (hbudget : p.remaining_budget_microusd = p.initial_budget_microusd) :
    validateEffectivePolicy p = .ok () ↔ p.toolset ≠ [] ∧ ∀ d ∈ p.deadline, p.started_at < d := by
  unfold validateEffectivePolicy
  rw [hbudget]
  by_cases htools : p.toolset = []
  · simp [htools, bind, Except.bind, throw, throwThe, MonadExceptOf.throw]
  · cases hdeadline : p.deadline with
    | none => simp [htools, pure, Except.pure]
    | some d =>
      by_cases hpast : d ≤ p.started_at
      · simp [htools, hpast, throw, throwThe, MonadExceptOf.throw]
      · simpa [htools, hpast, pure, Except.pure] using not_le.mp hpast

/-- What a resolution is once the per-run layer has passed its checks. -/
theorem resolvePolicy_checked (h : PerRunChecked per_run available_tools) :
    resolvePolicy global_config agent_def per_run available_tools now now' now'' =
      (mergePolicy global_config agent_def per_run available_tools now now').map fun merged =>
        (validateEffectivePolicy { merged with started_at := now'' }).map fun _ =>
          { merged with started_at := now'' } := by
  unfold resolvePolicy
  rw [h.1, h.2]
  cases mergePolicy global_config agent_def per_run available_tools now now' with
  | none => rfl
  | some merged =>
    dsimp only [map_some]
    cases validateEffectivePolicy { merged with started_at := now'' } <;> rfl

/-- What a resolution is when the per-run layer has not. -/
theorem resolvePolicy_unchecked (global_config : RuntimeConfig) (agent_def : AgentDefinition)
    (now now' now'' : Timestamp) (h : ¬PerRunChecked per_run available_tools) :
    ∃ e, resolvePolicy global_config agent_def per_run available_tools now now' now'' =
      some (.error e) := by
  unfold resolvePolicy
  unfold PerRunChecked at h
  cases hconstraints : validatePerRunConstraints per_run with
  | error e => exact ⟨e, rfl⟩
  | ok u =>
    cases htools : validateToolReferences per_run available_tools with
    | error e => exact ⟨e, rfl⟩
    | ok v => exact absurd ⟨hconstraints, htools⟩ h

/-- A resolution whose policy has no deadline is refused for its tools only. -/
theorem resolvePolicy_unlimited (global_config : RuntimeConfig) (agent_def : AgentDefinition)
    (now now' now'' : Timestamp) (h : PerRunChecked per_run available_tools)
    (hzero : mergedSecs global_config agent_def per_run = 0) :
    (layeredTools agent_def per_run available_tools = [] →
      ∀ p, resolvePolicy global_config agent_def per_run available_tools now now' now'' ≠
        some (.ok p)) ∧
    (layeredTools agent_def per_run available_tools ≠ [] →
      ∃ p, resolvePolicy global_config agent_def per_run available_tools now now' now'' =
        some (.ok p) ∧ p.deadline = none) := by
  have hnone : mergeDeadline global_config per_run
      (mergeMaxTurns global_config agent_def per_run) now = some none := by
    rw [mergeDeadline_secs, if_neg (by omega)]
  obtain ⟨merged, hmerged, hdeadline, htools, hbudget⟩ := mergePolicy_of_deadline hnone
  rw [resolvePolicy_checked h, hmerged, map_some]
  have hvalid : validateEffectivePolicy { merged with started_at := now'' } = .ok () ↔
      merged.toolset ≠ [] ∧ ∀ d ∈ merged.deadline, now'' < d := validateEffectivePolicy_iff hbudget
  constructor
  · intro hempty p hok
    cases hresult : validateEffectivePolicy { merged with started_at := now'' } with
    | error e =>
      rw [hresult] at hok
      exact nomatch hok
    | ok u => exact (hvalid.mp hresult).1 (htools.trans hempty)
  · intro hsome
    rw [hvalid.mpr ⟨fun hempty => hsome (htools.symm.trans hempty), fun d hd => ?_⟩]
    · exact ⟨_, rfl, hdeadline⟩
    · rw [hdeadline] at hd
      exact nomatch hd

/-- A policy is resolved that has tools, and whose seconds are in range and not over. -/
theorem exists_resolved (h : PerRunChecked per_run available_tools)
    (hpos : 0 < mergedSecs global_config agent_def per_run)
    (hfits : FitsFrom now (mergedSecs global_config agent_def per_run))
    (htools : layeredTools agent_def per_run available_tools ≠ [])
    (hlater : now'' < now + (mergedSecs global_config agent_def per_run : ℤ) * 1000000000) :
    ∃ p, resolvePolicy global_config agent_def per_run available_tools now now' now'' =
      some (.ok p) := by
  obtain ⟨merged, hmerged, hdeadline, hlayered, hbudget⟩ :=
    mergePolicy_of_deadline (mergeDeadline_of_fits hpos hfits).2
  have hvalid : validateEffectivePolicy { merged with started_at := now'' } = .ok () := by
    refine (validateEffectivePolicy_iff (p := { merged with started_at := now'' }) hbudget).mpr
      ⟨?_, fun d hd => ?_⟩
    · rw [← hlayered] at htools
      exact htools
    · rw [hdeadline] at hd
      exact some.inj hd ▸ hlater
  rw [resolvePolicy_checked h, hmerged, map_some, hvalid]
  exact ⟨_, rfl⟩

/-- The deadline of a resolved policy whose seconds are in range. -/
theorem limited_of_fits (hpos : 0 < mergedSecs global_config agent_def per_run)
    (h : FitsFrom now (mergedSecs global_config agent_def per_run)) {p : EffectiveRunPolicy}
    (hp : resolvePolicy global_config agent_def per_run available_tools now now' now'' =
      some (.ok p)) {d : ℕ} (hd : per_run.max_runtime = some d) :
    ∃ deadline ∈ p.deadline, deadline ≤ now + d ∧
      (0 < global_config.turn_timeout_secs * effectiveTurns global_config agent_def per_run →
        deadline ≤ now + (global_config.turn_timeout_secs *
          effectiveTurns global_config agent_def per_run : ℕ) * 1000000000) := by
  have hdeadline := (resolvePolicy_parts hp).1
  rw [(mergeDeadline_of_fits hpos h).2] at hdeadline
  refine ⟨_, (some.inj hdeadline).symm, ?_, fun _ => ?_⟩
  · have hle : mergedSecs global_config agent_def per_run ≤ d / 1000000000 := by
      rw [mergedSecs, hd]
      exact Nat.min_le_right _ _
    have hnanos : (mergedSecs global_config agent_def per_run : ℤ) * 1000000000 ≤ d := by omega
    exact Int.add_le_add_left hnanos now
  · have hle := runtimeSecs_le
      (min (global_config.turn_timeout_secs * effectiveTurns global_config agent_def per_run)
        U64.max) per_run.max_runtime
    have hcap : mergedSecs global_config agent_def per_run ≤
        global_config.turn_timeout_secs * effectiveTurns global_config agent_def per_run :=
      hle.trans (Nat.min_le_left _ _)
    have hsecs : (mergedSecs global_config agent_def per_run : ℤ) ≤
        (global_config.turn_timeout_secs *
          effectiveTurns global_config agent_def per_run : ℕ) := by
      exact_mod_cast hcap
    exact Int.add_le_add_left (Int.mul_le_mul_of_nonneg_right hsecs (by omega)) now

/-- For which inputs the deadline of a resolution is right. -/
theorem deadlineLaw_iff (global_config : RuntimeConfig) (agent_def : AgentDefinition)
    (per_run : RunPolicyInput) (available_tools : List FunctionDecl) (now now' now'' : Timestamp) :
    DeadlineLaw global_config agent_def per_run available_tools now now' now'' ↔
      DeadlineFits global_config agent_def per_run available_tools now := by
  by_cases hchecked : PerRunChecked per_run available_tools
  · have hreturns : (resolvePolicy global_config agent_def per_run available_tools now now'
        now'').isSome =
        (mergeDeadline global_config per_run (mergeMaxTurns global_config agent_def per_run)
          now).isSome := by
      rw [resolvePolicy_checked hchecked, isSome_map, isSome_mergePolicy]
    -- a runtime of no seconds is read as none: no deadline
    by_cases hzero : mergedSecs global_config agent_def per_run = 0
    · obtain ⟨hempty, hsome⟩ :=
        resolvePolicy_unlimited global_config agent_def now now' now'' hchecked hzero
      constructor
      · intro hlaw
        refine .inr (.inl ⟨hzero, ?_⟩)
        by_contra hnot
        obtain ⟨hlimited, htools⟩ := not_or.mp hnot
        obtain ⟨d, hd⟩ := ne_none_iff_exists'.mp hlimited
        obtain ⟨p, hp, hdeadline⟩ := hsome htools
        obtain ⟨deadline, hmem, -⟩ := hlaw.limited p hp d hd
        rw [hdeadline] at hmem
        exact nomatch hmem
      · intro hfits
        refine ⟨?_, fun _ => ?_, fun p hp d hd => ?_⟩
        · rw [hreturns, mergeDeadline_secs, if_neg (by omega)]
          rfl
        · rw [hzero]
          decide
        · rcases hfits with hnot | ⟨-, hunlimited | htools⟩ | ⟨hpos, -⟩
          · exact absurd hchecked hnot
          · rw [hunlimited] at hd
            exact nomatch hd
          · exact absurd hp (hempty htools p)
          · omega
    · have hpos : 0 < mergedSecs global_config agent_def per_run := Nat.pos_of_ne_zero hzero
      constructor
      · intro hlaw
        have hdeadline := hlaw.returns
        rw [hreturns] at hdeadline
        exact .inr (.inr ⟨hpos, fits_of_mergeDeadline hpos (hlaw.exact hchecked) hdeadline⟩)
      · rintro (hnot | ⟨hz, -⟩ | ⟨-, hfits⟩)
        · exact absurd hchecked hnot
        · exact absurd hz hzero
        · obtain ⟨hread, hdeadline⟩ := mergeDeadline_of_fits hpos hfits
          refine ⟨?_, fun _ => hread, fun p hp d hd => limited_of_fits hpos hfits hp hd⟩
          rw [hreturns, hdeadline]
          rfl
  · obtain ⟨e, he⟩ := resolvePolicy_unchecked global_config agent_def now now' now'' hchecked
    refine iff_of_true ⟨?_, fun h => absurd h hchecked, fun p hp => ?_⟩ (.inl hchecked)
    · rw [he]
      rfl
    · rw [he] at hp
      exact nomatch hp

/-- A run of half a second, with one tool. -/
def halfSecond : RunPolicyInput := { max_runtime := some 500000000 }

/-- A tool without parameters. -/
def clockTool : List FunctionDecl := [{ name := "clock", parameters := .object [] }]

/-- Half a second is no whole second, and the run has no deadline. -/
theorem halfSecond_unlimited :
    (∃ p, resolvePolicy ⟨60, 10, none⟩ {} halfSecond clockTool 0 0 0 = some (.ok p) ∧
      p.deadline = none) ∧
      ¬DeadlineLaw ⟨60, 10, none⟩ {} halfSecond clockTool 0 0 0 := by
  have hchecked : PerRunChecked halfSecond clockTool := ⟨rfl, rfl⟩
  obtain ⟨p, hp, hdeadline⟩ :=
    (resolvePolicy_unlimited ⟨60, 10, none⟩ {} 0 0 0 hchecked rfl).2 (by decide)
  refine ⟨⟨p, hp, hdeadline⟩, fun hlaw => ?_⟩
  obtain ⟨deadline, hmem, -⟩ := hlaw.limited p hp 500000000 rfl
  rw [hdeadline] at hmem
  exact nomatch hmem

end Deadline

/-! ## The budget -/

section Budget

variable {global_config : RuntimeConfig} {agent_def : AgentDefinition} {per_run : RunPolicyInput}
  {available_tools : List FunctionDecl} {now now' now'' : Timestamp} {p : EffectiveRunPolicy}

/-- An initial budget is zero exactly if no layer sets one, and at most each that is set. -/
structure BudgetLaw (global_config : RuntimeConfig) (agent_def : AgentDefinition)
    (per_run : RunPolicyInput) (initial : ℕ) : Prop where
  unlimited : initial = 0 ↔ global_config.max_cost = none ∧ agent_def.max_cost = none ∧
    per_run.max_budget_microusd = none
  global : ∀ c ∈ global_config.max_cost, (initial : ℚ) ≤ c * 1000000
  agent : ∀ c ∈ agent_def.max_cost, (initial : ℚ) ≤ c * 1000000
  per_run : ∀ b ∈ per_run.max_budget_microusd, initial ≤ b

/-- The budgets of the layers. -/
def setBudgets (global_config : RuntimeConfig) (agent_def : AgentDefinition)
    (per_run : RunPolicyInput) : List ℕ :=
  [global_config.max_cost.map usdToMicrousd, agent_def.max_cost.map usdToMicrousd,
    per_run.max_budget_microusd].filterMap id

theorem mem_setBudgets {b : ℕ} : b ∈ setBudgets global_config agent_def per_run ↔
    (∃ c ∈ global_config.max_cost, usdToMicrousd c = b) ∨
      (∃ c ∈ agent_def.max_cost, usdToMicrousd c = b) ∨
      b ∈ per_run.max_budget_microusd := by
  simp [setBudgets, eq_comm]

theorem mergeMaxBudget_le {b : ℕ} (h : b ∈ setBudgets global_config agent_def per_run) :
    mergeMaxBudget global_config agent_def per_run ≤ b := by
  show (setBudgets global_config agent_def per_run).min?.getD 0 ≤ b
  obtain ⟨m, hm⟩ := ne_none_iff_exists'.mp
    (mt List.min?_eq_none_iff.mp (List.ne_nil_of_mem h))
  rw [hm]
  exact (List.min?_eq_some_iff.mp hm).2 b h

theorem mergeMaxBudget_eq_zero_iff : mergeMaxBudget global_config agent_def per_run = 0 ↔
    setBudgets global_config agent_def per_run = [] ∨
      0 ∈ setBudgets global_config agent_def per_run := by
  constructor
  · intro hzero
    by_cases hnil : setBudgets global_config agent_def per_run = []
    · exact .inl hnil
    · obtain ⟨m, hm⟩ := ne_none_iff_exists'.mp (mt List.min?_eq_none_iff.mp hnil)
      have hmin : mergeMaxBudget global_config agent_def per_run = m := by
        show (setBudgets global_config agent_def per_run).min?.getD 0 = m
        rw [hm]
        rfl
      exact .inr (hzero.symm.trans hmin ▸ (List.min?_eq_some_iff.mp hm).1)
  · rintro (hnil | hzero)
    · show (setBudgets global_config agent_def per_run).min?.getD 0 = 0
      rw [hnil]
      rfl
    · exact Nat.le_zero.mp (mergeMaxBudget_le hzero)

/-- A cost below a micro-USD is no budget. -/
theorem usdToMicrousd_eq_zero_iff {c : ℚ} (h : 0 ≤ c) : usdToMicrousd c = 0 ↔ c * 1000000 < 1 := by
  have hpos : (0 : ℤ) ≤ ⌊c * 1000000⌋ := Int.floor_nonneg.mpr (by positivity)
  have hmax : 0 < U64.max := by decide
  have hfloor : usdToMicrousd c = 0 ↔ ⌊c * 1000000⌋ = 0 := by
    unfold usdToMicrousd
    omega
  rw [hfloor, Int.floor_eq_zero_iff, Set.mem_Ico]
  exact and_iff_right (by positivity)

theorem usdToMicrousd_le {c : ℚ} (h : 0 ≤ c) : (usdToMicrousd c : ℚ) ≤ c * 1000000 := by
  have hpos : (0 : ℤ) ≤ ⌊c * 1000000⌋ := Int.floor_nonneg.mpr (by positivity)
  have hle : (usdToMicrousd c : ℤ) ≤ ⌊c * 1000000⌋ := by
    unfold usdToMicrousd
    omega
  exact_mod_cast Int.le_floor.mp hle

/-- For which costs the budget of an accepted policy is right. -/
theorem budgetLaw_iff (hglobal : ∀ c ∈ global_config.max_cost, 0 ≤ c)
    (hagent : ∀ c ∈ agent_def.max_cost, 0 ≤ c)
    (h : resolvePolicy global_config agent_def per_run available_tools now now' now'' =
      some (.ok p)) :
    BudgetLaw global_config agent_def per_run p.initial_budget_microusd ↔
      (∀ c ∈ global_config.max_cost, 1 ≤ c * 1000000) ∧
        ∀ c ∈ agent_def.max_cost, 1 ≤ c * 1000000 := by
  have hchecked : PerRunChecked per_run available_tools := by
    by_contra hnot
    obtain ⟨e, he⟩ := resolvePolicy_unchecked global_config agent_def now now' now'' hnot
    exact nomatch h.symm.trans he
  have hperRun := max_budget_ne_zero hchecked.1
  rw [(resolvePolicy_spec h).1]
  constructor
  · intro hlaw
    -- a cost below a micro-USD makes the budget zero, and a layer sets it
    have hset : ∀ c, 0 ≤ c →
        usdToMicrousd c ∈ setBudgets global_config agent_def per_run → c * 1000000 < 1 →
        global_config.max_cost = none ∧ agent_def.max_cost = none := by
      intro c hc hmem hsmall
      rw [(usdToMicrousd_eq_zero_iff hc).mpr hsmall] at hmem
      obtain ⟨hnoGlobal, hnoAgent, -⟩ :=
        hlaw.unlimited.mp (mergeMaxBudget_eq_zero_iff.mpr (.inr hmem))
      exact ⟨hnoGlobal, hnoAgent⟩
    constructor
    · intro c hc
      by_contra hsmall
      have hnone := (hset c (hglobal c hc) (mem_setBudgets.mpr (.inl ⟨c, hc, rfl⟩))
        (not_le.mp hsmall)).1
      rw [hnone] at hc
      exact nomatch hc
    · intro c hc
      by_contra hsmall
      have hnone := (hset c (hagent c hc) (mem_setBudgets.mpr (.inr (.inl ⟨c, hc, rfl⟩)))
        (not_le.mp hsmall)).2
      rw [hnone] at hc
      exact nomatch hc
  · rintro ⟨hglobalOne, hagentOne⟩
    have hcost : ∀ c, 0 ≤ c → usdToMicrousd c ∈ setBudgets global_config agent_def per_run →
        (mergeMaxBudget global_config agent_def per_run : ℚ) ≤ c * 1000000 := by
      intro c hc hmem
      have hle : (mergeMaxBudget global_config agent_def per_run : ℚ) ≤ usdToMicrousd c := by
        exact_mod_cast mergeMaxBudget_le hmem
      exact hle.trans (usdToMicrousd_le hc)
    refine ⟨?_, fun c hc => ?_, fun c hc => ?_, fun b hb => ?_⟩
    · rw [mergeMaxBudget_eq_zero_iff]
      constructor
      · rintro (hnil | hzero)
        · unfold setBudgets at hnil
          simpa using hnil
        · rcases mem_setBudgets.mp hzero with ⟨c, hc, hzero⟩ | ⟨c, hc, hzero⟩ | hzero
          · have hsmall := (usdToMicrousd_eq_zero_iff (hglobal c hc)).mp hzero
            exact absurd (hglobalOne c hc) (not_le.mpr hsmall)
          · have hsmall := (usdToMicrousd_eq_zero_iff (hagent c hc)).mp hzero
            exact absurd (hagentOne c hc) (not_le.mpr hsmall)
          · exact absurd hzero hperRun
      · rintro ⟨hnoGlobal, hnoAgent, hnoRun⟩
        refine .inl ?_
        rw [setBudgets, hnoGlobal, hnoAgent, hnoRun]
        rfl
    · exact hcost c (hglobal c hc) (mem_setBudgets.mpr (.inl ⟨c, hc, rfl⟩))
    · exact hcost c (hagent c hc) (mem_setBudgets.mpr (.inr (.inl ⟨c, hc, rfl⟩)))
    · exact mergeMaxBudget_le (mem_setBudgets.mpr (.inr (.inr hb)))

/-- A run that may cost a dollar, below an agent of which a run may cost this much. -/
def dollarRun (agent_cost : ℚ) (now'' : Timestamp) :
    Option (Except PolicyValidationError EffectiveRunPolicy) :=
  resolvePolicy ⟨60, 10, none⟩ { max_cost := some agent_cost }
    { max_budget_microusd := some 1000000 } clockTool 0 0 now''

/-- The policy of such a run, which ten minutes end. -/
theorem dollarRun_resolved (agent_cost : ℚ) :
    ∃ p, dollarRun agent_cost 1 = some (.ok p) ∧
      p.initial_budget_microusd = min (usdToMicrousd agent_cost) 1000000 := by
  have hsecs : mergedSecs ⟨60, 10, none⟩ { max_cost := some agent_cost }
      { max_budget_microusd := some 1000000 } = 600 := rfl
  obtain ⟨p, hp⟩ : ∃ p, dollarRun agent_cost 1 = some (.ok p) := by
    refine exists_resolved ⟨rfl, rfl⟩ ?_ ?_ (List.cons_ne_nil _ _) ?_ <;> rw [hsecs]
    · decide
    · unfold FitsFrom
      decide
    · decide
  refine ⟨p, hp, ?_⟩
  rw [(resolvePolicy_spec hp).1]
  rfl

/-- Below an agent that may cost a tenth of a micro-USD the budget is zero, though two layers set
one. -/
theorem tenthAgent_unlimited :
    ∃ p, dollarRun (1 / 10000000) 1 = some (.ok p) ∧ p.initial_budget_microusd = 0 ∧
      ¬BudgetLaw ⟨60, 10, none⟩ { max_cost := some (1 / 10000000) }
        { max_budget_microusd := some 1000000 } p.initial_budget_microusd := by
  obtain ⟨p, hp, hbudget⟩ := dollarRun_resolved (1 / 10000000)
  have hzero : usdToMicrousd (1 / 10000000) = 0 := by decide +kernel
  rw [hzero, Nat.zero_min] at hbudget
  refine ⟨p, hp, hbudget, fun hlaw => ?_⟩
  exact some_ne_none _ (hlaw.unlimited.mp hbudget).2.1

/-- Below an agent that may cost half a dollar, the budget is that. -/
theorem halfAgent_limited :
    ∃ p, dollarRun (1 / 2) 1 = some (.ok p) ∧
      BudgetLaw ⟨60, 10, none⟩ { max_cost := some (1 / 2) }
        { max_budget_microusd := some 1000000 } p.initial_budget_microusd := by
  obtain ⟨p, hp, -⟩ := dollarRun_resolved (1 / 2)
  refine ⟨p, hp, (budgetLaw_iff (fun c hc => ?_) (fun c hc => ?_) hp).mpr
    ⟨fun c hc => ?_, fun c hc => ?_⟩⟩
  · exact absurd hc (not_mem_none c)
  · cases hc
    norm_num
  · exact absurd hc (not_mem_none c)
  · cases hc
    norm_num

end Budget

end Oxydra
