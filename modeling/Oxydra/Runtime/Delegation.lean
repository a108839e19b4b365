import Oxydra.Runtime.Session

/-!
# Delegation

`narrow_child_policy` and `RuntimeDelegationExecutor::delegate` of
`crates/runtime/src/delegation.rs`, and the request that `DelegateToAgentTool::execute`
(`crates/tools/src/delegation_tools.rs`) makes. A delegated run is one more run of the turn loop, on
a context and a policy of its own; `delegate` is modelled up to the start of that run.

The policy of a delegated run is narrowed from its parent's. `Narrows` says what that means field by
field; it is transitive, and one narrowing has it (`narrowChildPolicy_narrows`), so it holds between
any two policies of a chain of delegations (`chain_narrows`).
-/

namespace Oxydra

structure DelegationRequest where
  parent_session_id : String
  parent_user_id : String
  agent_name : String
  goal : String
  caller_selection : Option ProviderSelection := none
  key_facts : List String := []
  max_turns : Option ℕ := none
  max_cost : Option ℚ := none
  parent_policy : Option EffectiveRunPolicy := none

/-- `MAX_DELEGATION_DEPTH`. -/
def maxDelegationDepth : ℕ := 5

/-- `calculate_delegation_depth`. -/
def calculateDelegationDepth (session_id : String) : ℕ := Text.countMatches "subagent:" session_id

/-! ## The narrowed policy -/

/-- The least of the limits that are set. -/
def leastOf (limits : List (Option ℕ)) : Option ℕ := (limits.filterMap id).min?

/-- The names of the parent's tools that the child agent asks for; `none` when no tool is left. -/
def narrowedToolNames (parent_policy : EffectiveRunPolicy) (child_agent : AgentDefinition) :
    Option (Finset String) :=
  match child_agent.tools with
  | some child_tools =>
    let intersection := toolNames parent_policy.toolset ∩ child_tools.toFinset
    -- here `none` is no tool at all
    if intersection = ∅ then none else some intersection
  | none => some (toolNames parent_policy.toolset)

/-- `narrow_child_policy`, at the time that it reads from the clock. -/
def narrowChildPolicy (parent_policy : EffectiveRunPolicy) (child_agent : AgentDefinition)
    (child_request : DelegationRequest) (now : Timestamp) : EffectiveRunPolicy :=
  let narrowed_budget := (leastOf
    [child_agent.max_cost.map usdToMicrousd, child_request.max_cost.map usdToMicrousd,
      some parent_policy.remaining_budget_microusd]).getD parent_policy.remaining_budget_microusd
  let narrowed_tool_names := narrowedToolNames parent_policy child_agent
  { started_at := now
    -- the child has as long as its parent has left
    deadline := parent_policy.deadline
    initial_budget_microusd := narrowed_budget
    remaining_budget_microusd := narrowed_budget
    toolset := parent_policy.toolset.filter fun t =>
      match narrowed_tool_names with
      | some allowed => t.name ∈ allowed
      | none => false
    auto_approve_tools := parent_policy.auto_approve_tools ∩ narrowed_tool_names.getD ∅
    disallowed_tools := parent_policy.disallowed_tools
    parent_run_id := some child_request.parent_session_id
    max_turns := leastOf [parent_policy.max_turns, child_agent.max_turns, child_request.max_turns]
    rollout_mode := parent_policy.rollout_mode }

/-! ## The delegated run -/

/-- `RuntimeDelegationExecutor`. -/
structure DelegationExecutor where
  runtime : AgentRuntime
  agents : List (String × AgentDefinition)
  root_selection : ProviderSelection

/-- `resolve_delegation_selection`. -/
def resolveDelegationSelection (root_selection : ProviderSelection) (agent_name : String)
    (agent_def : AgentDefinition) (caller_selection : Option ProviderSelection) :
    ProviderSelection :=
  if agent_name = "default" then root_selection
  else
    match agent_def.selection with
    | some selection => selection
    | none => caller_selection.getD root_selection

/-- The arguments of the tool `delegate_to_agent`. -/
structure DelegateArgs where
  agent_name : String
  goal : String
  key_facts : Option (List String) := none
  max_turns : Option ℕ := none
  max_cost : Option ℚ := none

/-- A field that may be missing or `null`, and else is read by `read`. -/
def optionalField {α : Type} (args : Value) (key : String) (read : Value → Option α) :
    Option (Option α) :=
  match args.get? key with
  | none | some .null => some none
  | some value => (read value).map some

/-- `parse_args` of the tool's arguments; `none` is a value of another shape. -/
def DelegateArgs.parse (args : Value) : Option DelegateArgs := do
  let agent_name ← (← args.get? "agent_name").asStr
  let goal ← (← args.get? "goal").asStr
  let key_facts ← optionalField args "key_facts" fun
    | .array items => items.mapM Value.asStr
    | _ => none
  let max_turns ← optionalField args "max_turns" fun
    | .number (.integer n) => if 0 ≤ n ∧ n < 2^32 then some n.toNat else none
    | _ => none
  let max_cost ← optionalField args "max_cost" fun
    | .number (.integer n) => some (n : ℚ)
    | .number (.float x) => some x
    | _ => none
  pure ⟨agent_name, goal, key_facts, max_turns, max_cost⟩

/-- The request that `DelegateToAgentTool::execute` makes, in the context of a turn's tool calls;
`none` when the arguments are invalid or the user is not known. -/
def delegationRequest (context : ToolExecutionContext) (args : Value) :
    Option DelegationRequest := do
  let args ← DelegateArgs.parse args
  let user_id ← context.user_id
  pure
    { parent_session_id := context.session_id.getD ""
      parent_user_id := user_id
      agent_name := args.agent_name
      goal := args.goal
      caller_selection := do
        let provider ← context.provider
        let model ← context.model
        pure ⟨provider, model⟩
      key_facts := args.key_facts.getD []
      max_turns := args.max_turns
      max_cost := args.max_cost
      parent_policy := context.policy }

/-- The messages that a delegated run starts from. -/
def delegatedMessages (agent_def : AgentDefinition) (request : DelegationRequest) : List Message :=
  let system_prompt := agent_def.system_prompt <|> agent_def.system_prompt_file
  (system_prompt.map fun prompt => { role := .system, content := some prompt }).toList ++
    (request.key_facts.map fun fact => { role := .system, content := some fact }) ++
    [{ role := .user, content := some request.goal }]

/-- Whether the depth limit blocks a delegation: it does without a policy, or under an enforced
one. -/
def depthBlocks (request : DelegationRequest) : Bool :=
  maxDelegationDepth ≤ calculateDelegationDepth request.parent_session_id &&
    match request.parent_policy with
    | some p => p.rollout_mode = .enforce
    | none => true

/-- `delegate`, up to the run that it starts: the run's surroundings and its context. `uuid` is the
fresh part of its session id. -/
def DelegationExecutor.delegate (executor : DelegationExecutor) (request : DelegationRequest)
    (uuid : String) (now : Timestamp) : Except RuntimeError (RunEnv × Context) :=
  let current_depth := calculateDelegationDepth request.parent_session_id
  if depthBlocks request then
    .error (.tool (executionFailed "delegate_to_agent"
      s!"maximum delegation depth exceeded ({current_depth} >= {maxDelegationDepth})"))
  else
    match executor.agents.lookup request.agent_name with
    | none => .error (.tool (executionFailed "delegate_to_agent"
        s!"unknown agent `{request.agent_name}`"))
    | some agent_def =>
      let selection := resolveDelegationSelection executor.root_selection request.agent_name
        agent_def request.caller_selection
      let subagent_session_id := s!"subagent:{request.parent_session_id}:{uuid}"
      let child_policy := request.parent_policy.map fun parent_policy =>
        narrowChildPolicy parent_policy agent_def request now
      -- without a policy a delegated run is shown every tool, whatever its agent lists
      let tools := match child_policy with
        | some policy => executor.runtime.tool_registry.filteredSchemas
            (some (toolNames policy.toolset)) policy.disallowed_tools
        | none => executor.runtime.tool_registry.schemas
      .ok
        ({ rt := executor.runtime
           session_id := some subagent_session_id
           stream_events := child_policy.isSome
           tool_context :=
            { user_id := some request.parent_user_id
              session_id := some subagent_session_id
              provider := some selection.provider
              model := some selection.model }
           policy := child_policy },
          { provider := selection.provider
            model := selection.model
            tools := tools
            messages := delegatedMessages agent_def request })

/-! ## Narrowing -/

/-- `q` gives no more than `p` does. -/
structure Narrows (p q : EffectiveRunPolicy) : Prop where
  /-- The child's whole budget is within what the parent had left. -/
  budget : q.initial_budget_microusd ≤ p.remaining_budget_microusd
  remaining : q.remaining_budget_microusd = q.initial_budget_microusd
  /-- A limit on turns stays, and does not grow. -/
  turns : ∀ m, p.max_turns = some m → ∃ n, q.max_turns = some n ∧ n ≤ m
  toolset : q.toolset.Sublist p.toolset
  /-- What is approved in advance is a tool, and was approved before. -/
  approved : q.auto_approve_tools ⊆ toolNames q.toolset ∧
    q.auto_approve_tools ⊆ p.auto_approve_tools
  disallowed : q.disallowed_tools = p.disallowed_tools
  deadline : q.deadline = p.deadline
  mode : q.rollout_mode = p.rollout_mode

/-- Narrowing twice is narrowing. -/
theorem Narrows.trans {p q r : EffectiveRunPolicy} (h : Narrows p q) (h' : Narrows q r) :
    Narrows p r where
  budget := by
    calc r.initial_budget_microusd ≤ q.remaining_budget_microusd := h'.budget
      _ = q.initial_budget_microusd := h.remaining
      _ ≤ p.remaining_budget_microusd := h.budget
  remaining := h'.remaining
  turns m hm := by
    obtain ⟨n, hn, hnm⟩ := h.turns m hm
    obtain ⟨k, hk, hkn⟩ := h'.turns n hn
    exact ⟨k, hk, hkn.trans hnm⟩
  toolset := h'.toolset.trans h.toolset
  approved := ⟨h'.approved.1, h'.approved.2.trans h.approved.2⟩
  disallowed := h'.disallowed.trans h.disallowed
  deadline := h'.deadline.trans h.deadline
  mode := h'.mode.trans h.mode

/-- The least of some limits is set when one of them is, and is at most each of them. -/
theorem leastOf_le {limits : List (Option ℕ)} {m : ℕ} (h : some m ∈ limits) :
    ∃ n, leastOf limits = some n ∧ n ≤ m := by
  have hmem : m ∈ limits.filterMap id := List.mem_filterMap.mpr ⟨some m, h, rfl⟩
  unfold leastOf
  cases hmin : (limits.filterMap id).min? with
  | none =>
    rw [List.min?_eq_none_iff] at hmin
    rw [hmin] at hmem
    simp at hmem
  | some n =>
    have hle := (List.min?_eq_some_iff.mp hmin).2 m hmem
    exact ⟨n, rfl, hle⟩

/-- The names that a narrowed policy allows are names of the parent's tools. -/
theorem narrowedToolNames_subset (p : EffectiveRunPolicy) (agent : AgentDefinition) :
    (narrowedToolNames p agent).getD ∅ ⊆ toolNames p.toolset := by
  unfold narrowedToolNames
  cases agent.tools with
  | none => exact subset_rfl
  | some tools =>
    dsimp only
    split_ifs
    · exact Finset.empty_subset _
    · exact Finset.inter_subset_left

/-- One narrowing gives no more than the parent's policy does. -/
theorem narrowChildPolicy_narrows (p : EffectiveRunPolicy) (agent : AgentDefinition)
    (request : DelegationRequest) (now : Timestamp) :
    Narrows p (narrowChildPolicy p agent request now) where
  budget := by
    have hset : some p.remaining_budget_microusd ∈ [agent.max_cost.map usdToMicrousd,
        request.max_cost.map usdToMicrousd, some p.remaining_budget_microusd] := by simp
    obtain ⟨n, hn, hle⟩ := leastOf_le hset
    simp only [narrowChildPolicy, hn, Option.getD_some]
    exact hle
  remaining := rfl
  turns m hm := leastOf_le (by simp [hm])
  toolset := List.filter_sublist
  approved := by
    refine ⟨fun name hname => ?_, Finset.inter_subset_left⟩
    -- an approved name is allowed, so a tool of the parent has it, and that tool is kept
    have hallowed : name ∈ (narrowedToolNames p agent).getD ∅ := (Finset.mem_inter.mp hname).2
    have hparent := narrowedToolNames_subset p agent hallowed
    simp only [toolNames, List.mem_toFinset, List.mem_map] at hparent ⊢
    obtain ⟨tool, htool, rfl⟩ := hparent
    refine ⟨tool, List.mem_filter.mpr ⟨htool, ?_⟩, rfl⟩
    cases hnames : narrowedToolNames p agent with
    | none => simp [hnames] at hallowed
    | some allowed =>
      rw [hnames, Option.getD_some] at hallowed
      exact decide_eq_true hallowed
  disallowed := rfl
  deadline := rfl
  mode := rfl

/-- The policies along a chain of delegations: each is narrowed from the one before. -/
def policyChain (p : EffectiveRunPolicy)
    (delegations : ℕ → AgentDefinition × DelegationRequest × Timestamp) : ℕ → EffectiveRunPolicy
  | 0 => p
  | i + 1 =>
    let (agent, request, now) := delegations i
    narrowChildPolicy (policyChain p delegations i) agent request now

/-- Every policy of a chain of delegations gives no more than any policy before it. -/
theorem chain_narrows (p : EffectiveRunPolicy)
    (delegations : ℕ → AgentDefinition × DelegationRequest × Timestamp) {i j : ℕ} (h : i < j) :
    Narrows (policyChain p delegations i) (policyChain p delegations j) := by
  -- by induction on the later end, one narrowing at a time
  induction j with
  | zero => omega
  | succ j ih =>
    have hlast : Narrows (policyChain p delegations j) (policyChain p delegations (j + 1)) :=
      narrowChildPolicy_narrows _ _ _ _
    rcases Nat.lt_succ_iff_lt_or_eq.mp h with hlt | rfl
    · exact (ih hlt).trans hlast
    · exact hlast

/-- An agent that may use one tool and spend 60 micro-USD, and then one without limits of its own
that is asked to take at most three turns. -/
def researchThenWrite (i : ℕ) : AgentDefinition × DelegationRequest × Timestamp :=
  let request : DelegationRequest :=
    { parent_session_id := "runtime-alice", parent_user_id := "alice", agent_name := "researcher"
      goal := "look it up" }
  if i = 0 then ({ tools := some ["file_read"], max_cost := some (60 / 1000000) }, request, 1)
  else ({}, { request with max_turns := some 3 }, 2)

/-- Two delegations below a policy with a budget of 100 micro-USD and five turns. -/
theorem researchThenWrite_narrows :
    Narrows (readingPolicy 100) (policyChain (readingPolicy 100) researchThenWrite 2) ∧
      (policyChain (readingPolicy 100) researchThenWrite 2).initial_budget_microusd = 60 ∧
      (policyChain (readingPolicy 100) researchThenWrite 2).max_turns = some 3 := by
  refine ⟨?_, by decide +kernel, by decide +kernel⟩
  have hlt : 0 < 2 := by decide
  exact chain_narrows (readingPolicy 100) researchThenWrite hlt

end Oxydra
