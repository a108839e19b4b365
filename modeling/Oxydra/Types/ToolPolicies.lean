import Oxydra.Types.Policy

/-!
# What the merge of tool policies leaves of the tools

`merge_tool_policies` (`crates/types/src/policy_merge.rs`) folds an agent's allowlist and a per-run
policy over the available tools. `merge_exact_and_monotone` says what comes out: the tools that
every list allows which names anything, less those that the run disallows, and of the names whose
approval is requested those of these tools. So a request that allows less gets no more.
-/

namespace Oxydra

open List

/-- A list that names something; an absent list and an empty one restrict nothing. -/
def restricting (names : Option (List String)) : List (List String) :=
  names.toList.filter (· ≠ [])

section Requests

variable (agent_allowlist : Option (List String)) (tool_policy : Option ToolPolicyInput)

/-- The allowlists of the agent and of the run. -/
def allowlists : List (List String) :=
  restricting agent_allowlist ++ restricting (tool_policy.bind ToolPolicyInput.toolset)

/-- The names that the run disallows. -/
def disallowedNames : List String :=
  (tool_policy.bind ToolPolicyInput.disallowed_tools).getD []

/-- The names whose approval is requested. -/
def requestedApprovals : List String :=
  (tool_policy.bind ToolPolicyInput.auto_approve_tools).getD []

/-- Every allowlist has the name, and the run does not disallow it. -/
def AllowsName (name : String) : Prop :=
  (∀ names ∈ allowlists agent_allowlist tool_policy, name ∈ names) ∧
    name ∉ disallowedNames tool_policy

instance (name : String) : Decidable (AllowsName agent_allowlist tool_policy name) :=
  inferInstanceAs (Decidable (_ ∧ _))

/-- The toolset that the merge gives. -/
def mergedTools (available_tools : List FunctionDecl) : List FunctionDecl :=
  (mergeToolPolicies available_tools agent_allowlist tool_policy).1

/-- The names that the merge approves. -/
def mergedApprovals (available_tools : List FunctionDecl) : Finset String :=
  (mergeToolPolicies available_tools agent_allowlist tool_policy).2.2

end Requests

/-- A list in the place of another: the same, or one that names something, and nothing that the
other leaves out where that names something. -/
def ShrinksTo (before after : Option (List String)) : Prop :=
  after = before ∨ ∃ names, after = some names ∧ names ≠ [] ∧
    ∀ listed, before = some listed → listed ≠ [] → names ⊆ listed

/-- A per-run policy in the place of another: its allowlist shrinks, its disallowed names grow, and
it requests no other approvals. -/
structure PolicyShrinksTo (before after : Option ToolPolicyInput) : Prop where
  toolset : ShrinksTo (before.bind ToolPolicyInput.toolset) (after.bind ToolPolicyInput.toolset)
  disallowed : disallowedNames before ⊆ disallowedNames after
  approvals : requestedApprovals after ⊆ requestedApprovals before

/-! ## The toolset -/

section Merge

variable {available_tools : List FunctionDecl} {agent_allowlist : Option (List String)}
  {tool_policy : Option ToolPolicyInput}

/-- A list keeps a tool unless it names something and not the tool. -/
theorem retainNamed_eq_filter (names : Option (List String)) (toolset : List FunctionDecl) :
    retainNamed names toolset =
      toolset.filter fun tool => ∀ listed ∈ restricting names, tool.name ∈ listed := by
  unfold retainNamed restricting
  cases names with
  | none => simp
  | some listed =>
    by_cases hempty : listed = []
    · simp [hempty]
    · simp [hempty]

/-- The merge retains what both lists name, and then filters the disallowed names out. -/
theorem mergedTools_eq : mergedTools agent_allowlist tool_policy available_tools =
    (retainNamed (tool_policy.bind ToolPolicyInput.toolset)
      (retainNamed agent_allowlist available_tools)).filter fun tool =>
        tool.name ∉ disallowedNames tool_policy := by
  unfold mergedTools mergeToolPolicies disallowedNames
  cases tool_policy with
  | none => simp [retainNamed]
  | some policy => simp

/-- The merged toolset is the available tools whose names every layer allows, in their order. -/
theorem mergedTools_eq_filter : mergedTools agent_allowlist tool_policy available_tools =
    available_tools.filter fun tool => AllowsName agent_allowlist tool_policy tool.name := by
  have hallows : ∀ name, AllowsName agent_allowlist tool_policy name ↔
      ((∀ names ∈ restricting agent_allowlist, name ∈ names) ∧
        ∀ names ∈ restricting (tool_policy.bind ToolPolicyInput.toolset), name ∈ names) ∧
        name ∉ disallowedNames tool_policy := by
    intro name
    unfold AllowsName allowlists
    rw [forall_mem_append]
  rw [mergedTools_eq, retainNamed_eq_filter, retainNamed_eq_filter, filter_filter,
    filter_filter]
  refine filter_congr fun tool _ => ?_
  rw [← Bool.decide_and, ← Bool.decide_and, decide_eq_decide, hallows]
  tauto

/-- Of the requested approvals the merge keeps those of the tools that it keeps. -/
theorem mergedApprovals_eq : mergedApprovals agent_allowlist tool_policy available_tools =
    (requestedApprovals tool_policy).toFinset.filter
      (· ∈ toolNames (mergedTools agent_allowlist tool_policy available_tools)) := by
  ext name
  -- a tool that is left in the end was there when the approvals were intersected with the tools
  have hthere : name ∈ toolNames (mergedTools agent_allowlist tool_policy available_tools) →
      name ∈ toolNames (retainNamed (tool_policy.bind ToolPolicyInput.toolset)
        (retainNamed agent_allowlist available_tools)) := by
    intro h
    rw [mergedTools_eq] at h
    unfold toolNames at *
    rw [mem_toFinset] at h ⊢
    exact (filter_sublist.map _).subset h
  rw [Finset.mem_filter, mem_toFinset]
  cases tool_policy with
  | none => simp [mergedApprovals, mergeToolPolicies, requestedApprovals]
  | some policy =>
    simp only [mergedApprovals, mergedTools, mergeToolPolicies, requestedApprovals,
      Option.bind_some, mem_toFinset] at *
    cases policy.auto_approve_tools with
    | none => simp
    | some requested =>
      by_cases hempty : requested = []
      · simp [hempty]
      · simp only [hempty, if_false, Finset.mem_inter, mem_toFinset, Option.getD_some]
        tauto

/-! ## Shrinking -/

/-- What the shrunk list admits, the list admitted. -/
theorem ShrinksTo.admits {before after : Option (List String)} (h : ShrinksTo before after)
    {name : String} (hafter : ∀ names ∈ restricting after, name ∈ names) :
    ∀ names ∈ restricting before, name ∈ names := by
  rcases h with rfl | ⟨names, rfl, hne, hsub⟩
  · exact hafter
  · have hname : name ∈ names := hafter names (by simp [restricting, hne])
    intro listed hlisted
    obtain ⟨hbefore, hlisted⟩ := mem_filter.mp hlisted
    exact hsub listed (Option.mem_toList.mp hbefore) (by simpa using hlisted) hname

/-- A name that is allowed after lists shrank and disallowed names grew was allowed before. -/
theorem AllowsName.of_shrunk {agent_allowlist' : Option (List String)}
    {tool_policy' : Option ToolPolicyInput} (hagent : ShrinksTo agent_allowlist agent_allowlist')
    (hrun : PolicyShrinksTo tool_policy tool_policy') {name : String}
    (h : AllowsName agent_allowlist' tool_policy' name) :
    AllowsName agent_allowlist tool_policy name := by
  obtain ⟨hlists, hdisallowed⟩ := h
  obtain ⟨hagent', hrun'⟩ := forall_mem_append.mp hlists
  refine ⟨forall_mem_append.mpr ⟨hagent.admits hagent', hrun.toolset.admits hrun'⟩, ?_⟩
  exact fun hname => hdisallowed (hrun.disallowed hname)

/-- The merge gives the available tools that every allowlist which names anything has and the run
does not disallow, and approves of the requested names those of these tools. Where an allowlist
shrinks to one that names something, or comes to be, and more names are disallowed, it gives no
other tools and approves no other names. -/
theorem merge_exact_and_monotone (available_tools : List FunctionDecl)
    (agent_allowlist : Option (List String)) (tool_policy : Option ToolPolicyInput) :
    mergedTools agent_allowlist tool_policy available_tools =
        (available_tools.filter fun tool => AllowsName agent_allowlist tool_policy tool.name) ∧
      mergedApprovals agent_allowlist tool_policy available_tools =
        (requestedApprovals tool_policy).toFinset.filter
          (· ∈ toolNames (mergedTools agent_allowlist tool_policy available_tools)) ∧
      ∀ agent_allowlist' tool_policy', ShrinksTo agent_allowlist agent_allowlist' →
        PolicyShrinksTo tool_policy tool_policy' →
          (mergedTools agent_allowlist' tool_policy' available_tools).Sublist
            (mergedTools agent_allowlist tool_policy available_tools) ∧
          mergedApprovals agent_allowlist' tool_policy' available_tools ⊆
            mergedApprovals agent_allowlist tool_policy available_tools := by
  refine ⟨mergedTools_eq_filter, mergedApprovals_eq, ?_⟩
  intro agent_allowlist' tool_policy' hagent hrun
  have htools : (mergedTools agent_allowlist' tool_policy' available_tools).Sublist
      (mergedTools agent_allowlist tool_policy available_tools) := by
    rw [mergedTools_eq_filter, mergedTools_eq_filter]
    refine monotone_filter_right available_tools fun tool htool => ?_
    rw [decide_eq_true_eq] at htool ⊢
    exact htool.of_shrunk hagent hrun
  refine ⟨htools, ?_⟩
  rw [mergedApprovals_eq, mergedApprovals_eq]
  intro name hname
  rw [Finset.mem_filter, mem_toFinset] at hname ⊢
  obtain ⟨hrequested, htool⟩ := hname
  refine ⟨hrun.approvals hrequested, ?_⟩
  unfold toolNames at *
  rw [mem_toFinset] at htool ⊢
  exact (htools.map _).subset htool

end Merge

end Oxydra
