import Oxydra.Runtime.Delegation

/-!
# Two ways to narrow a policy

`narrow_child_policy` (`crates/runtime/src/delegation.rs`) narrows the policy of a delegated run;
`merge_tool_policies` and `merge_max_budget` (`crates/types/src/policy_merge.rs`) merge the layers
of any run. The parent of a delegation is a layer, too: it offers its toolset, disallows names, and
sets what it has left as a limit, unless its initial budget is 0, which is no limit.

`NarrowingAgrees` says that both ways give the same tools and the same budget. They do not read an
empty list of tools, a disallowed name, and a budget of 0 alike; `narrowing_agrees_iff` says on what
input that makes no difference.
-/

namespace Oxydra

open List

section

variable (parent : EffectiveRunPolicy) (child_agent : AgentDefinition)
  (child_request : DelegationRequest) (now : Timestamp)

/-- The limit that a parent sets on its children: what it has left, unless its initial budget is
unlimited. -/
def parentLimit : Option ℕ :=
  if parent.initial_budget_microusd = 0 then none else some parent.remaining_budget_microusd

/-- The limits that are set on the budget of a child. -/
def budgetLimits : List ℕ :=
  [child_request.max_cost.map usdToMicrousd, child_agent.max_cost.map usdToMicrousd,
    parentLimit parent].filterMap id

/-- The budget that the merge gives, with the request as the global layer and the parent as the
per-run one. -/
def mergedBudget : ℕ :=
  mergeMaxBudget { turn_timeout_secs := 0, max_turns := 0, max_cost := child_request.max_cost }
    child_agent { max_budget_microusd := parentLimit parent }

/-- The merge takes the least of the limits that are set. -/
theorem mergedBudget_eq : mergedBudget parent child_agent child_request =
    (budgetLimits parent child_agent child_request).min?.getD 0 := rfl

/-- The tools that the merge gives, with the child agent's list as the allowlist, and the names that
the parent disallows in some order. -/
def mergedToolset (disallowed : List String) : List FunctionDecl :=
  (mergeToolPolicies parent.toolset child_agent.tools
    (some { disallowed_tools := some disallowed })).1

/-- Both ways give a child the same tools and the same budget. -/
structure NarrowingAgrees : Prop where
  toolset : ∀ disallowed : List String, disallowed.toFinset = parent.disallowed_tools →
    (narrowChildPolicy parent child_agent child_request now).toolset =
      mergedToolset parent child_agent disallowed
  budget : (narrowChildPolicy parent child_agent child_request now).initial_budget_microusd =
    mergedBudget parent child_agent child_request
  /-- Only a child without any limit is unlimited. -/
  unlimited : (narrowChildPolicy parent child_agent child_request now).initial_budget_microusd = 0 →
    budgetLimits parent child_agent child_request = []

/-! ## Tools -/

/-- A child may have a tool that it lists; a child without a list may have every tool. -/
def Lists (t : FunctionDecl) : Prop :=
  ∀ names, child_agent.tools = some names → t.name ∈ names

/-- Narrowing leaves a child the tools that it lists. -/
theorem mem_narrowChildPolicy_toolset {t : FunctionDecl} :
    t ∈ (narrowChildPolicy parent child_agent child_request now).toolset ↔
      t ∈ parent.toolset ∧ Lists child_agent t := by
  have hname : t ∈ parent.toolset → t.name ∈ toolNames parent.toolset := fun ht =>
    mem_toFinset.mpr (mem_map_of_mem ht)
  simp only [narrowChildPolicy, mem_filter, and_congr_right_iff]
  intro ht
  unfold narrowedToolNames Lists
  cases child_agent.tools with
  | none => simpa using hname ht
  | some names =>
    have hinter : t.name ∈ toolNames parent.toolset ∩ names.toFinset ↔ t.name ∈ names := by
      simp [hname ht]
    dsimp only
    split_ifs with hempty
    · rw [hempty] at hinter
      simpa using hinter
    · simpa using hinter

/-- The merge leaves a child the tools that it lists and its parent does not disallow; an empty list
is no list. -/
theorem mem_mergedToolset {disallowed : List String} {t : FunctionDecl} :
    t ∈ mergedToolset parent child_agent disallowed ↔ t ∈ parent.toolset ∧
      (Lists child_agent t ∨ child_agent.tools = some []) ∧ t.name ∉ disallowed := by
  simp only [mergedToolset, mergeToolPolicies, retainNamed, mem_filter, Option.getD_some,
    mem_toFinset, decide_not, Bool.not_eq_true', decide_eq_false_iff_not, ← and_assoc]
  refine and_congr_left fun _ => ?_
  unfold Lists
  cases child_agent.tools with
  | none => simp
  | some names =>
    by_cases hnil : names = []
    · simp [hnil]
    · simp [hnil]

/-- Two selections from a list are the same when they have the same elements. -/
theorem filter_eq_filter_iff {α : Type*} {l : List α} {p q : α → Bool} :
    l.filter p = l.filter q ↔ ∀ x, x ∈ l.filter p ↔ x ∈ l.filter q := by
  constructor
  · intro h x
    rw [h]
  · intro h
    refine filter_congr fun x hx => ?_
    have hiff := h x
    simp only [mem_filter, hx, true_and] at hiff
    exact Bool.eq_iff_iff.mpr hiff

/-- The merged toolset is a selection from the parent's. -/
theorem mergedToolset_eq_filter (disallowed : List String) :
    ∃ q, mergedToolset parent child_agent disallowed = parent.toolset.filter q := by
  unfold mergedToolset mergeToolPolicies retainNamed
  cases child_agent.tools with
  | none => exact ⟨_, rfl⟩
  | some names =>
    dsimp only
    split_ifs
    · exact ⟨_, rfl⟩
    · exact ⟨_, filter_filter⟩

/-- Both ways leave a child the same tools when its list is not empty and lists no disallowed tool
of the parent, or when the list is empty and every tool of the parent is disallowed. -/
def ToolsRespected : Prop :=
  ∀ t ∈ parent.toolset, Lists child_agent t ∨ child_agent.tools = some [] →
    (t.name ∈ parent.disallowed_tools ↔ child_agent.tools = some [])

theorem toolset_agrees_iff {disallowed : List String}
    (hdisallowed : disallowed.toFinset = parent.disallowed_tools) :
    (narrowChildPolicy parent child_agent child_request now).toolset =
      mergedToolset parent child_agent disallowed ↔ ToolsRespected parent child_agent := by
  have hmem : ∀ name, name ∈ parent.disallowed_tools ↔ name ∈ disallowed := fun name => by
    rw [← hdisallowed, mem_toFinset]
  have hempty : ∀ t, child_agent.tools = some [] → ¬Lists child_agent t := fun t hnil hlists =>
    not_mem_nil (hlists [] hnil)
  obtain ⟨q, hq⟩ := mergedToolset_eq_filter parent child_agent disallowed
  have hsame : (narrowChildPolicy parent child_agent child_request now).toolset =
      mergedToolset parent child_agent disallowed ↔
      ∀ t, t ∈ (narrowChildPolicy parent child_agent child_request now).toolset ↔
        t ∈ mergedToolset parent child_agent disallowed := by
    rw [hq]
    exact filter_eq_filter_iff
  rw [hsame]
  simp only [mem_narrowChildPolicy_toolset, mem_mergedToolset, and_congr_right_iff, ToolsRespected,
    hmem]
  refine forall_congr' fun t => imp_congr_right fun _ => ?_
  have hnot := hempty t
  tauto

/-! ## Budgets -/

/-- Every limit that is set is positive; and below a parent without a limit, that parent has 0 left
when no limit is set, and else at least the least of them. -/
def LimitsRespected : Prop :=
  (∀ limit ∈ budgetLimits parent child_agent child_request, 0 < limit) ∧
    (parent.initial_budget_microusd = 0 →
      match leastOf [child_agent.max_cost.map usdToMicrousd,
        child_request.max_cost.map usdToMicrousd] with
      | none => parent.remaining_budget_microusd = 0
      | some limit => limit ≤ parent.remaining_budget_microusd)

/-- Narrowing reads what a parent has left as a limit, also when the parent has none. -/
theorem budget_agrees_iff :
    ((narrowChildPolicy parent child_agent child_request now).initial_budget_microusd =
        mergedBudget parent child_agent child_request ∧
      ((narrowChildPolicy parent child_agent child_request now).initial_budget_microusd = 0 →
        budgetLimits parent child_agent child_request = [])) ↔
      LimitsRespected parent child_agent child_request := by
  simp only [narrowChildPolicy, mergedBudget_eq, budgetLimits, LimitsRespected, leastOf,
    parentLimit]
  -- which of the four amounts are set decides what the two minima are
  by_cases hunlimited : parent.initial_budget_microusd = 0 <;>
    cases child_agent.max_cost <;> cases child_request.max_cost <;>
    simp [hunlimited, List.min?_cons] <;> omega

/-! ## The agreement -/

/-- Both ways agree exactly on the tools and the limits that they read alike. -/
theorem narrowing_agrees_iff : NarrowingAgrees parent child_agent child_request now ↔
    ToolsRespected parent child_agent ∧ LimitsRespected parent child_agent child_request := by
  rw [← budget_agrees_iff parent child_agent child_request now]
  constructor
  · intro h
    have htools := h.toolset parent.disallowed_tools.toList (Finset.toList_toFinset _)
    exact ⟨(toolset_agrees_iff _ _ _ _ (Finset.toList_toFinset _)).mp htools, h.budget,
      h.unlimited⟩
  · rintro ⟨htools, hbudget, hunlimited⟩
    exact ⟨fun _ hdisallowed => (toolset_agrees_iff _ _ _ _ hdisallowed).mpr htools, hbudget,
      hunlimited⟩

end

/-- An agent without tools that may spend half a dollar. -/
def thinkerAgent : AgentDefinition := { tools := some [], max_cost := some (1 / 2) }

/-- A request for it, without limits of its own. -/
def thinkRequest : DelegationRequest :=
  { parent_session_id := "runtime-alice", parent_user_id := "alice", agent_name := "thinker"
    goal := "think it over" }

/-- Below a parent without a budget it gets no tools and no limit; the merge gives it the parent's
tool and its own limit. -/
theorem thinker_disagrees : ¬NarrowingAgrees (readingPolicy 0) thinkerAgent thinkRequest 1 ∧
    (narrowChildPolicy (readingPolicy 0) thinkerAgent thinkRequest 1).toolset = [] ∧
      mergedToolset (readingPolicy 0) thinkerAgent [] = (readingPolicy 0).toolset ∧
    (narrowChildPolicy (readingPolicy 0) thinkerAgent thinkRequest 1).initial_budget_microusd = 0 ∧
      mergedBudget (readingPolicy 0) thinkerAgent thinkRequest = 500000 := by
  refine ⟨fun h => ?_, by decide +kernel, by decide +kernel, by decide +kernel, by decide +kernel⟩
  have hbudget : (narrowChildPolicy (readingPolicy 0) thinkerAgent thinkRequest
      1).initial_budget_microusd ≠ mergedBudget (readingPolicy 0) thinkerAgent thinkRequest := by
    decide +kernel
  exact hbudget h.budget

end Oxydra
