import Oxydra.Library.Totals
import Oxydra.Runtime.Delegation
import Oxydra.Runtime.RunLimits

/-!
# Budgets across a tree of delegated runs

A run whose provider calls `delegate_to_agent` starts another run, which may do so in turn. The runs
of the tree take their turns in any order (`treeSystem`). Each has a ledger of its own, of the
budget that `narrow_child_policy` (`crates/runtime/src/delegation.rs`) took from the policy of its
parent. That policy is the one the parent was started with: what the parent has spent or granted
since is not in it, so two delegations may be granted the same money.

`tree_within_budget` says when the tree as a whole keeps to the root's budget. Every run keeps what
it granted and what it settled before its last turn within its own budget, and all that is granted
is the budget of some other run of the tree, so what was settled before the last turns sums to at
most the budget of the root.
-/

namespace Oxydra

open Option List Lts Trace

variable {executor : DelegationExecutor} {p : EffectiveRunPolicy} {env : RunEnv}

/-! ## The tree -/

/-- A run of the tree, with the budgets that it has granted to its children. -/
structure TreeRun where
  env : RunEnv
  st : SessionState
  granted : List ℕ := []

/-- The budget that a run's ledger starts with. -/
def TreeRun.budget (run : TreeRun) : ℕ :=
  match run.env.policy with
  | some p => p.remaining_budget_microusd
  | none => 0

/-- What happens in a run of the tree. -/
def TreeRun.trace (run : TreeRun) : List RunEvent := run.st.state.trace

/-- All that a run has settled. -/
def TreeRun.settled (run : TreeRun) : ℕ := (settledCosts run.trace).sum

/-- What a run has settled before its last provider call. -/
def TreeRun.before (run : TreeRun) : ℕ := (settledCosts (uptoLast .providerCall run.trace)).sum

/-- The cost of a run's last turn: what it has settled since its last provider call. -/
def TreeRun.lastTurn (run : TreeRun) : ℕ := (settledCosts (sinceLast .providerCall run.trace)).sum

/-- The arguments of the calls of `delegate_to_agent` that a run has executed. -/
def delegateCalls (trace : List RunEvent) : List Value :=
  trace.filterMap fun
    | .toolExecuted name args => if name = "delegate_to_agent" then some args else none
    | _ => none

/-- What happens next in the tree: a run takes a turn, or a delegation that one of its tool calls
asked for starts. -/
inductive TreeAction where
  | turn (i : ℕ) (inp : TurnInput)
  | delegate (i : ℕ) (args : Value) (uuid : String) (now : Timestamp) (memory : SessionMemory)

/-- The run that a delegation starts. -/
def childRun (executor : DelegationExecutor) (run : TreeRun) (args : Value) (uuid : String)
    (now : Timestamp) (memory : SessionMemory) : Option TreeRun := do
  let request ← delegationRequest (turnToolContext run.env run.st.state) args
  let (env, context) ← (executor.delegate request uuid now).toOption
  pure { env := env, st := startSession env context memory }

/-- One step of the tree. A delegation is one that a call has asked for, and there are no more of
them than calls. -/
def treeStep (executor : DelegationExecutor) (tree : List TreeRun) :
    TreeAction → Option (List TreeRun)
  | .turn i inp => do
    let run ← tree[i]?
    let st ← sessionStep run.env run.st inp
    pure (tree.set i { run with st := st })
  | .delegate i args uuid now memory => do
    let run ← tree[i]?
    if args ∈ delegateCalls run.trace ∧ run.granted.length < (delegateCalls run.trace).length then
      let child ← childRun executor run args uuid now memory
      pure (tree.set i { run with granted := run.granted ++ [child.budget] } ++ [child])
    else none

/-- All trees below a root run. -/
def treeSystem (executor : DelegationExecutor) (env : RunEnv) (context : Context)
    (memory : SessionMemory) : System (List TreeRun) TreeAction :=
  ofStep (fun tree => tree = [{ env := env, st := startSession env context memory }])
    (treeStep executor)

/-! ## When the tree keeps to the budget -/

/-- The condition on a step. A turn's cost fits in a word, and a run that has delegated takes
another turn only while what it has settled and granted is within its budget; a delegation is
granted no more than the parent's earlier turns and grants have left. -/
def GrantsLeft (executor : DelegationExecutor) (tree : List TreeRun) : TreeAction → Prop
  | .turn i inp => ∀ run ∈ tree[i]?, CostsFit run.st inp ∧
      (run.granted ≠ [] → run.settled + run.granted.sum ≤ run.budget)
  | .delegate i args uuid now memory => ∀ run ∈ tree[i]?,
      ∀ child ∈ childRun executor run args uuid now memory,
        run.before + run.granted.sum + child.budget ≤ run.budget

/-- A run of the tree keeps to its own budget. -/
structure RunWithin (run : TreeRun) : Prop where
  enforced : ∃ p, run.env.policy = some p ∧ p.rollout_mode = .enforce
  /-- At the head of its loop it has settled no more than its budget. -/
  limits : WithinLimits run.env (run.budget + 1) run.st
  granted : run.before + run.granted.sum ≤ run.budget

/-- The tree keeps to its budgets, and every budget but the root's was granted once. -/
structure TreeWithin (budget : ℕ) (tree : List TreeRun) : Prop where
  runs : ∀ run ∈ tree, RunWithin run
  budgets : (tree.map TreeRun.budget).sum = budget + (tree.map fun run => run.granted.sum).sum

/-- A run that was just started has settled nothing. -/
theorem before_start (env : RunEnv) (context : Context) (memory : SessionMemory) :
    (TreeRun.mk env (startSession env context memory) []).before = 0 := by
  have hnone : (startSession env context memory).state.trace = [] := by
    rcases startSession_cases env context memory with ⟨t, ht, hstart, -⟩ | ⟨e, t, ht, hstart, -⟩
    · rw [ht]
      exact hstart.trace
    · rw [ht]
      exact hstart.trace
  unfold TreeRun.before TreeRun.trace
  rw [hnone]
  rfl

/-- A run under an enforced policy starts within its budget. -/
theorem runWithin_start (hp : env.policy = some p) (hmode : p.rollout_mode = .enforce)
    (context : Context) (memory : SessionMemory) :
    RunWithin { env := env, st := startSession env context memory } where
  enforced := ⟨p, hp, hmode⟩
  limits := withinLimits_start (Nat.succ_pos _) context memory
  granted := by
    rw [before_start]
    exact Nat.zero_le _

/-- The trace of a run at the end of a step: another provider call was made, or none. -/
theorem step_trace (hp : env.policy = some p) (hmode : p.rollout_mode = .enforce) {budget : ℕ}
    {st st' : SessionState} {inp : TurnInput} (hinv : WithinLimits env budget st)
    (hstep : sessionStep env st inp = some st') :
    ∃ s, st = .running s ∧
      ((∃ rest, st'.state.trace = s.trace ++ [.providerCall] ++ rest ∧ .providerCall ∉ rest) ∨
        ∃ rest, st'.state.trace = s.trace ++ rest ∧ .providerCall ∉ rest) := by
  obtain ⟨s, settled, rfl, -, hcases⟩ :=
    sessionStep_cases hstep fun s hs => ⟨_, (hinv.head s hs).ledger⟩
  refine ⟨s, rfl, ?_⟩
  rcases hcases with ⟨r, ms, t, hans, rfl⟩ | ⟨r, ms, out, t, hans, rfl⟩ | ⟨e, t, hfails, rfl⟩
  · obtain ⟨u, hpaid, hext⟩ := hans.paid
    obtain ⟨-, fallback, execs, hfallback, hexecs, htrace⟩ := paid_trace hp hmode hpaid hext
    exact Or.inl ⟨_, htrace, (followsCall_settled hfallback hexecs _).not_mem⟩
  · obtain ⟨u, hpaid, hext⟩ := hans.paid
    obtain ⟨-, fallback, execs, hfallback, hexecs, htrace⟩ := paid_trace hp hmode hpaid hext
    exact Or.inl ⟨_, htrace, (followsCall_settled hfallback hexecs _).not_mem⟩
  · rcases fails_trace hp hmode hfails with h | h | ⟨-, rest, h, hrest⟩
    · exact Or.inr ⟨[], by rw [append_nil]; exact h, by simp⟩
    · exact Or.inr ⟨_, h, by simp⟩
    · exact Or.inl ⟨rest, h, hrest.not_mem⟩

/-- A turn keeps a run within its budget: what it has settled so far is what comes before its next
provider call. -/
theorem runWithin_turn {run : TreeRun} {st : SessionState} {inp : TurnInput} (h : RunWithin run)
    (hfit : CostsFit run.st inp)
    (hleft : run.granted ≠ [] → run.settled + run.granted.sum ≤ run.budget)
    (hstep : sessionStep run.env run.st inp = some st) : RunWithin { run with st := st } := by
  obtain ⟨p, hp, hmode⟩ := h.enforced
  have hbudget : p.remaining_budget_microusd ≤ run.budget + 1 := by
    have hle : p.remaining_budget_microusd = run.budget := by simp [TreeRun.budget, hp]
    omega
  obtain ⟨s, hs, htrace⟩ := step_trace hp hmode h.limits hstep
  have hstate : run.trace = s.trace := by rw [TreeRun.trace, hs]; rfl
  refine ⟨⟨p, hp, hmode⟩, withinLimits_step hp hmode hbudget h.limits hfit hstep, ?_⟩
  show (settledCosts (uptoLast .providerCall st.state.trace)).sum + run.granted.sum ≤ run.budget
  rcases htrace with ⟨rest, htrace, hrest⟩ | ⟨rest, htrace, hrest⟩
  · -- a run at the head of its loop is within its budget as long as it has granted nothing
    have hwithin : run.settled + run.granted.sum ≤ run.budget := by
      by_cases hgranted : run.granted = []
      · have hbelow := (h.limits.head s hs).below
        rw [TreeRun.settled, hstate, hgranted, sum_nil]
        omega
      · exact hleft hgranted
    rw [htrace, uptoLast_append hrest, uptoLast_snoc, settledCosts_append, sum_append]
    rw [TreeRun.settled, hstate] at hwithin
    exact hwithin
  · -- the provider was not called, so the last call is the one from before
    have hbefore := h.granted
    rw [TreeRun.before, hstate] at hbefore
    rw [htrace, uptoLast_append hrest]
    exact hbefore

/-- The executor narrows the policy of the request. -/
theorem delegate_policy {request : DelegationRequest} {uuid : String} {now : Timestamp}
    {context : Context} (hpolicy : request.parent_policy = some p)
    (h : executor.delegate request uuid now = .ok (env, context)) :
    ∃ q, env.policy = some q ∧ Narrows p q := by
  unfold DelegationExecutor.delegate at h
  split_ifs at h
  split at h
  · simp at h
  · next agent hagent =>
    cases h
    exact ⟨narrowChildPolicy p agent request now, by simp [hpolicy],
      narrowChildPolicy_narrows p agent request now⟩

/-- The child of an enforced run is one. -/
theorem childRun_within {run child : TreeRun} {args : Value} {uuid : String} {now : Timestamp}
    {memory : SessionMemory} (henforced : ∃ p, run.env.policy = some p ∧ p.rollout_mode = .enforce)
    (h : childRun executor run args uuid now memory = some child) :
    RunWithin child ∧ child.granted = [] := by
  obtain ⟨p, hp, hmode⟩ := henforced
  obtain ⟨request, hrequest, h⟩ := bind_eq_some_iff.mp h
  obtain ⟨⟨env, context⟩, hdelegate, h⟩ := bind_eq_some_iff.mp h
  have hpolicy : request.parent_policy = some p := by
    obtain ⟨args, -, hrequest⟩ := bind_eq_some_iff.mp hrequest
    obtain ⟨user_id, -, hrequest⟩ := bind_eq_some_iff.mp hrequest
    rw [← some.inj hrequest]
    exact hp
  obtain ⟨q, hq, hnarrows⟩ := delegate_policy hpolicy (Effect.mem_toOption.mp hdelegate)
  have hqmode : q.rollout_mode = .enforce := hnarrows.mode.trans hmode
  rw [← some.inj h]
  exact ⟨runWithin_start hq hqmode context memory, rfl⟩

/-- A step keeps the tree within its budgets. -/
theorem treeWithin_step {executor : DelegationExecutor} {budget : ℕ} {tree tree' : List TreeRun}
    {action : TreeAction} (h : TreeWithin budget tree) (hleft : GrantsLeft executor tree action)
    (hstep : treeStep executor tree action = some tree') : TreeWithin budget tree' := by
  cases action with
  | turn i inp =>
    obtain ⟨run, hrun, hstep⟩ := bind_eq_some_iff.mp hstep
    obtain ⟨st, hst, hstep⟩ := bind_eq_some_iff.mp hstep
    obtain rfl : tree.set i { run with st := st } = tree' := some.inj hstep
    obtain ⟨hfit, hgranted⟩ := hleft run hrun
    have hmem : run ∈ tree := mem_of_getElem? hrun
    have hwithin := runWithin_turn (h.runs run hmem) hfit hgranted hst
    refine ⟨fun run' hrun' => ?_, ?_⟩
    · rcases mem_or_eq_of_mem_set hrun' with hold | rfl
      · exact h.runs run' hold
      · exact hwithin
    · -- a turn changes no budget and no grant
      have hbudget := Totals.sum_set TreeRun.budget (y := { run with st := st }) hrun
      have hgrants := Totals.sum_set (fun run => run.granted.sum) (y := { run with st := st }) hrun
      have hsame : TreeRun.budget { run with st := st } = run.budget := rfl
      have htotal := h.budgets
      simp only [hsame] at hbudget hgrants
      omega
  | delegate i args uuid now memory =>
    obtain ⟨run, hrun, hstep⟩ := bind_eq_some_iff.mp hstep
    split_ifs at hstep with hcalls
    obtain ⟨child, hchild, hstep⟩ := bind_eq_some_iff.mp hstep
    have hmem : run ∈ tree := mem_of_getElem? hrun
    have hold := h.runs run hmem
    have hgrant := hleft run hrun child hchild
    obtain ⟨hwithin, hnone⟩ := childRun_within hold.enforced hchild
    cases hstep
    refine ⟨fun run' hrun' => ?_, ?_⟩
    · rcases mem_append.mp hrun' with hrun' | hrun'
      · rcases mem_or_eq_of_mem_set hrun' with hrun' | rfl
        · exact h.runs run' hrun'
        · refine ⟨hold.enforced, hold.limits, ?_⟩
          show run.before + (run.granted ++ [child.budget]).sum ≤ run.budget
          rw [sum_append, sum_singleton]
          omega
      · rw [mem_singleton.mp hrun']
        exact hwithin
    · -- the child's budget is new on both sides
      have hbudget := Totals.sum_set TreeRun.budget
        (y := { run with granted := run.granted ++ [child.budget] }) hrun
      have hgrants := Totals.sum_set (fun run => run.granted.sum)
        (y := { run with granted := run.granted ++ [child.budget] }) hrun
      have hsame : TreeRun.budget { run with granted := run.granted ++ [child.budget] } =
        run.budget := rfl
      have htotal := h.budgets
      simp only [hsame, sum_append, sum_singleton] at hbudget hgrants
      simp only [map_append, map_cons, map_nil, sum_append, sum_singleton,
        hnone, sum_nil]
      omega

/-- What is settled before the last turns of a tree within its budgets is within the root's. -/
theorem TreeWithin.before_le {budget : ℕ} {tree : List TreeRun} (h : TreeWithin budget tree) :
    (tree.map TreeRun.before).sum ≤ budget := by
  have hruns : (tree.map TreeRun.before).sum + (tree.map fun run => run.granted.sum).sum ≤
      (tree.map TreeRun.budget).sum := by
    have hall := h.runs
    clear h
    induction tree with
    | nil => simp
    | cons run tree ih =>
      have hone := (hall run mem_cons_self).granted
      have hrest := ih fun run' hrun' => hall run' (mem_cons_of_mem _ hrun')
      simp only [map_cons, sum_cons]
      omega
  have htotal := h.budgets
  omega

/-- In every tree of runs below an enforced root, in which every delegation and every further turn
finds enough left, all that is settled is at most the root's budget and the costs of the last turns
of the runs. -/
theorem tree_within_budget {executor : DelegationExecutor} {env : RunEnv} {p : EffectiveRunPolicy}
    (hp : env.policy = some p) (hmode : p.rollout_mode = .enforce)
    (hinitial : p.remaining_budget_microusd ≤ p.initial_budget_microusd) {context : Context}
    {memory : SessionMemory} {tree : List TreeRun}
    (h : (treeSystem executor env context memory).ReachWithin (GrantsLeft executor) tree) :
    (tree.map TreeRun.settled).sum ≤
      p.initial_budget_microusd + (tree.map TreeRun.lastTurn).sum := by
  have hinv : TreeWithin p.remaining_budget_microusd tree := by
    refine h.invariant (fun tree htree => ?_) (fun tree action tree' hinv hleft hstep => ?_)
    · obtain rfl : tree = [{ env := env, st := startSession env context memory }] := htree
      refine ⟨fun run hrun => ?_, ?_⟩
      · rw [mem_singleton.mp hrun]
        exact runWithin_start hp hmode context memory
      · simp [TreeRun.budget, hp]
    · exact treeWithin_step hinv hleft hstep
  have hsplit : ∀ run : TreeRun, run.settled = run.before + run.lastTurn := by
    intro run
    unfold TreeRun.settled TreeRun.before TreeRun.lastTurn
    rw [← sum_append, ← settledCosts_append, uptoLast_append_sinceLast]
  have hbefore := hinv.before_le
  calc (tree.map TreeRun.settled).sum
      = (tree.map TreeRun.before).sum + (tree.map TreeRun.lastTurn).sum := by
        rw [← sum_map_add]
        exact congrArg List.sum (map_congr_left fun run _ => hsplit run)
    _ ≤ p.remaining_budget_microusd + (tree.map TreeRun.lastTurn).sum := by omega
    _ ≤ p.initial_budget_microusd + (tree.map TreeRun.lastTurn).sum := by omega

instance (executor : DelegationExecutor) (tree : List TreeRun) (action : TreeAction) :
    Decidable (GrantsLeft executor tree action) :=
  match action with
  | .turn i inp => inferInstanceAs (Decidable (∀ run ∈ tree[i]?, CostsFit run.st inp ∧ _))
  | .delegate i args uuid now memory => inferInstanceAs (Decidable (∀ run ∈ tree[i]?,
      ∀ child ∈ childRun executor run args uuid now memory, _))

/-- A runtime on which work can be delegated to a researcher without limits of its own, or to a
clerk with 60 micro-USD. -/
def researchExecutor : DelegationExecutor where
  runtime :=
    { smallRuntime 2000 false with
      tool_registry := ⟨[plainTool "delegate_to_agent" .sideEffecting,
        plainTool "file_read" .readOnly], 16384, none⟩ }
  agents := [("clerk", { max_cost := some (60 / 1000000) }), ("researcher", {})]
  root_selection := ⟨"openai", "gpt-4o"⟩

/-- A run of a user on that runtime, on a budget. -/
def researchRun (budget : ℕ) : RunEnv where
  rt := researchExecutor.runtime
  tool_context := { user_id := some "alice", session_id := some "runtime-alice" }
  policy := some { readingPolicy budget with
    toolset := [{ name := "delegate_to_agent", parameters := .object [] },
      { name := "file_read", parameters := .object [] }] }

/-- The arguments of a delegation. -/
def lookUp (agent_name : String) : Value :=
  .object [("agent_name", .string agent_name), ("goal", .string "look it up")]

/-- A run that settles 50 micro-USD of 200, grants 60 to a child that settles them, and settles 10
more. -/
theorem delegateOnce_within :
    ∃ tree, (treeSystem researchExecutor (researchRun 200) asked {}).ReachWithin
        (GrantsLeft researchExecutor) tree ∧
      tree.map TreeRun.settled = [60, 60] ∧
      (tree.map TreeRun.settled).sum ≤ 200 + (tree.map TreeRun.lastTurn).sum := by
  obtain ⟨tree, htree, hsettled⟩ : ∃ tree ∈ exec (GrantsLeft researchExecutor)
      (treeStep researchExecutor)
      [{ env := researchRun 200, st := startSession (researchRun 200) asked {} }]
      [.turn 0 (reply [⟨"c1", "delegate_to_agent", lookUp "clerk", none⟩] 5),
        .delegate 0 (lookUp "clerk") "a" 0 {}, .turn 1 (reply [] 6), .turn 0 (reply [] 1)],
      tree.map TreeRun.settled = [60, 60] := by decide +kernel
  have hreach : (treeSystem researchExecutor (researchRun 200) asked {}).ReachWithin
      (GrantsLeft researchExecutor) tree := reachWithin_exec (.init rfl) htree
  exact ⟨tree, hreach, hsettled,
    tree_within_budget rfl rfl le_rfl hreach⟩

/-- On a budget of 100 a run settles 50, and its child is granted the whole 100 again: together they
settle 160, of which their last turns cost 50. -/
theorem delegation_overspends :
    ∃ tree, (treeSystem researchExecutor (researchRun 100) asked {}).Reach tree ∧
      tree.map TreeRun.settled = [60, 100] ∧ tree.map TreeRun.lastTurn = [10, 40] ∧
      ¬(tree.map TreeRun.settled).sum ≤
        (readingPolicy 100).initial_budget_microusd + (tree.map TreeRun.lastTurn).sum := by
  obtain ⟨tree, htree, hsettled, hlast⟩ : ∃ tree ∈ exec (fun _ _ => True)
      (treeStep researchExecutor)
      [{ env := researchRun 100, st := startSession (researchRun 100) asked {} }]
      [.turn 0 (reply [⟨"c1", "delegate_to_agent", lookUp "researcher", none⟩] 5),
        .delegate 0 (lookUp "researcher") "a" 0 {}, .turn 1 (reply [plainCall "c2" "file_read"] 6),
        .turn 1 (reply [] 4), .turn 0 (reply [] 1)],
      tree.map TreeRun.settled = [60, 100] ∧ tree.map TreeRun.lastTurn = [10, 40] := by
    decide +kernel
  have hreach : (treeSystem researchExecutor (researchRun 100) asked {}).Reach tree :=
    reachWithin_exec (.init rfl) htree
  refine ⟨tree, hreach, hsettled, hlast, ?_⟩
  rw [hsettled, hlast]
  decide

end Oxydra
