import Oxydra.Runtime.PolicyGuard
import Oxydra.Runtime.SessionSpec

/-!
# A run without a budget

`merge_max_budget` (`crates/types/src/policy_merge.rs`) gives a policy without any budget the
initial budget 0, which the tests of `crates/runtime/src/policy_guard.rs` call unlimited. The turn
loop (`crates/runtime/src/lib.rs`) makes a ledger of that amount and asks the ledger whether it is
exhausted, so it reads the 0 as an amount.

`runTurnUnlimited` is one iteration as it would be with an infinite budget: the loop's own parts,
without the budget stop. `runTurn_unbudgeted` says what an iteration on the budget 0 does instead:
it commits the response and ends the run. `unlimited_iff` compares whole runs.
-/

namespace Oxydra

open List Effect

/-! ## The run with an infinite budget -/

/-- One iteration with an infinite budget: what it costs is settled, and never ends the run. -/
def runTurnUnlimited (env : RunEnv) (inp : TurnInput) : RunM (Option Response) := do
  let (reservation, response) ← callProvider env inp
  settleTurn env reservation response.usage
  finishTurn env inp response

/-- One iteration of a run with an infinite budget that is not over. -/
def sessionStepUnlimited (env : RunEnv) : SessionState → TurnInput → SessionState
  | .running s, inp => .ofResult (runTurnUnlimited env inp s)
  | .done result s, _ => .done result s

/-- A run with an infinite budget on the inputs of its iterations, as far as they go. -/
def runSessionUnlimited (env : RunEnv) (context : Context) (memory : SessionMemory)
    (inputs : List TurnInput) : SessionState :=
  inputs.foldl (sessionStepUnlimited env) (startSession env context memory)

/-! ## The first iteration -/

/-- An iteration up to the response in the transcript: it is asked for, paid for, and committed. -/
def commitReply (env : RunEnv) (inp : TurnInput) : RunM Response := do
  let (reservation, response) ← callProvider env inp
  settleTurn env reservation response.usage
  commitMessage env response.assistantMessage
  pure response

/-- The first iteration of the run gets as far as to commit a response that asks for calls. -/
def FirstReplyAsks (env : RunEnv) (context : Context) (memory : SessionMemory)
    (inputs : List TurnInput) : Prop :=
  ∃ s inp rest r t, startSession env context memory = .running s ∧ inputs = inp :: rest ∧
    commitReply env inp s = .ok r t ∧ r.calls ≠ []

section

variable {env : RunEnv} {p : EffectiveRunPolicy} {settled : ℕ} {s : RunState}

/-- On the budget 0 an iteration that commits a response ends the run. -/
theorem runTurn_unbudgeted (hp : env.policy = some p) (hmode : p.rollout_mode = .enforce)
    (hzero : p.remaining_budget_microusd = 0) (hledger : LedgerAt env 0 settled s)
    (inp : TurnInput) :
    runTurn env inp s = (do
      let r ← commitReply env inp
      pure (some r.final) : RunM (Option Response)) s := by
  have hcall := callProvider_spec hledger inp
  unfold runTurn commitReply
  simp only [hp, Option.isSome_some, if_true, bind_assoc, pure_bind]
  cases hrun : callProvider env inp s with
  | error e t => rw [bind_error hrun, bind_error hrun]
  | ok out t =>
    obtain ⟨reservation, r⟩ := out
    obtain ⟨-, -, -, -, -, amount, hamount, hreserved, hres⟩ := hcall.ok hrun
    have hsettle := settleCost_spec hp hreserved hamount hres (turnCostMicrousd r.usage)
    rw [bind_ok hrun, bind_ok hrun]
    cases hpay : settleTurn env reservation r.usage t with
    | error e u => exact (hsettle.error hpay).elim
    | ok a u =>
      -- nothing is left of nothing, whatever was settled
      obtain ⟨-, -, -, -, -, hledger'⟩ := hsettle.ok hpay
      have hstops : budgetStops env u = true := by
        rw [budgetStops_eq hledger']
        simp [budgetEnds, hp, hmode, hzero]
      have hstate : (get : RunM RunState) u = .ok u u := rfl
      rw [bind_ok hpay, bind_ok hpay, bind_ok hstate, if_pos hstops]

/-- With an infinite budget the run goes on with the calls of the response. -/
theorem runTurnUnlimited_eq (env : RunEnv) (inp : TurnInput) :
    runTurnUnlimited env inp = (do
      let r ← commitReply env inp
      if r.calls = [] then pure (some r.final)
      else
        toolPhase env inp r.calls
        pure none) := by
  unfold runTurnUnlimited commitReply finishTurn
  simp only [bind_assoc, pure_bind]

/-- The transcript of a run with an infinite budget only grows. -/
theorem runTurnUnlimited_spec (hp : env.policy = some p) (hledger : LedgerAt env 0 settled s)
    (inp : TurnInput) :
    wp (runTurnUnlimited env inp)
      (fun _ t => (∃ settled', LedgerAt env 0 settled' t) ∧
        s.context.messages <+: t.context.messages)
      (fun _ t => s.context.messages <+: t.context.messages) s := by
  unfold runTurnUnlimited
  rw [wp_bind]
  refine (callProvider_spec hledger inp).mono (fun out t ht => ?_)
    (fun _ t ht => by rw [ht.context])
  obtain ⟨reservation, r⟩ := out
  obtain ⟨-, hcontext, -, -, -, amount, hamount, hreserved, hres⟩ := ht
  rw [wp_bind]
  refine (settleCost_spec hp hreserved hamount hres _).mono (fun _ u hu => ?_) (fun _ _ h => h.elim)
  obtain ⟨hcontext', -, -, -, -, hledger'⟩ := hu
  have hgrows : ∀ v ms stored, Extends env r.calls u v ms stored →
      s.context.messages <+: v.context.messages := by
    intro v ms stored hext
    rw [hext.context, hcontext', hcontext]
    exact prefix_append _ _
  refine (finishTurn_spec env inp r u).mono (fun _ v hv => ?_) (fun _ v hv => ?_)
  · obtain ⟨ms, hext, -⟩ := hv
    exact ⟨⟨_, hext.ledger.trans hledger'⟩, hgrows v _ _ hext⟩
  · obtain ⟨ms, stored, hext⟩ := hv
    exact hgrows v _ _ hext

/-- So it does over the iterations that follow. -/
theorem unlimited_grows (hp : env.policy = some p) :
    ∀ (inputs : List TurnInput) (st : SessionState), Ledgered env st → st.state.context.messages <+:
      (inputs.foldl (sessionStepUnlimited env) st).state.context.messages
  | [], st, _ => prefix_rfl
  | inp :: rest, st, hst => by
    rw [foldl_cons]
    cases st with
    | done result s => exact unlimited_grows hp rest _ hst
    | running s =>
      obtain ⟨settled, hledger⟩ := hst s rfl
      have hspec := runTurnUnlimited_spec hp hledger inp
      have hstep : sessionStepUnlimited env (.running s) inp =
          .ofResult (runTurnUnlimited env inp s) := rfl
      rw [hstep]
      cases hrun : runTurnUnlimited env inp s with
      | error e t =>
        have hrest := unlimited_grows hp rest (.done (.error e) t) (by simp [Ledgered])
        exact (hspec.error hrun).trans hrest
      | ok out t =>
        obtain ⟨hledger', hbefore⟩ := hspec.ok hrun
        cases out with
        | none =>
          have hrest := unlimited_grows hp rest (.running t) (by
            intro s' hs'
            rw [SessionState.running.injEq] at hs'
            exact hs' ▸ hledger')
          exact hbefore.trans hrest
        | some r =>
          have hrest := unlimited_grows hp rest (.done (.ok r) t) (by simp [Ledgered])
          exact hbefore.trans hrest

/-- The response that is committed is the provider's, and the ledger after it is as the loop needs
it. -/
theorem commitReply_ok (hp : env.policy = some p) (hledger : LedgerAt env 0 settled s)
    {inp : TurnInput} {r : Response} {t : RunState} (h : commitReply env inp s = .ok r t) :
    inp.response = .ok r ∧ ∃ settled', LedgerAt env 0 settled' t := by
  have hspec : wp (commitReply env inp)
      (fun r t => inp.response = .ok r ∧ ∃ settled', LedgerAt env 0 settled' t)
      (fun _ _ => True) s := by
    unfold commitReply
    rw [wp_bind]
    refine (callProvider_spec hledger inp).mono (fun out t ht => ?_) (fun _ _ _ => trivial)
    obtain ⟨reservation, r⟩ := out
    obtain ⟨hr, -, -, -, -, amount, hamount, hreserved, hres⟩ := ht
    dsimp only at hr ⊢
    rw [wp_bind]
    refine (settleCost_spec hp hreserved hamount hres _).mono (fun _ u hu => ?_)
      (fun _ _ _ => trivial)
    obtain ⟨-, -, -, -, -, hledger'⟩ := hu
    simp only [wp_bind, wp_pure]
    refine (commitMessage_spec env _ u).mono (fun _ v hv => ?_) (fun _ _ _ => trivial)
    exact ⟨hr, _, hv.ledger.trans hledger'⟩
  exact hspec.ok h

/-- A run that is over stays as it is. -/
theorem done_stays (env : RunEnv) (result : Except RuntimeError Response) (s : RunState) :
    ∀ inputs : List TurnInput,
      inputs.foldl (fun st inp => (sessionStep env st inp).getD st) (.done result s) =
        .done result s ∧
      inputs.foldl (sessionStepUnlimited env) (.done result s) = .done result s
  | [] => ⟨rfl, rfl⟩
  | _ :: rest => done_stays env result s rest

/-- A run that ends with a response that asks for calls differs from the one that answers them. -/
theorem asked_differs (hp : env.policy = some p) {t : RunState}
    (hledger : ∃ settled, LedgerAt env 0 settled t) {r : Response} (hcalls : r.calls ≠ [])
    (inp : TurnInput) (rest : List TurnInput) :
    ¬SessionState.done (.ok r.final) t = rest.foldl (sessionStepUnlimited env)
      (.ofResult ((do
        toolPhase env inp r.calls
        pure none : RunM (Option Response)) t)) := by
  intro heq
  have hspec := toolPhase_spec env inp r.calls t
  cases htools : toolPhase env inp r.calls t with
  | error e u =>
    have hstays := done_stays env (.error e) u rest
    rw [bind_error htools] at heq
    have hends := heq.trans hstays.2
    simp at hends
  | ok a u =>
    obtain ⟨ms, hext, hans⟩ := hspec.ok htools
    rw [bind_ok htools] at heq
    -- the answers are in the transcript from here on
    have hledgered : Ledgered env (.running u) := by
      intro s' hs'
      rw [SessionState.running.injEq] at hs'
      obtain ⟨settled, hledger⟩ := hledger
      exact hs' ▸ ⟨settled, hext.ledger.trans hledger⟩
    have hgrows : u.context.messages <+: t.context.messages := by
      have hgrows := unlimited_grows hp rest (.running u) hledgered
      have hstate := congrArg (fun st => st.state.context.messages) heq
      exact hstate ▸ hgrows
    have hlength := hgrows.length_le
    have hanswers : ms.length = r.calls.length := hans.length_eq.symm
    have hpos : 0 < r.calls.length := length_pos_of_ne_nil hcalls
    rw [hext.context] at hlength
    simp only [length_append] at hlength
    omega

end

/-! ## Whole runs -/

/-- A run whose policy was resolved without a budget in any layer behaves as it would with an
infinite budget exactly if it does not get as far as to commit a first response that asks for tool
calls. -/
theorem unlimited_iff {global_config : RuntimeConfig} {agent_def : AgentDefinition}
    {per_run : RunPolicyInput} {available_tools : List FunctionDecl} {now now' now'' : Timestamp}
    {p : EffectiveRunPolicy}
    (hresolved : resolvePolicy global_config agent_def per_run available_tools now now' now'' =
      some (.ok p))
    (hglobal : global_config.max_cost = none) (hagent : agent_def.max_cost = none)
    (hrun : per_run.max_budget_microusd = none) {env : RunEnv} (hp : env.policy = some p)
    (context : Context) (memory : SessionMemory) (inputs : List TurnInput) :
    runSessionInternal env context memory inputs = runSessionUnlimited env context memory inputs ↔
      ¬FirstReplyAsks env context memory inputs := by
  obtain ⟨-, hremaining, -, hmode⟩ := resolvePolicy_spec hresolved
  have hzero : p.remaining_budget_microusd = 0 := by
    rw [hremaining, mergeMaxBudget_unset hglobal hagent hrun]
  unfold runSessionInternal runSessionUnlimited
  rcases startSession_cases env context memory with ⟨s, hs, -, hledger, -⟩ | ⟨e, s, hs, -⟩
  · rw [hs]
    cases inputs with
    | nil => simp [FirstReplyAsks]
    | cons inp rest =>
      have hturn := runTurn_unbudgeted hp hmode hzero hledger inp
      have hunlimited := congrFun (runTurnUnlimited_eq env inp) s
      have hasks : FirstReplyAsks env context memory (inp :: rest) ↔
          ∃ r t, commitReply env inp s = .ok r t ∧ r.calls ≠ [] := by
        simp [FirstReplyAsks, hs]
      rw [hasks, foldl_cons, foldl_cons]
      have hstep : (sessionStep env (.running s) inp).getD (.running s) =
          .ofResult (runTurn env inp s) := rfl
      have hstep' : sessionStepUnlimited env (.running s) inp =
          .ofResult (runTurnUnlimited env inp s) := rfl
      rw [hstep, hstep', hturn, hunlimited]
      cases hreply : commitReply env inp s with
      | error e t =>
        -- both runs end with the same failure
        have hstays := done_stays env (.error e) t rest
        rw [bind_error hreply, bind_error hreply]
        simp only [SessionState.ofResult, hstays.1, hstays.2]
        simp
      | ok r t =>
        have hstays := done_stays env (.ok r.final) t rest
        have hdone : SessionState.ofResult ((pure (some r.final) : RunM (Option Response)) t) =
            .done (.ok r.final) t := rfl
        rw [bind_ok hreply, bind_ok hreply, hdone, hstays.1]
        by_cases hcalls : r.calls = []
        · -- a final answer ends both runs
          rw [if_pos hcalls, hdone, hstays.2]
          simp [hcalls]
        · -- the run is over, and the other one has the answers to the calls before it
          rw [if_neg hcalls]
          obtain ⟨-, hledger'⟩ := commitReply_ok hp hledger hreply
          have hdiffers := asked_differs hp hledger' hcalls inp rest
          refine iff_of_false hdiffers (not_not_intro ⟨r, t, rfl, hcalls⟩)
  · have hstays := done_stays env (.error e) s inputs
    rw [hs, hstays.1, hstays.2]
    simp [FirstReplyAsks, hs]

/-- A run on defaults alone. -/
def defaultRun : RunEnv where
  rt := toolRuntime
  policy := some
    { started_at := 0
      deadline := some 6000000000000
      initial_budget_microusd := 0
      remaining_budget_microusd := 0
      toolset := toolRuntime.tool_registry.schemas
      max_turns := some 100 }

/-- Its policy is resolved from layers that set no budget. -/
theorem defaultRun_resolved :
    (resolvePolicy { turn_timeout_secs := 60, max_turns := 100 } {} {}
      toolRuntime.tool_registry.schemas 0 0 0).bind Except.toOption = defaultRun.policy := by
  decide

/-- A first response without calls ends the run as it would with an infinite budget. -/
theorem plainAnswer_unlimited :
    runSessionInternal defaultRun asked {} [reply [] 5] =
      runSessionUnlimited defaultRun asked {} [reply [] 5] := by
  obtain ⟨resolved, hresolved, hok⟩ := Option.bind_eq_some_iff.mp defaultRun_resolved
  rw [mem_toOption.mp hok] at hresolved
  refine (unlimited_iff hresolved rfl rfl rfl rfl asked {} [reply [] 5]).mpr ?_
  rintro ⟨s, inp, rest, r, t, hs, hinputs, hreply, hcalls⟩
  cases hinputs
  obtain ⟨settled, hledger⟩ := ledgered_start defaultRun asked {} s hs
  obtain ⟨hr, -⟩ := commitReply_ok rfl hledger hreply
  cases hr
  exact hcalls rfl

/-- A first response that asks for a call: the run is over, where with an infinite budget it goes on
to answer the call. -/
theorem unset_budget_stops :
    (resolvePolicy { turn_timeout_secs := 60, max_turns := 100 } {} {}
        toolRuntime.tool_registry.schemas 0 0 0).bind Except.toOption = defaultRun.policy ∧
      (runSessionInternal defaultRun asked {}
        [reply [plainCall "c1" "file_read"] 5]).success.isSome = true ∧
      (runSessionUnlimited defaultRun asked {}
        [reply [plainCall "c1" "file_read"] 5]).success.isSome = false ∧
      runSessionInternal defaultRun asked {} [reply [plainCall "c1" "file_read"] 5] ≠
        runSessionUnlimited defaultRun asked {} [reply [plainCall "c1" "file_read"] 5] := by
  have hover : (runSessionInternal defaultRun asked {}
      [reply [plainCall "c1" "file_read"] 5]).success.isSome = true := by decide
  have hgoes : (runSessionUnlimited defaultRun asked {}
      [reply [plainCall "c1" "file_read"] 5]).success.isSome = false := by decide
  refine ⟨defaultRun_resolved, hover, hgoes, fun heq => ?_⟩
  rw [heq, hgoes] at hover
  simp at hover

end Oxydra
