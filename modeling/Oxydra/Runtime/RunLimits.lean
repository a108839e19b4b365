import Oxydra.Library.Trace
import Oxydra.Runtime.SessionSpec

/-!
# The limits of an enforced policy over a run

What the loop of `run_session_internal` (`crates/runtime/src/lib.rs`) guarantees under a policy in
`Enforce` mode, over every sequence of provider responses. The trace of a run says when the provider
was called, what was settled, and which tools were executed; the theorems are about this trace.

`overrun_bounded` is about the turns, the budget, and the deadline: the run is stopped before a
provider call, or goes on with budget left, so all that is settled before any provider call is below
the budget. A turn whose stream fails calls the provider twice, so the turn limit bounds the turns
and not the calls. `executed_allowed` is about the tools: dispatch asks whether a tool is disallowed
and never whether it is in the toolset, so the provider must keep to the toolset for the run to do
so.
-/

namespace Oxydra

open List Lts Trace

variable {rest : List RunEvent} {s : RunState} {inp : TurnInput} {settled : ℕ}

/-! ## What one iteration records -/

/-- The cost of an event, if it settles one. -/
def RunEvent.cost : RunEvent → Option ℕ
  | .settled cost => some cost
  | _ => none

/-- The costs that were settled, in order. -/
def settledCosts (trace : List RunEvent) : List ℕ := trace.filterMap RunEvent.cost

@[simp] theorem settledCosts_append (a b : List RunEvent) :
    settledCosts (a ++ b) = settledCosts a ++ settledCosts b := filterMap_append
@[simp] theorem settledCosts_call (l : List RunEvent) :
    settledCosts (.providerCall :: l) = settledCosts l := rfl
@[simp] theorem settledCosts_fallback (l : List RunEvent) :
    settledCosts (.fallbackCall :: l) = settledCosts l := rfl
@[simp] theorem settledCosts_settled (cost : ℕ) (l : List RunEvent) :
    settledCosts (.settled cost :: l) = cost :: settledCosts l := rfl

/-- The cost of the response that an iteration gets. -/
def TurnInput.cost (inp : TurnInput) : ℕ :=
  match inp.response with
  | .ok r => turnCostMicrousd r.usage
  | .error _ => 0

/-- Whether the provider is called, for a stream or for a complete response. -/
def RunEvent.callsProvider : RunEvent → Bool
  | .providerCall | .fallbackCall => true
  | _ => false

/-- There is nothing else in it. -/
theorem IsFallback.eq_of_mem {fallback : List RunEvent} (h : IsFallback fallback)
    {event : RunEvent} (hmem : event ∈ fallback) : event = .fallbackCall := by
  rcases h with rfl | rfl
  · simp at hmem
  · exact mem_singleton.mp hmem

/-- What follows a call of the provider in an iteration: another call at once, or none. -/
def FollowsCall (rest : List RunEvent) : Prop :=
  ∃ fallback later, rest = fallback ++ later ∧ IsFallback fallback ∧
    ∀ event ∈ later, event.callsProvider = false

/-- What follows a call is not the call of another turn. -/
theorem FollowsCall.not_mem (h : FollowsCall rest) :
    .providerCall ∉ rest := by
  obtain ⟨fallback, later, rfl, hfallback, hlater⟩ := h
  intro hmem
  rcases mem_append.mp hmem with hmem | hmem
  · exact absurd (hfallback.eq_of_mem hmem) (by simp)
  · exact absurd (hlater _ hmem) (by decide)

/-- A second call stands right behind the first. -/
theorem FollowsCall.before_fallback {rest pre : List RunEvent} (h : FollowsCall rest)
    (hpre : Before .fallbackCall (fun pre => pre.getLast? = some .providerCall) pre) :
    Before .fallbackCall (fun pre => pre.getLast? = some .providerCall)
      (pre ++ [.providerCall] ++ rest) := by
  obtain ⟨fallback, later, rfl, hfallback, hlater⟩ := h
  have hnot : .fallbackCall ∉ later := fun hmem => absurd (hlater _ hmem) (by decide)
  have hcall : Before .fallbackCall (fun pre => pre.getLast? = some .providerCall)
      (pre ++ [.providerCall]) := before_append.mpr ⟨hpre, before_of_not_mem (by simp)⟩
  rw [← append_assoc, before_append]
  refine ⟨?_, before_of_not_mem hnot⟩
  rcases hfallback with rfl | rfl
  · rwa [append_nil]
  · exact before_snoc_self.mpr ⟨hcall, by simp⟩

/-- The executions of tools settle nothing, and are not provider calls. -/
theorem executions_only {env : RunEnv} {calls : List ToolCall} {execs : List RunEvent}
    (h : ∀ event ∈ execs, Executes env calls event) :
    settledCosts execs = [] ∧ (∀ event ∈ execs, event.callsProvider = false) ∧
      .deadlinePassed ∉ execs := by
  refine ⟨?_, fun event hmem => ?_, fun hmem => ?_⟩
  · refine filterMap_eq_nil_iff.mpr fun event hmem => ?_
    obtain ⟨call, -, ⟨args, rfl⟩, -⟩ := h event hmem
    rfl
  · obtain ⟨call, -, ⟨args, rfl⟩, -⟩ := h event hmem
    rfl
  · obtain ⟨call, -, ⟨args, he⟩, -⟩ := h _ hmem
    simp at he

/-- An iteration whose response is paid for, under an enforced policy. -/
theorem paid_trace {env : RunEnv} {p : EffectiveRunPolicy} (hp : env.policy = some p)
    (hmode : p.rollout_mode = .enforce) {r : Response} {s u t : RunState} {ms stored : List Message}
    (hpaid : Paid env settled r s u) (hext : Extends env r.calls u t ms stored) :
    s.turn < env.maxTurns ∧ ∃ fallback execs, IsFallback fallback ∧
      (∀ event ∈ execs, Executes env r.calls event) ∧ t.trace = s.trace ++ [.providerCall] ++
        (fallback ++ .settled (turnCostMicrousd r.usage) :: execs) := by
  have henf : env.enforced = true := by simp [RunEnv.enforced, hp, hmode]
  obtain ⟨head, fallback, hhead, hfallback, htrace⟩ := hpaid.trace
  obtain ⟨rfl, hturn⟩ := hhead.2 henf
  obtain ⟨execs, he, hexecs⟩ := hext.trace
  refine ⟨hturn, fallback, execs, hfallback, hexecs, ?_⟩
  rw [he, htrace, payment, if_pos (by simp [hp])]
  simp

/-- After its calls an iteration settles, and executes tools. -/
theorem followsCall_settled {env : RunEnv} {calls : List ToolCall} {fallback execs : List RunEvent}
    (hfallback : IsFallback fallback) (hexecs : ∀ event ∈ execs, Executes env calls event)
    (cost : ℕ) : FollowsCall (fallback ++ .settled cost :: execs) := by
  refine ⟨fallback, _, rfl, hfallback, fun event hmem => ?_⟩
  rcases mem_cons.mp hmem with rfl | hmem
  · rfl
  · exact (executions_only hexecs).2.1 event hmem

/-- An iteration that fails, under an enforced policy. -/
theorem fails_trace {env : RunEnv} {p : EffectiveRunPolicy} (hp : env.policy = some p)
    (hmode : p.rollout_mode = .enforce) {s t : RunState} (h : Fails env settled s inp t) :
    t.trace = s.trace ∨ t.trace = s.trace ++ [.deadlinePassed] ∨
      (s.turn < env.maxTurns ∧ ∃ rest, t.trace = s.trace ++ [.providerCall] ++ rest ∧
        FollowsCall rest) := by
  have henf : env.enforced = true := by simp [RunEnv.enforced, hp, hmode]
  rcases h with hun | ⟨r, u, ms, stored, -, hpaid, hext⟩
  · rcases hun.trace with h | h | ⟨head, fallback, hhead, hfallback, h⟩
    · exact Or.inl h
    · exact Or.inr (Or.inl h)
    · obtain ⟨rfl, hturn⟩ := hhead.2 henf
      exact Or.inr (Or.inr ⟨hturn, fallback, by simpa using h, fallback, [], by simp, hfallback,
        by simp⟩)
  · obtain ⟨hturn, fallback, execs, hfallback, hexecs, htrace⟩ := paid_trace hp hmode hpaid hext
    exact Or.inr (Or.inr ⟨hturn, _, htrace, followsCall_settled hfallback hexecs _⟩)

/-! ## Turns, budget, and deadline -/

/-- The settled costs and the next one fit in a word. -/
def CostsFit (st : SessionState) (inp : TurnInput) : Prop :=
  (settledCosts st.state.trace).sum + inp.cost < U64.size

/-- What an enforced policy leaves open before a provider call: budget, turns, and time. -/
def MayCall (budget max_turns : ℕ) (pre : List RunEvent) : Prop :=
  (settledCosts pre).sum < budget ∧ pre.count .providerCall < max_turns ∧ .deadlinePassed ∉ pre

/-- The state at the head of an iteration under an enforced policy. -/
structure LoopHead (env : RunEnv) (budget : ℕ) (s : RunState) : Prop where
  ledger : LedgerAt env 0 (settledCosts s.trace).sum s
  below : (settledCosts s.trace).sum < budget
  calls : s.trace.count .providerCall = s.turn
  deadline : .deadlinePassed ∉ s.trace

/-- What holds of the calls in the trace of a run: each turn's first one is left open, and a second
one stands right behind it. -/
structure CallsWithin (env : RunEnv) (budget : ℕ) (trace : List RunEvent) : Prop where
  first : Before .providerCall (MayCall budget env.maxTurns) trace
  second : Before .fallbackCall (fun pre => pre.getLast? = some .providerCall) trace

/-- The invariant of a run under an enforced policy. -/
structure WithinLimits (env : RunEnv) (budget : ℕ) (st : SessionState) : Prop where
  head : ∀ s, st = .running s → LoopHead env budget s
  calls : CallsWithin env budget st.state.trace

section

variable {env : RunEnv} {p : EffectiveRunPolicy} {budget : ℕ}

/-- Nothing is asked of events that are no calls. -/
theorem CallsWithin.append {trace later : List RunEvent} (h : CallsWithin env budget trace)
    (hlater : ∀ event ∈ later, event.callsProvider = false) :
    CallsWithin env budget (trace ++ later) := by
  have hnot : ∀ event : RunEvent, event.callsProvider = true → event ∉ later :=
    fun event hcalls hmem => by simp [hlater event hmem] at hcalls
  exact ⟨before_append.mpr ⟨h.first, before_of_not_mem (hnot _ rfl)⟩,
    before_append.mpr ⟨h.second, before_of_not_mem (hnot _ rfl)⟩⟩

/-- A trace without events. -/
theorem CallsWithin.nil : CallsWithin env budget [] :=
  ⟨before_of_not_mem (by simp), before_of_not_mem (by simp)⟩

/-- A run starts within its limits. -/
theorem withinLimits_start (hbudget : 0 < budget) (context : Context) (memory : SessionMemory) :
    WithinLimits env budget (startSession env context memory) := by
  rcases startSession_cases env context memory with
    ⟨t, ht, hstart, hledger, -⟩ | ⟨e, t, ht, hstart, -⟩
  · rw [ht]
    refine ⟨fun s hs => ?_, ?_⟩
    · rw [SessionState.running.injEq] at hs
      subst hs
      have hnone : settledCosts t.trace = [] := by rw [hstart.trace]; rfl
      refine ⟨?_, ?_, ?_, ?_⟩
      · rw [hnone]; exact hledger
      · rw [hnone]; exact hbudget
      · rw [hstart.trace, hstart.turn]; rfl
      · rw [hstart.trace]; simp
    · rw [SessionState.state, hstart.trace]
      exact CallsWithin.nil
  · rw [ht]
    refine ⟨fun s hs => by simp at hs, ?_⟩
    rw [SessionState.state, hstart.trace]
    exact CallsWithin.nil

/-- A provider call at the head of an iteration is one that the limits leave open. -/
theorem LoopHead.before_call (hhead : LoopHead env budget s)
    (hcalls : CallsWithin env budget s.trace) (hturn : s.turn < env.maxTurns)
    (hrest : FollowsCall rest) :
    CallsWithin env budget (s.trace ++ [.providerCall] ++ rest) := by
  refine ⟨?_, hrest.before_fallback hcalls.second⟩
  rw [before_append, before_snoc_self]
  refine ⟨⟨hcalls.first, hhead.below, ?_, hhead.deadline⟩, before_of_not_mem hrest.not_mem⟩
  rw [hhead.calls]
  exact hturn

/-- An iteration keeps to the limits: it ends the run, or leaves some of the budget. -/
theorem withinLimits_step (hp : env.policy = some p) (hmode : p.rollout_mode = .enforce)
    (hbudget : p.remaining_budget_microusd ≤ budget) {st st' : SessionState}
    (hinv : WithinLimits env budget st) (hfit : CostsFit st inp)
    (hstep : sessionStep env st inp = some st') : WithinLimits env budget st' := by
  obtain ⟨s, settled, rfl, hledger, hcases⟩ :=
    sessionStep_cases hstep fun s hs => ⟨_, (hinv.head s hs).ledger⟩
  have hhead := hinv.head s rfl
  have hcalls : CallsWithin env budget s.trace := hinv.calls
  rcases hcases with ⟨r, ms, t, hans, rfl⟩ | ⟨r, ms, out, t, hans, rfl⟩ | ⟨e, t, hfails, rfl⟩
  · -- the run goes on, so the budget is not used up
    obtain ⟨u, hpaid, hext⟩ := hans.paid
    obtain ⟨hturn, fallback, execs, hfallback, hexecs, htrace⟩ := paid_trace hp hmode hpaid hext
    obtain ⟨hcosts, -, hdead⟩ := executions_only hexecs
    have hfollows := followsCall_settled hfallback hexecs (turnCostMicrousd r.usage)
    have hfallback_costs : settledCosts fallback = [] :=
      filterMap_eq_nil_iff.mpr fun event hmem => by rw [hfallback.eq_of_mem hmem]; rfl
    have hfallback_dead : .deadlinePassed ∉ fallback :=
      fun hmem => absurd (hfallback.eq_of_mem hmem) (by simp)
    have hsettled : settled = (settledCosts s.trace).sum := by
      have h := hledger.symm.trans hhead.ledger
      simpa [hp] using h
    have hsum : (settledCosts t.trace).sum = settled + turnCostMicrousd r.usage := by
      rw [htrace]
      simp [hcosts, hsettled, hfallback_costs]
    -- the cost fits, so the counter holds the sum of the settled costs
    have hword : U64.wrappingAdd settled (turnCostMicrousd r.usage) =
        (settledCosts t.trace).sum := by
      rw [hsum, U64.wrappingAdd_of_lt]
      unfold CostsFit TurnInput.cost at hfit
      rw [hans.response] at hfit
      rw [hsettled]
      exact hfit
    refine ⟨fun s' hs' => ?_, ?_⟩
    · rw [SessionState.running.injEq] at hs'
      subst hs'
      refine ⟨?_, ?_, ?_, ?_⟩
      · rw [← hword]
        exact hext.ledger.trans hpaid.ledger
      · have hends := hans.ends
        rw [TurnEnds, hword] at hends
        have hleft : ¬p.remaining_budget_microusd ≤ (settledCosts t.trace).sum := by
          intro hle
          rw [if_pos (by simp [budgetEnds, hp, hmode, hle])] at hends
          simp at hends
        omega
      · rw [htrace, hext.turn, hpaid.turn, ← hhead.calls, count_append, count_append,
          count_eq_zero_of_not_mem hfollows.not_mem]
        rfl
      · rw [htrace]
        simp [hhead.deadline, hdead, hfallback_dead]
    · rw [SessionState.state, htrace]
      exact hhead.before_call hcalls hturn hfollows
  · obtain ⟨u, hpaid, hext⟩ := hans.paid
    obtain ⟨hturn, fallback, execs, hfallback, hexecs, htrace⟩ := paid_trace hp hmode hpaid hext
    refine ⟨fun s' hs' => by simp at hs', ?_⟩
    rw [SessionState.state, htrace]
    exact hhead.before_call hcalls hturn (followsCall_settled hfallback hexecs _)
  · refine ⟨fun s' hs' => by simp at hs', ?_⟩
    rw [SessionState.state]
    rcases fails_trace hp hmode hfails with h | h | ⟨hturn, rest, h, hrest⟩
    · rw [h]
      exact hcalls
    · rw [h]
      exact hcalls.append (by simp [RunEvent.callsProvider])
    · rw [h]
      exact hhead.before_call hcalls hturn hrest

/-- Before any call of the provider there is budget left, and the deadline has not passed. -/
theorem CallsWithin.open_before {trace : List RunEvent} (h : CallsWithin env budget trace)
    {pre post : List RunEvent} {event : RunEvent} (htrace : trace = pre ++ event :: post)
    (hcalls : event.callsProvider = true) :
    (settledCosts pre).sum < budget ∧ .deadlinePassed ∉ pre := by
  cases event with
  | providerCall => exact ⟨(h.first pre post htrace).1, (h.first pre post htrace).2.2⟩
  | fallbackCall =>
    -- the call right before it has settled nothing
    obtain ⟨head, rfl⟩ : ∃ head, pre = head ++ [.providerCall] :=
      List.getLast?_eq_some_iff.mp (h.second pre post htrace)
    obtain ⟨hbelow, -, hdeadline⟩ := h.first head (.fallbackCall :: post) (by simp [htrace])
    have hsame : settledCosts (head ++ [.providerCall]) = settledCosts head := by
      rw [settledCosts_append]
      exact append_nil _
    exact ⟨by rwa [hsame], by simpa using hdeadline⟩
  | deadlinePassed => simp [RunEvent.callsProvider] at hcalls
  | settled cost => simp [RunEvent.callsProvider] at hcalls
  | toolExecuted name args => simp [RunEvent.callsProvider] at hcalls

/-- Under an enforced policy with some budget, whatever the provider answers: all that is settled
before any call of the provider, and so before the last turn's, is below the budget; at most as many
turns call it as the turn limit says, each once or, when its stream has failed, once more right
after; and it is not called any more once the deadline has passed. -/
theorem overrun_bounded (hp : env.policy = some p) (hmode : p.rollout_mode = .enforce)
    (hpos : 0 < budget) (hbudget : p.remaining_budget_microusd ≤ budget) {context : Context}
    {memory : SessionMemory} {st : SessionState}
    (h : (sessionSystem env context memory).ReachWithin CostsFit st) :
    (∀ pre event post, st.state.trace = pre ++ event :: post → event.callsProvider = true →
        (settledCosts pre).sum < budget) ∧
      st.state.trace.count .providerCall ≤ env.maxTurns ∧
      (∀ pre post, st.state.trace = pre ++ .fallbackCall :: post →
        pre.getLast? = some .providerCall) ∧
      ∀ pre post, st.state.trace = pre ++ .deadlinePassed :: post →
        ∀ event ∈ post, event.callsProvider = false := by
  have hinv : WithinLimits env budget st := by
    refine h.invariant (fun st hst => ?_) (fun st inp st' hinv hfit hstep => ?_)
    · obtain rfl : st = startSession env context memory := hst
      exact withinLimits_start hpos context memory
    · exact withinLimits_step hp hmode hbudget hinv hfit hstep
  refine ⟨fun pre event post htrace hcalls => (hinv.calls.open_before htrace hcalls).1, ?_,
    hinv.calls.second, fun pre post htrace event hmem => ?_⟩
  · exact Before.count_le fun pre post htrace => (hinv.calls.first pre post htrace).2.1
  · obtain ⟨mid, rest, rfl⟩ := append_of_mem hmem
    by_contra hcalls
    have hsplit : st.state.trace = (pre ++ .deadlinePassed :: mid) ++ event :: rest := by
      simp [htrace]
    have hopen := hinv.calls.open_before hsplit (by simpa using hcalls)
    exact hopen.2 (by simp)

end

instance (st : SessionState) (inp : TurnInput) : Decidable (CostsFit st inp) :=
  inferInstanceAs (Decidable (_ < _))

/-- Two turns, at 50 and 60 micro-USD, on a budget of 100: the overrun is one turn's. The stream of
the first one fails. -/
theorem twoTurns_bounded :
    ∃ st, (sessionSystem (streamingRun 100 2) asked {}).ReachWithin CostsFit st ∧
      settledCosts st.state.trace = [50, 60] ∧ .fallbackCall ∈ st.state.trace ∧
      st.state.trace.count .providerCall ≤ 2 ∧
      ∀ pre event post, st.state.trace = pre ++ event :: post → event.callsProvider = true →
        (settledCosts pre).sum < 100 := by
  obtain ⟨st, hst, hcosts, hfallback⟩ : ∃ st ∈ exec CostsFit (sessionStep (streamingRun 100 2))
      (startSession (streamingRun 100 2) asked {})
      [{ reply [plainCall "c1" "file_read"] 5 with stream_fails := true }, reply [] 6],
      settledCosts st.state.trace = [50, 60] ∧ .fallbackCall ∈ st.state.trace := by decide
  have hreach := reached_of_exec hst
  obtain ⟨hbudget, hturns, -⟩ := overrun_bounded rfl rfl (by decide : 0 < 100)
    (le_refl 100) hreach
  exact ⟨st, hreach, hcosts, hfallback, hturns, hbudget⟩

/-- One turn is allowed, its stream fails, and the provider is called twice. -/
theorem failed_stream_called_twice :
    (streamingRun 100 1).maxTurns = 1 ∧
      ∃ st, (sessionSystem (streamingRun 100 1) asked {}).ReachWithin CostsFit st ∧
        st.state.trace.countP RunEvent.callsProvider = 2 := by
  refine ⟨rfl, ?_⟩
  obtain ⟨st, hst, hcalls⟩ : ∃ st ∈ exec CostsFit (sessionStep (streamingRun 100 1))
      (startSession (streamingRun 100 1) asked {}) [{ reply [] 5 with stream_fails := true }],
      st.state.trace.countP RunEvent.callsProvider = 2 := by decide
  exact ⟨st, reached_of_exec hst, hcalls⟩

/-! ## Tools -/

/-- The calls of the response that an iteration gets. -/
def TurnInput.requested (inp : TurnInput) : List ToolCall :=
  match inp.response with
  | .ok r => r.calls
  | .error _ => []

/-- Of the registered tools, the provider calls only those of the toolset and disallowed ones. -/
def KeepsToToolset (env : RunEnv) (p : EffectiveRunPolicy) (_ : SessionState) (inp : TurnInput) :
    Prop :=
  ∀ call ∈ inp.requested, (env.rt.tool_registry.get call.name).isSome = true →
    call.name ∈ toolNames p.toolset ∨ call.name ∈ p.disallowed_tools

/-- What a run has executed keeps to a policy. -/
def ToolsAllowed (p : EffectiveRunPolicy) (trace : List RunEvent) : Prop :=
  ∀ name args, .toolExecuted name args ∈ trace →
    name ∈ toolNames p.toolset ∧ name ∉ p.disallowed_tools

/-- The invariant of a run whose provider keeps to the toolset. -/
structure WithinToolset (env : RunEnv) (p : EffectiveRunPolicy) (st : SessionState) : Prop where
  ledger : Ledgered env st
  allowed : ToolsAllowed p st.state.trace

section

variable {env : RunEnv} {p : EffectiveRunPolicy}

/-- Events other than executions keep to every policy. -/
theorem toolsAllowed_append {a b : List RunEvent} (ha : ToolsAllowed p a)
    (hb : ∀ name args, .toolExecuted name args ∉ b) : ToolsAllowed p (a ++ b) := by
  intro name args hmem
  rcases mem_append.mp hmem with hmem | hmem
  · exact ha name args hmem
  · exact absurd hmem (hb name args)

/-- The tool phase keeps to an enforced policy when the calls do. -/
theorem toolsAllowed_extends (hp : env.policy = some p) (hmode : p.rollout_mode = .enforce)
    {st : SessionState} {r : Response} {s u t : RunState} {ms stored : List Message}
    (hr : inp.response = .ok r) (hkeeps : KeepsToToolset env p st inp)
    (hpaid : Paid env settled r s u) (hext : Extends env r.calls u t ms stored)
    (hs : ToolsAllowed p s.trace) : ToolsAllowed p t.trace := by
  obtain ⟨-, fallback, execs, hfallback, hexecs, htrace⟩ := paid_trace hp hmode hpaid hext
  rw [htrace]
  intro name args hmem
  simp only [append_assoc, mem_append, mem_cons, not_mem_nil, reduceCtorEq,
    false_or] at hmem
  rcases hmem with hmem | hmem | hmem
  · exact hs name args hmem
  · exact absurd (hfallback.eq_of_mem hmem) (by simp)
  · obtain ⟨call, hcall, ⟨args', heq⟩, ⟨tool, htool⟩, hallowed⟩ := hexecs _ hmem
    obtain ⟨rfl, -⟩ := RunEvent.toolExecuted.inj heq
    have hnot := hallowed p hp hmode
    have hcall : call ∈ inp.requested := by rw [TurnInput.requested, hr]; exact hcall
    rcases hkeeps call hcall (by simp [htool]) with h | h
    · exact ⟨h, hnot⟩
    · exact absurd h hnot

/-- Under an enforced policy, and whatever else the provider answers: if the provider calls no
registered tool outside the toolset, other than disallowed ones, then every tool that is executed is
in the toolset and not disallowed. -/
theorem executed_allowed (hp : env.policy = some p) (hmode : p.rollout_mode = .enforce)
    {context : Context} {memory : SessionMemory} {st : SessionState}
    (h : (sessionSystem env context memory).ReachWithin (KeepsToToolset env p) st) {name : String}
    {args : Value} (hmem : .toolExecuted name args ∈ st.state.trace) :
    name ∈ toolNames p.toolset ∧ name ∉ p.disallowed_tools := by
  have hinv : WithinToolset env p st := by
    refine h.invariant (fun st hst => ?_) (fun st inp st' hinv hkeeps hstep => ?_)
    · obtain rfl : st = startSession env context memory := hst
      refine ⟨ledgered_start env context memory, ?_⟩
      rcases startSession_cases env context memory with ⟨t, ht, hstart, -⟩ | ⟨e, t, ht, hstart, -⟩
      · simp [ht, SessionState.state, hstart.trace, ToolsAllowed]
      · simp [ht, SessionState.state, hstart.trace, ToolsAllowed]
    · obtain ⟨hledger, hallowed⟩ := hinv
      refine ⟨ledgered_step hstep hledger, ?_⟩
      obtain ⟨s, settled, rfl, -, hcases⟩ := sessionStep_cases hstep hledger
      rcases hcases with ⟨r, ms, t, hans, rfl⟩ | ⟨r, ms, out, t, hans, rfl⟩ | ⟨e, t, hfails, rfl⟩
      · obtain ⟨u, hpaid, hext⟩ := hans.paid
        exact toolsAllowed_extends hp hmode hans.response hkeeps hpaid hext hallowed
      · obtain ⟨u, hpaid, hext⟩ := hans.paid
        exact toolsAllowed_extends hp hmode hans.response hkeeps hpaid hext hallowed
      · rcases hfails with hun | ⟨r, u, ms, stored, hr, hpaid, hext⟩
        · simp only [SessionState.state] at hallowed ⊢
          rcases hun.trace with htrace | htrace | ⟨head, fallback, hhead, hfallback, htrace⟩
          · rw [htrace]
            exact hallowed
          · rw [htrace]
            exact toolsAllowed_append hallowed (by simp)
          · rw [htrace]
            refine toolsAllowed_append hallowed fun name args hmem => ?_
            simp only [mem_append, mem_cons, reduceCtorEq, false_or] at hmem
            rcases hmem with hmem | hmem
            · rcases hhead.1 with rfl | rfl
              · simp at hmem
              · simp at hmem
            · exact absurd (hfallback.eq_of_mem hmem) (by simp)
        · exact toolsAllowed_extends hp hmode hr hkeeps hpaid hext hallowed
  exact hinv.allowed name args hmem

end

instance (env : RunEnv) (p : EffectiveRunPolicy) (st : SessionState) (inp : TurnInput) :
    Decidable (KeepsToToolset env p st inp) :=
  inferInstanceAs (Decidable (∀ call ∈ inp.requested, _ → _))

/-- A provider that keeps to the toolset: the file is read, and nothing else is executed. -/
theorem file_read_allowed :
    ∃ st, (sessionSystem (readingRun 100) asked {}).ReachWithin
        (KeepsToToolset (readingRun 100) (readingPolicy 100)) st ∧
      .toolExecuted "file_read" (.object []) ∈ st.state.trace ∧
      "file_read" ∈ toolNames (readingPolicy 100).toolset ∧
      "file_read" ∉ (readingPolicy 100).disallowed_tools := by
  obtain ⟨st, hst, hexec⟩ : ∃ st ∈ exec (KeepsToToolset (readingRun 100) (readingPolicy 100))
      (sessionStep (readingRun 100)) (startSession (readingRun 100) asked {})
      [reply [plainCall "c1" "file_read"] 5, reply [] 6],
      .toolExecuted "file_read" (.object []) ∈ st.state.trace := by decide
  have hreach := reached_of_exec hst
  exact ⟨st, hreach, hexec, executed_allowed rfl rfl hreach hexec⟩

/-- A provider that names a registered tool outside the toolset, which it was not shown: the
enforced policy lets it run. -/
theorem unlisted_tool_executed :
    (readingPolicy 100).rollout_mode = .enforce ∧
      "shell_exec" ∉ toolNames (readingPolicy 100).toolset ∧
      ∃ st, (sessionSystem (readingRun 100) asked {}).Reach st ∧
        .toolExecuted "shell_exec" (.object []) ∈ st.state.trace := by
  refine ⟨rfl, by decide, ?_⟩
  obtain ⟨st, hst, hexec⟩ : ∃ st ∈ exec (fun _ _ => True) (sessionStep (readingRun 100))
      (startSession (readingRun 100) asked {}) [reply [plainCall "c1" "shell_exec"] 5],
      .toolExecuted "shell_exec" (.object []) ∈ st.state.trace := by decide
  exact ⟨st, reached_of_exec hst, hexec⟩

end Oxydra
