import Oxydra.Library.Trace
import Oxydra.Runtime.SessionSpec

/-!
# The order of the tool phase

The tool phase of `run_session_internal` (`crates/runtime/src/lib.rs`), call by call: consecutive
read-only calls gather in a batch whose futures `join_all` runs side by side, in any order of their
starts and ends, and a call that is not read-only is awaited alone. `phaseSystem` is the transition
system of all these orders, for given outcomes of the calls.

`remaining` is what the phase still has to do as a computation of `Runtime/Session.lean`. It is kept
by every step (`remaining_step`), so every order of the steps ends in the state that `runCalls`
computes. `toolPhase_ordered` then says that every call is answered in its place, and that a call
that is not read-only starts only after all calls before it.
-/

namespace Oxydra

open Function List Lts Trace Effect

variable {log : List PhaseEvent} {label : PhaseLabel} {st st' : PhaseState} {s : RunState}
  {p : ℕ × ToolCall}

/-- What happens to the call at a position. -/
inductive PhaseEvent where
  | start (i : ℕ)
  | finish (i : ℕ)
  /-- The handling of the call ended the phase with an error. -/
  | fatal (i : ℕ) (error : RuntimeError)
  deriving DecidableEq

/-- Where a future of a batch is. -/
inductive CallStatus where
  | waiting
  | started
  | finished
  deriving DecidableEq

/-- Where the phase is: in its loop, at a `join_all` or a single call, at the results of these, or
at its end. After a batch comes the call that it had to run before, if there is one, and then the
rest of the loop. -/
inductive PhaseControl where
  | walking (rest current_batch : List (ℕ × ToolCall))
  | joining (batch : List (ℕ × ToolCall)) (status : ℕ → CallStatus) (next : Option (ℕ × ToolCall))
    (rest : List (ℕ × ToolCall))
  | committing (batch : List (ℕ × ToolCall)) (next : Option (ℕ × ToolCall))
    (rest : List (ℕ × ToolCall))
  | ended (result : Except RuntimeError Unit)

/-- The phase, with the state of its run and what has happened. -/
structure PhaseState where
  control : PhaseControl
  run : RunState
  log : List PhaseEvent := []

/-- A step of the phase itself, or of one of its futures. -/
inductive PhaseLabel where
  | advance
  | start (i : ℕ)
  | finish (i : ℕ)
  deriving DecidableEq

/-- A batch of futures that have not been polled. -/
def PhaseControl.join (batch : List (ℕ × ToolCall)) (next : Option (ℕ × ToolCall))
    (rest : List (ℕ × ToolCall)) : PhaseControl :=
  .joining batch (fun _ => .waiting) next rest

/-- The part of a call's handling that the phase does itself: an error ends the phase. -/
def PhaseState.handle (st : PhaseState) (i : ℕ) (x : RunM Unit) (control : PhaseControl) :
    PhaseState :=
  match x st.run with
  | .ok _ s => { st with control := control, run := s }
  | .error e s => { control := .ended (.error e), run := s, log := st.log ++ [.fatal i e] }

section

variable (env : RunEnv) (tool_context : ToolExecutionContext) (inp : TurnInput)

/-- How a call of the phase fares. -/
def callRun (p : ℕ × ToolCall) : ToolCall × CallRun Message :=
  (p.2, env.rt.executeToolAndFormat p.2 tool_context (inp.calls p.1).race)

/-- The result of one call is taken. -/
def commitCall (p : ℕ × ToolCall) : RunM Unit := do
  let message ← Effect.ofExcept (callRun env tool_context inp p).2.result
  commitMessage env message

/-- The state in which the calls of a batch are recorded. -/
def afterRecord (batch : List (ℕ × ToolCall)) (s : RunState) : RunState :=
  match recordCalls (batch.map (callRun env tool_context inp)) s with
  | .ok _ t => t
  | .error _ t => t

/-- The cancellation check, and then the single call. -/
def PhaseState.single (st : PhaseState) (p : ℕ × ToolCall) (rest : List (ℕ × ToolCall)) :
    PhaseState :=
  st.handle p.1 (checkCancelled (inp.calls p.1).cancelled) (.join [p] none rest)

/-- A step of the phase itself. -/
def phaseAdvance (st : PhaseState) : Option PhaseState :=
  match st.control with
  | .walking [] [] => some { st with control := .ended (.ok ()) }
  | .walking [] batch => some { st with control := .join batch none [] }
  | .walking (p :: rest) batch =>
    if isReadOnly env p.2 then some { st with control := .walking rest (batch ++ [p]) }
    else if batch = [] then some (st.single inp p rest)
    else some { st with control := .join batch (some p) rest }
  | .joining batch status next rest =>
    if ∀ p ∈ batch, status p.1 = .finished then
      some { st with
        control := .committing batch next rest
        run := afterRecord env tool_context inp batch st.run }
    else none
  | .committing (p :: batch) next rest =>
    some (st.handle p.1 (commitCall env tool_context inp p) (.committing batch next rest))
  | .committing [] none rest => some { st with control := .walking rest [] }
  | .committing [] (some p) rest => some (st.single inp p rest)
  | .ended _ => none

/-- A future of the batch is polled for the first time. -/
def phaseStart (i : ℕ) (st : PhaseState) : Option PhaseState :=
  match st.control with
  | .joining batch status next rest =>
    if (∃ p ∈ batch, p.1 = i) ∧ status i = .waiting then
      some { st with
        control := .joining batch (update status i .started) next rest
        log := st.log ++ [.start i] }
    else none
  | _ => none

/-- A future of the batch is ready. -/
def phaseFinish (i : ℕ) (st : PhaseState) : Option PhaseState :=
  match st.control with
  | .joining batch status next rest =>
    if status i = .started then
      some { st with
        control := .joining batch (update status i .finished) next rest
        log := st.log ++ [.finish i] }
    else none
  | _ => none

/-- One step. -/
def phaseStep (st : PhaseState) : PhaseLabel → Option PhaseState
  | .advance => phaseAdvance env tool_context inp st
  | .start i => phaseStart i st
  | .finish i => phaseFinish i st

/-- The phase at the head of its loop. -/
def startPhase (calls : List ToolCall) (s : RunState) : PhaseState where
  control := .walking (Greedy.indexed calls) []
  run := s

/-- All orders of the steps of a tool phase. -/
def phaseSystem (calls : List ToolCall) (s : RunState) : System PhaseState PhaseLabel :=
  ofStep (fun st => st = startPhase calls s) (phaseStep env tool_context inp)

/-! ## What a step can do -/

/-- All that a step can do. -/
inductive PhaseEffect : PhaseState → PhaseLabel → PhaseState → Prop
  | done (s : RunState) (log : List PhaseEvent) :
      PhaseEffect ⟨.walking [] [], s, log⟩ .advance ⟨.ended (.ok ()), s, log⟩
  | flush (p : ℕ × ToolCall) (batch : List (ℕ × ToolCall)) (s : RunState) (log : List PhaseEvent) :
      PhaseEffect ⟨.walking [] (p :: batch), s, log⟩ .advance ⟨.join (p :: batch) none [], s, log⟩
  | collect (p : ℕ × ToolCall) (rest batch : List (ℕ × ToolCall)) (s : RunState)
    (log : List PhaseEvent) (hread : isReadOnly env p.2 = true) :
      PhaseEffect ⟨.walking (p :: rest) batch, s, log⟩ .advance
        ⟨.walking rest (batch ++ [p]), s, log⟩
  | single (p : ℕ × ToolCall) (rest : List (ℕ × ToolCall)) (s : RunState) (log : List PhaseEvent)
    (hread : isReadOnly env p.2 = false) :
      PhaseEffect ⟨.walking (p :: rest) [], s, log⟩ .advance
        (PhaseState.single inp ⟨.walking (p :: rest) [], s, log⟩ p rest)
  | flushBefore (p : ℕ × ToolCall) (rest batch : List (ℕ × ToolCall)) (s : RunState)
    (log : List PhaseEvent) (hread : isReadOnly env p.2 = false) :
      PhaseEffect ⟨.walking (p :: rest) batch, s, log⟩ .advance ⟨.join batch (some p) rest, s, log⟩
  | joined (batch : List (ℕ × ToolCall)) (status : ℕ → CallStatus) (next : Option (ℕ × ToolCall))
    (rest : List (ℕ × ToolCall)) (s : RunState) (log : List PhaseEvent)
    (hall : ∀ p ∈ batch, status p.1 = .finished) :
      PhaseEffect ⟨.joining batch status next rest, s, log⟩ .advance
        ⟨.committing batch next rest, afterRecord env tool_context inp batch s, log⟩
  | commit (p : ℕ × ToolCall) (batch : List (ℕ × ToolCall)) (next : Option (ℕ × ToolCall))
    (rest : List (ℕ × ToolCall)) (s : RunState) (log : List PhaseEvent) :
      PhaseEffect ⟨.committing (p :: batch) next rest, s, log⟩ .advance
        (PhaseState.handle ⟨.committing (p :: batch) next rest, s, log⟩ p.1
          (commitCall env tool_context inp p) (.committing batch next rest))
  | resume (rest : List (ℕ × ToolCall)) (s : RunState) (log : List PhaseEvent) :
      PhaseEffect ⟨.committing [] none rest, s, log⟩ .advance ⟨.walking rest [], s, log⟩
  | singleAfter (p : ℕ × ToolCall) (rest : List (ℕ × ToolCall)) (s : RunState)
    (log : List PhaseEvent) :
      PhaseEffect ⟨.committing [] (some p) rest, s, log⟩ .advance
        (PhaseState.single inp ⟨.committing [] (some p) rest, s, log⟩ p rest)
  | start (p : ℕ × ToolCall) (batch : List (ℕ × ToolCall)) (status : ℕ → CallStatus)
    (next : Option (ℕ × ToolCall)) (rest : List (ℕ × ToolCall)) (s : RunState)
    (log : List PhaseEvent) (hp : p ∈ batch) :
      PhaseEffect ⟨.joining batch status next rest, s, log⟩ (.start p.1)
        ⟨.joining batch (update status p.1 .started) next rest, s, log ++ [.start p.1]⟩
  | finish (i : ℕ) (batch : List (ℕ × ToolCall)) (status : ℕ → CallStatus)
    (next : Option (ℕ × ToolCall)) (rest : List (ℕ × ToolCall)) (s : RunState)
    (log : List PhaseEvent) :
      PhaseEffect ⟨.joining batch status next rest, s, log⟩ (.finish i)
        ⟨.joining batch (update status i .finished) next rest, s, log ++ [.finish i]⟩

section

variable {env : RunEnv} {tool_context : ToolExecutionContext} {inp : TurnInput}

theorem phaseAdvance_effect (h : phaseAdvance env tool_context inp st = some st') :
    PhaseEffect env tool_context inp st .advance st' := by
  obtain ⟨control, s, log⟩ := st
  unfold phaseAdvance at h
  cases control with
  | walking rest batch =>
    cases rest with
    | nil =>
      cases batch with
      | nil =>
        cases h
        exact .done s log
      | cons p batch =>
        cases h
        exact .flush p batch s log
    | cons p rest =>
      simp only at h
      split_ifs at h with hread hnil
      · cases h
        exact .collect p rest batch s log hread
      · cases h
        subst hnil
        exact .single p rest s log (by simpa using hread)
      · cases h
        exact .flushBefore p rest batch s log (by simpa using hread)
  | joining batch status next rest =>
    simp only at h
    split_ifs at h with hall
    cases h
    exact .joined batch status next rest s log hall
  | committing batch next rest =>
    cases batch with
    | cons p batch =>
      cases h
      exact .commit p batch next rest s log
    | nil =>
      cases next with
      | none =>
        cases h
        exact .resume rest s log
      | some p =>
        cases h
        exact .singleAfter p rest s log
  | ended result => simp at h

/-- Every step does one of these. -/
theorem phaseStep_effect (h : phaseStep env tool_context inp st label = some st') :
    PhaseEffect env tool_context inp st label st' := by
  cases label with
  | advance => exact phaseAdvance_effect h
  | start i =>
    obtain ⟨control, s, log⟩ := st
    simp only [phaseStep, phaseStart] at h
    split at h
    · split_ifs at h with hwaiting
      obtain ⟨⟨p, hp, rfl⟩, -⟩ := hwaiting
      cases h
      exact .start p _ _ _ _ s log hp
    · simp at h
  | finish i =>
    obtain ⟨control, s, log⟩ := st
    simp only [phaseStep, phaseFinish] at h
    split at h
    · split_ifs at h
      cases h
      exact .finish i _ _ _ _ s log
    · simp at h

end

/-! ## What is left to do -/

/-- What comes after a batch. -/
def afterBatch (next : Option (ℕ × ToolCall)) (rest : List (ℕ × ToolCall)) : RunM Unit :=
  match next with
  | none => runCalls env tool_context inp rest []
  | some p => do
    checkCancelled (inp.calls p.1).cancelled
    runBatch env tool_context inp [p]
    runCalls env tool_context inp rest []

/-- What the phase still has to do. -/
def remaining : PhaseControl → RunM Unit
  | .walking rest current_batch => runCalls env tool_context inp rest current_batch
  | .joining batch _ next rest => do
    runBatch env tool_context inp batch
    afterBatch env tool_context inp next rest
  | .committing batch next rest => do
    commitResults env (batch.map (callRun env tool_context inp))
    afterBatch env tool_context inp next rest
  | .ended result => Effect.ofExcept result

end

section

variable {env : RunEnv} {tool_context : ToolExecutionContext} {inp : TurnInput}

/-- An empty batch does nothing. -/
theorem runBatch_nil : runBatch env tool_context inp [] = pure () := by
  simp only [runBatch, map_nil, recordCalls, commitResults, pure_bind]

/-- Recording does not fail. -/
theorem recordCalls_eq (batch : List (ℕ × ToolCall)) (s : RunState) :
    recordCalls (batch.map (callRun env tool_context inp)) s =
      .ok () (afterRecord env tool_context inp batch s) := by
  have hok : ∀ (runs : List (ToolCall × CallRun Message)) (s : RunState),
      ∃ t, recordCalls runs s = .ok () t := by
    intro runs
    induction runs with
    | nil => exact fun s => ⟨s, rfl⟩
    | cons run runs ih => exact fun s => ih _
  obtain ⟨t, ht⟩ := hok (batch.map (callRun env tool_context inp)) s
  rw [afterRecord, ht]

/-- A batch is recorded, and then its results are taken. -/
theorem runBatch_bind (batch : List (ℕ × ToolCall)) (x : RunM Unit) (s : RunState) :
    (runBatch env tool_context inp batch >>= fun _ => x) s =
      (commitResults env (batch.map (callRun env tool_context inp)) >>= fun _ => x)
        (afterRecord env tool_context inp batch s) := by
  have hbatch : runBatch env tool_context inp batch =
      recordCalls (batch.map (callRun env tool_context inp)) >>= fun _ =>
        commitResults env (batch.map (callRun env tool_context inp)) := rfl
  rw [hbatch, bind_assoc, bind_ok (recordCalls_eq batch s)]

/-- What is left to do after the phase has handled a part itself. -/
theorem remaining_handle (st : PhaseState) (i : ℕ) (x : RunM Unit) (control : PhaseControl) :
    remaining env tool_context inp (st.handle i x control).control (st.handle i x control).run =
      (x >>= fun _ => remaining env tool_context inp control) st.run := by
  unfold PhaseState.handle
  cases hx : x st.run with
  | ok a s => rw [bind_ok hx]
  | error e s =>
    rw [bind_error hx]
    rfl

/-- What is left to do after the check before a single call. -/
theorem remaining_single (st : PhaseState) (p : ℕ × ToolCall) (rest : List (ℕ × ToolCall)) :
    remaining env tool_context inp (st.single inp p rest).control (st.single inp p rest).run =
      afterBatch env tool_context inp (some p) rest st.run :=
  remaining_handle st p.1 _ _

/-- Every step does a part of what is left, and no more. -/
theorem remaining_step (h : phaseStep env tool_context inp st label = some st') :
    remaining env tool_context inp st'.control st'.run =
      remaining env tool_context inp st.control st.run := by
  cases phaseStep_effect h with
  | done =>
    simp only [remaining, runCalls, runBatch_nil]
    rfl
  | flush =>
    simp only [PhaseControl.join, remaining, afterBatch, runCalls, runBatch_nil, bind_pure_unit]
  | collect p rest batch s log hread => simp only [remaining, runCalls, hread, if_true]
  | single p rest s log hread =>
    -- the batch before it is empty
    rw [remaining_single]
    simp only [remaining, runCalls, hread, Bool.false_eq_true, if_false, runBatch_nil, pure_bind]
    rfl
  | flushBefore p rest batch s log hread =>
    simp only [PhaseControl.join, remaining, runCalls, hread, Bool.false_eq_true, if_false]
    rfl
  | joined batch status next rest s log hall => exact (runBatch_bind batch _ s).symm
  | commit =>
    rw [remaining_handle]
    simp only [remaining, commitCall, map_cons, commitResults, bind_assoc]
  | resume => simp only [remaining, map_nil, commitResults, pure_bind, afterBatch]
  | singleAfter =>
    rw [remaining_single]
    simp only [remaining, map_nil, commitResults, pure_bind]
  | start | finish => rfl

/-- Every order of the steps comes to what `runCalls` computes. -/
theorem remaining_reach {calls : List ToolCall}
    (h : (phaseSystem env tool_context inp calls s).Reach st) :
    remaining env tool_context inp st.control st.run =
      runCalls env tool_context inp (Greedy.indexed calls) [] s := by
  induction h with
  | init h0 =>
    rw [show _ = startPhase calls s from h0]
    rfl
  | step _ _ hstep ih => exact (remaining_step hstep).trans ih

/-! ## The order of the calls -/

/-- Where the calls of a phase are: those before the batch have finished, and a batch of several
calls is read-only. -/
def Placed (env : RunEnv) (calls : List ToolCall) (log : List PhaseEvent) : PhaseControl → Prop
  | .walking rest batch => ∃ pre, Greedy.indexed calls = pre ++ (batch ++ rest) ∧
      (∀ p ∈ pre, .finish p.1 ∈ log) ∧ ∀ p ∈ batch, isReadOnly env p.2 = true
  | .joining batch status next rest => ∃ pre,
      Greedy.indexed calls = pre ++ (batch ++ (next.toList ++ rest)) ∧
      (∀ p ∈ pre, .finish p.1 ∈ log) ∧
      ((∀ p ∈ batch, isReadOnly env p.2 = true) ∨ ∃ p, batch = [p]) ∧
      ∀ i, status i = .finished → .finish i ∈ log
  | .committing batch next rest => ∃ pre, Greedy.indexed calls = pre ++ (next.toList ++ rest) ∧
      (∀ p ∈ pre, .finish p.1 ∈ log) ∧ ∀ p ∈ batch, p ∈ pre
  | .ended (.ok _) => True
  | .ended (.error e) => ∃ i, .fatal i e ∈ log

/-- A call that is not read-only starts after all calls before it have finished. -/
def StartsInOrder (env : RunEnv) (calls : List ToolCall) (log : List PhaseEvent) : Prop :=
  ∀ i call, calls[i]? = some call → isReadOnly env call = false →
    Before (.start i) (fun pre => ∀ j < i, .finish j ∈ pre) log

variable {calls : List ToolCall}

/-- An event that is no start changes no order. -/
theorem StartsInOrder.snoc {event : PhaseEvent} (h : StartsInOrder env calls log)
    (hevent : ∀ i, event ≠ .start i) :
    StartsInOrder env calls (log ++ [event]) := by
  intro i call hcall hread
  rw [before_append]
  exact ⟨h i call hcall hread, before_of_not_mem (by simpa using (hevent i).symm)⟩

/-- A later log says more about where the calls are. -/
theorem finish_mem_append {pre : List (ℕ × ToolCall)} {log more : List PhaseEvent}
    (h : ∀ p ∈ pre, .finish p.1 ∈ log) : ∀ p ∈ pre, PhaseEvent.finish p.1 ∈ log ++ more :=
  fun p hp => mem_append_left _ (h p hp)

/-- A single call is joined when its check passes, and else ends the phase. -/
theorem placed_single {pre rest : List (ℕ × ToolCall)}
    (hcalls : Greedy.indexed calls = pre ++ p :: rest) (hpre : ∀ q ∈ pre, .finish q.1 ∈ st.log)
    (horder : StartsInOrder env calls st.log) :
    Placed env calls (st.single inp p rest).log (st.single inp p rest).control ∧
      StartsInOrder env calls (st.single inp p rest).log := by
  unfold PhaseState.single PhaseState.handle
  cases (inp.calls p.1).cancelled with
  | true => exact ⟨⟨p.1, mem_append_right _ (mem_singleton_self _)⟩,
      horder.snoc (by simp)⟩
  | false => exact ⟨⟨pre, by simpa using hcalls, hpre, Or.inr ⟨p, rfl⟩, by simp⟩, horder⟩

/-- A call that starts and is not read-only is alone in its batch, so the calls before it are those
before the batch. -/
theorem StartsInOrder.start {batch pre rest : List (ℕ × ToolCall)}
    (horder : StartsInOrder env calls log) (hcalls : Greedy.indexed calls = pre ++ (batch ++ rest))
    (hpre : ∀ q ∈ pre, .finish q.1 ∈ log)
    (hbatch : (∀ q ∈ batch, isReadOnly env q.2 = true) ∨ ∃ q, batch = [q]) (hp : p ∈ batch) :
    StartsInOrder env calls (log ++ [.start p.1]) := by
  intro i call hcall hread
  by_cases hsame : i = p.1
  · -- the started call is the one at its position
    subst hsame
    have hmem : p ∈ Greedy.indexed calls := by
      rw [hcalls]
      exact mem_append_right _ (mem_append_left _ hp)
    have hcall' : calls[p.1]? = some p.2 := Greedy.mem_indexed.mp hmem
    obtain rfl : p.2 = call := Option.some.inj (hcall'.symm.trans hcall)
    rw [before_snoc_self]
    refine ⟨horder p.1 p.2 hcall hread, fun j hj => ?_⟩
    obtain ⟨q, rfl⟩ : ∃ q, batch = [q] := by
      refine hbatch.resolve_left fun hall => ?_
      rw [hall p hp] at hread
      simp at hread
    obtain rfl := mem_singleton.mp hp
    have hrange := Greedy.map_fst_of_indexed_split hcalls
    have hj' : j ∈ pre.map Prod.fst := by
      rw [hrange]
      exact mem_range.mpr hj
    obtain ⟨q, hq, rfl⟩ := mem_map.mp hj'
    exact hpre q hq
  · rw [before_append]
    refine ⟨horder i call hcall hread, before_of_not_mem ?_⟩
    simpa using hsame

/-- Every step keeps the calls in their places. -/
theorem placed_step (hplaced : Placed env calls st.log st.control)
    (horder : StartsInOrder env calls st.log)
    (h : phaseStep env tool_context inp st label = some st') :
    Placed env calls st'.log st'.control ∧ StartsInOrder env calls st'.log := by
  cases phaseStep_effect h with
  | done => exact ⟨trivial, horder⟩
  | flush =>
    obtain ⟨pre, hcalls, hpre, hbatch⟩ := hplaced
    exact ⟨⟨pre, by simpa using hcalls, hpre, Or.inl hbatch, by simp⟩, horder⟩
  | collect p rest batch s log hread =>
    obtain ⟨pre, hcalls, hpre, hbatch⟩ := hplaced
    refine ⟨⟨pre, by simpa using hcalls, hpre, fun q hq => ?_⟩, horder⟩
    rcases mem_append.mp hq with hq | hq
    · exact hbatch q hq
    · rw [mem_singleton.mp hq]
      exact hread
  | single =>
    obtain ⟨pre, hcalls, hpre, -⟩ := hplaced
    exact placed_single hcalls hpre horder
  | flushBefore =>
    obtain ⟨pre, hcalls, hpre, hbatch⟩ := hplaced
    exact ⟨⟨pre, by simpa using hcalls, hpre, Or.inl hbatch, by simp⟩, horder⟩
  | joined batch status next rest s log hall =>
    obtain ⟨pre, hcalls, hpre, -, hstatus⟩ := hplaced
    -- `join_all` is ready when every future of the batch is
    refine ⟨⟨pre ++ batch, by rw [hcalls, append_assoc], fun p hp => ?_,
      fun p hp => mem_append_right _ hp⟩, horder⟩
    rcases mem_append.mp hp with hp | hp
    · exact hpre p hp
    · exact hstatus p.1 (hall p hp)
  | commit p batch next rest s log =>
    -- an error ends the phase, and is noted
    obtain ⟨pre, hcalls, hpre, hbatch⟩ := hplaced
    unfold PhaseState.handle
    split
    · exact ⟨⟨pre, hcalls, hpre, fun q hq => hbatch q (mem_cons_of_mem _ hq)⟩, horder⟩
    · exact ⟨⟨p.1, by simp⟩, horder.snoc (by simp)⟩
  | resume =>
    obtain ⟨pre, hcalls, hpre, -⟩ := hplaced
    exact ⟨⟨pre, hcalls, hpre, by simp⟩, horder⟩
  | singleAfter =>
    obtain ⟨pre, hcalls, hpre, -⟩ := hplaced
    exact placed_single hcalls hpre horder
  | start p batch status next rest s log hp =>
    obtain ⟨pre, hcalls, hpre, hbatch, hstatus⟩ := hplaced
    refine ⟨⟨pre, hcalls, finish_mem_append hpre, hbatch, fun i hi => ?_⟩,
      horder.start hcalls hpre hbatch hp⟩
    by_cases hsame : i = p.1
    · rw [hsame, update_self] at hi
      simp at hi
    · rw [update_of_ne hsame] at hi
      exact mem_append_left _ (hstatus i hi)
  | finish i batch status next rest s log =>
    obtain ⟨pre, hcalls, hpre, hbatch, hstatus⟩ := hplaced
    refine ⟨⟨pre, hcalls, finish_mem_append hpre, hbatch, fun j hj => ?_⟩, horder.snoc (by simp)⟩
    by_cases hsame : j = i
    · simp [hsame]
    · rw [update_of_ne hsame] at hj
      exact mem_append_left _ (hstatus j hj)

/-- In every order of the steps the calls are in their places. -/
theorem placed_reach (h : (phaseSystem env tool_context inp calls s).Reach st) :
    Placed env calls st.log st.control ∧ StartsInOrder env calls st.log := by
  induction h with
  | init h0 =>
    rw [show _ = startPhase calls s from h0]
    exact ⟨⟨[], rfl, by simp, by simp⟩, fun i call _ _ => before_of_not_mem (by simp [startPhase])⟩
  | step _ _ hstep ih => exact placed_step ih.1 ih.2 hstep

/-! ## Errors -/

/-- How a call can end the phase with an error: by its own result, by the check before it, or
because its message could not be stored. -/
def EndsWith (env : RunEnv) (tool_context : ToolExecutionContext) (inp : TurnInput)
    (p : ℕ × ToolCall) (e : RuntimeError) : Prop :=
  (callRun env tool_context inp p).2.result = .error e ∨
    (inp.calls p.1).cancelled = true ∧ e = .cancelled ∨ e.ofMemory = true

/-- Each error is one of a call of the phase. -/
def FatalByCall (env : RunEnv) (tool_context : ToolExecutionContext) (inp : TurnInput)
    (calls : List ToolCall) (log : List PhaseEvent) : Prop :=
  ∀ i e, .fatal i e ∈ log → ∃ call, calls[i]? = some call ∧
    EndsWith env tool_context inp (i, call) e

/-- An error in the handling of a call is one of the call. -/
theorem FatalByCall.handle {x : RunM Unit} {control : PhaseControl}
    (h : FatalByCall env tool_context inp calls st.log) (hp : p ∈ Greedy.indexed calls)
    (hx : ∀ e s, x st.run = .error e s → EndsWith env tool_context inp p e) :
    FatalByCall env tool_context inp calls (st.handle p.1 x control).log := by
  unfold PhaseState.handle
  cases hrun : x st.run with
  | ok a s => exact h
  | error e s =>
    intro i e' hmem
    rcases mem_append.mp hmem with hmem | hmem
    · exact h i e' hmem
    · obtain ⟨rfl, rfl⟩ : i = p.1 ∧ e' = e := by simpa using hmem
      exact ⟨p.2, Greedy.mem_indexed.mp hp, hx e' s hrun⟩

/-- Taking the result of a call fails with the call's error, or with the memory's. -/
theorem endsWith_commitCall {s t : RunState} {e : RuntimeError}
    (h : commitCall env tool_context inp p s = .error e t) : EndsWith env tool_context inp p e := by
  have hspec : wp (commitCall env tool_context inp p) (fun _ _ => True)
      (fun e _ => EndsWith env tool_context inp p e) s := by
    unfold commitCall
    simp only [wp_bind, wp_ofExcept]
    refine ⟨fun m _ => ?_, fun e he => Or.inl he⟩
    exact (commitMessage_spec env m s).mono (fun _ _ _ => trivial)
      fun e _ he => Or.inr (Or.inr he.1)
  exact hspec.error h

/-- The check before a call fails when the run is cancelled. -/
theorem endsWith_checkCancelled {s t : RunState} {e : RuntimeError}
    (h : checkCancelled (inp.calls p.1).cancelled s = .error e t) :
    EndsWith env tool_context inp p e := by
  have hspec : wp (checkCancelled (inp.calls p.1).cancelled) (fun _ _ => True)
      (fun e _ => EndsWith env tool_context inp p e) s := by
    unfold checkCancelled
    rw [wp_ite]
    exact ⟨fun hc => Or.inr (Or.inl ⟨hc, rfl⟩), fun _ => trivial⟩
  exact hspec.error h

/-- Starts and ends of futures are no errors. -/
theorem FatalByCall.snoc {event : PhaseEvent} (h : FatalByCall env tool_context inp calls log)
    (hevent : ∀ i e, event ≠ .fatal i e) :
    FatalByCall env tool_context inp calls (log ++ [event]) := by
  intro i e hmem
  rcases mem_append.mp hmem with hmem | hmem
  · exact h i e hmem
  · exact absurd (mem_singleton.mp hmem).symm (hevent i e)

/-- An error that a step comes to is one of a call of the phase. -/
theorem fatalByCall_step (hplaced : Placed env calls st.log st.control)
    (hfatal : FatalByCall env tool_context inp calls st.log)
    (h : phaseStep env tool_context inp st label = some st') :
    FatalByCall env tool_context inp calls st'.log := by
  cases phaseStep_effect h with
  | done | flush | collect | flushBefore | joined | resume => exact hfatal
  | single =>
    obtain ⟨pre, hcalls, -, -⟩ := hplaced
    exact hfatal.handle (by rw [hcalls]; simp) fun e t he => endsWith_checkCancelled he
  | commit p batch next rest s log =>
    obtain ⟨pre, hcalls, -, hbatch⟩ := hplaced
    have hp : p ∈ Greedy.indexed calls := by
      rw [hcalls]
      exact mem_append_left _ (hbatch p mem_cons_self)
    exact hfatal.handle hp fun e t he => endsWith_commitCall he
  | singleAfter =>
    obtain ⟨pre, hcalls, -, -⟩ := hplaced
    exact hfatal.handle (by rw [hcalls]; simp) fun e t he => endsWith_checkCancelled he
  | start | finish => exact hfatal.snoc (by simp)

/-- In every order of the steps, an error is one of a call of the phase. -/
theorem fatalByCall_reach (h : (phaseSystem env tool_context inp calls s).Reach st) :
    FatalByCall env tool_context inp calls st.log := by
  induction h with
  | init h0 =>
    rw [show _ = startPhase calls s from h0]
    intro i e hmem
    simp [startPhase] at hmem
  | step hreach _ hstep ih => exact fatalByCall_step (placed_reach hreach).1 ih hstep

end

/-! ## A tool phase -/

/-- The state in which the tool calls of a turn are announced. -/
def afterAnnounce (env : RunEnv) (calls : List ToolCall) (s : RunState) : RunState :=
  match announceToolExecution env calls s with
  | .ok _ t => t
  | .error _ t => t

/-- All orders of the steps of a turn's tool phase. -/
def toolPhaseSystem (env : RunEnv) (inp : TurnInput) (calls : List ToolCall) (s : RunState) :
    System PhaseState PhaseLabel :=
  phaseSystem env (turnToolContext env s) inp calls (afterAnnounce env calls s)

/-- The tool phase is its calls, after they are announced. -/
theorem toolPhase_eq (env : RunEnv) (inp : TurnInput) (calls : List ToolCall) (s : RunState) :
    toolPhase env inp calls s = runCalls env (turnToolContext env s) inp (Greedy.indexed calls) []
      (afterAnnounce env calls s) := by
  have hget : (get : RunM RunState) s = .ok s s := rfl
  have hsend : announceToolExecution env calls s = .ok () (afterAnnounce env calls s) := rfl
  unfold toolPhase
  rw [bind_ok hget, bind_ok hsend]

/-- Every order of the steps of a tool phase that comes to an end comes to what `toolPhase`
computes. -/
theorem toolPhase_of_ended {env : RunEnv} {inp : TurnInput} {calls : List ToolCall}
    (h : (toolPhaseSystem env inp calls s).Reach st) {result : Except RuntimeError Unit}
    (hend : st.control = .ended result) :
    toolPhase env inp calls s = Effect.ofExcept result st.run := by
  have hrem := remaining_reach h
  rw [hend] at hrem
  rw [toolPhase_eq]
  exact hrem.symm

/-- In every order of the steps of a tool phase, a call that is not read-only starts only after all
calls before it have finished; when the phase has ended and no call has ended it with an error,
there is one tool message for each call, in the order of the calls; and such an error is one of a
call. -/
theorem toolPhase_ordered (env : RunEnv) (inp : TurnInput) (calls : List ToolCall) (s : RunState)
    {st : PhaseState} (h : (toolPhaseSystem env inp calls s).Reach st) :
    StartsInOrder env calls st.log ∧
      (∀ result, st.control = .ended result → (∀ i e, .fatal i e ∉ st.log) →
        ∃ ms, st.run.context.messages = s.context.messages ++ ms ∧
          List.Forall₂ IsAnswer calls ms) ∧
      FatalByCall env (turnToolContext env s) inp calls st.log := by
  obtain ⟨hplaced, horder⟩ := placed_reach h
  refine ⟨horder, fun result hend hfatal => ?_, fatalByCall_reach h⟩
  rw [hend] at hplaced
  cases result with
  | error e =>
    obtain ⟨i, hi⟩ := hplaced
    exact absurd hi (hfatal i e)
  | ok a =>
    have hrun : toolPhase env inp calls s = .ok () st.run := toolPhase_of_ended h hend
    obtain ⟨ms, hext, hans⟩ := (toolPhase_spec env inp calls s).ok hrun
    exact ⟨ms, by rw [hext.context], hans⟩

/-- A run that has taken a turn. -/
def turnTaken : RunState where
  context := asked
  turn := 1

/-- Two calls that read, one that does not, and one more that reads. -/
def mixedCalls : List ToolCall :=
  [plainCall "c1" "file_read", plainCall "c2" "file_read", plainCall "c3" "shell_exec",
    plainCall "c4" "file_read"]

/-- The first two calls end in the other order. -/
def mixedOrder : List PhaseLabel :=
  [.advance, .advance, .advance, .start 0, .start 1, .finish 1, .finish 0, .advance, .advance,
    .advance, .advance, .start 2, .finish 2, .advance, .advance, .advance, .advance, .advance,
    .start 3, .finish 3, .advance, .advance, .advance, .advance]

/-- Whether a phase has ended without an error. -/
def PhaseState.endedWell (st : PhaseState) : Bool :=
  match st.control with
  | .ended (.ok _) => st.log.all fun event => match event with
    | .fatal _ _ => false
    | _ => true
  | _ => false

/-- A phase in which calls overlap: four messages, in the order of the calls. -/
theorem mixedCalls_ordered :
    ∃ st, (toolPhaseSystem (readingRun 1000) (reply [] 5) mixedCalls turnTaken).Reach st ∧
      StartsInOrder (readingRun 1000) mixedCalls st.log ∧
      ∃ ms, st.run.context.messages = asked.messages ++ ms ∧
        List.Forall₂ IsAnswer mixedCalls ms := by
  obtain ⟨st, hexec, hend⟩ : ∃ st, st ∈ exec (fun _ _ => True)
      (phaseStep (readingRun 1000) (turnToolContext (readingRun 1000) turnTaken) (reply [] 5))
      (startPhase mixedCalls (afterAnnounce (readingRun 1000) mixedCalls turnTaken)) mixedOrder ∧
      st.endedWell = true := by
    decide
  have hreach : (toolPhaseSystem (readingRun 1000) (reply [] 5) mixedCalls turnTaken).Reach st :=
    reachWithin_exec (.init rfl) hexec
  obtain ⟨horder, hmessages, -⟩ := toolPhase_ordered _ _ _ _ hreach
  unfold PhaseState.endedWell at hend
  split at hend
  · next hcontrol =>
    refine ⟨st, hreach, horder, hmessages _ hcontrol fun i e hmem => ?_⟩
    simpa using all_eq_true.mp hend _ hmem
  · simp at hend

end Oxydra
