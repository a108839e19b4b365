import Mathlib
import Oxydra.Runtime.Session

/-!
# What the parts of a turn do

One specification for each part of the loop of `Runtime/Session.lean`, as a weakest precondition
with a postcondition for its success and one for its failure. `Quiet` relates the states around the
part before the provider call: the transcript, the ledger, and the stored messages stand. `Extends`
relates the states around the part after it: messages are added and stored, tools are executed, and
the ledger stands. `runTurn_spec` puts them together; the results about runs use nothing else.
-/

namespace Oxydra

open Effect

variable {context : Context} {memory : SessionMemory} {settled : ℕ}

/-! ## Persistence -/

/-- A memory that works, and whose sequence numbers count its messages. -/
structure Counted (memory : SessionMemory) : Prop where
  healthy : memory.faults = []
  last : ∀ r ∈ memory.records.getLast?, r.1 = memory.records.length
  bounded : memory.records.length < 2^63

/-- The run knows the next sequence number of such a memory. -/
structure Synced (s : RunState) : Prop where
  counted : Counted s.memory
  next : s.next_memory_sequence = s.memory.records.length + 1

/-- A tool execution that the dispatch lets through: a call names a registered tool that an enforced
policy does not disallow. -/
def Executes (env : RunEnv) (calls : List ToolCall) (event : RunEvent) : Prop :=
  ∃ call ∈ calls, (∃ args, event = .toolExecuted call.name args) ∧
    (∃ tool, env.rt.tool_registry.get call.name = some tool) ∧
    ∀ p, env.policy = some p → p.rollout_mode = .enforce → call.name ∉ p.disallowed_tools

/-- `t` is `s` with the messages `ms` added, of which `stored` are stored, and with tools executed
for some of `calls`. -/
structure Extends (env : RunEnv) (calls : List ToolCall) (s t : RunState)
    (ms stored : List Message) : Prop where
  context : t.context = { s.context with messages := s.context.messages ++ ms }
  turn : t.turn = s.turn
  ledger : t.budget_ledger = s.budget_ledger
  trace : ∃ execs, t.trace = s.trace ++ execs ∧ ∀ event ∈ execs, Executes env calls event
  memory : env.remembers = true → Synced s → Synced t ∧
    t.memory.records.map Prod.snd = s.memory.records.map Prod.snd ++ stored.map messageForMemory

section

variable {env : RunEnv} {calls calls' : List ToolCall} {s t u : RunState}
  {ms ms' stored stored' : List Message}

/-- Nothing added. -/
theorem Extends.refl : Extends env calls s s [] [] where
  context := by simp
  turn := rfl
  ledger := rfl
  trace := ⟨[], by simp, by simp⟩
  memory := fun _ h => ⟨h, by simp⟩

/-- One addition after another. -/
theorem Extends.trans (h : Extends env calls s t ms stored)
    (h' : Extends env calls t u ms' stored') :
    Extends env calls s u (ms ++ ms') (stored ++ stored') where
  context := by rw [h'.context, h.context, List.append_assoc]
  turn := h'.turn.trans h.turn
  ledger := h'.ledger.trans h.ledger
  trace := by
    obtain ⟨execs, he, hx⟩ := h.trace
    obtain ⟨execs', he', hx'⟩ := h'.trace
    refine ⟨execs ++ execs', by rw [he', he, List.append_assoc], fun event hmem => ?_⟩
    rcases List.mem_append.mp hmem with hmem | hmem
    · exact hx event hmem
    · exact hx' event hmem
  memory := by
    intro hrem hs
    obtain ⟨ht, hrec⟩ := h.memory hrem hs
    obtain ⟨hu, hrec'⟩ := h'.memory hrem ht
    exact ⟨hu, by rw [hrec', hrec, List.map_append, List.append_assoc]⟩

/-- Without calls nothing is executed. -/
theorem Extends.trace_eq (h : Extends env [] s t ms stored) : t.trace = s.trace := by
  obtain ⟨execs, he, hx⟩ := h.trace
  have hnil : execs = [] := by
    refine List.eq_nil_iff_forall_not_mem.mpr fun event hmem => ?_
    obtain ⟨call, hcall, -⟩ := hx event hmem
    simp at hcall
  rw [he, hnil, List.append_nil]

/-- More calls allow more executions. -/
theorem Extends.mono (h : Extends env calls s t ms stored) (hsub : ∀ c ∈ calls, c ∈ calls') :
    Extends env calls' s t ms stored where
  context := h.context
  turn := h.turn
  ledger := h.ledger
  trace := by
    obtain ⟨execs, he, hx⟩ := h.trace
    refine ⟨execs, he, fun event hmem => ?_⟩
    obtain ⟨call, hcall, hexec⟩ := hx event hmem
    exact ⟨call, hsub call hcall, hexec⟩
  memory := h.memory

end

/-- An operation on the memory is specified on the memory. -/
@[simp] theorem wp_liftMemory {α : Type} {x : MemoryM α} {Q : α → RunState → Prop}
    {E : RuntimeError → RunState → Prop} {s : RunState} :
    wp (liftMemory x) Q E s ↔ wp x (fun a memory => Q a { s with memory := memory })
      (fun e memory => E (.memory e) { s with memory := memory }) s.memory := by
  unfold wp liftMemory
  cases x s.memory <;> rfl

/-- `store` on a working memory appends the message, or leaves the memory alone. -/
theorem store_spec (session_id : String) (sequence : ℕ) (m : Message) (memory : SessionMemory) :
    wp (SessionMemory.store session_id sequence m)
      (fun _ memory' => memory.faults = [] → sequence < 2^63 ∧ memory'.faults = [] ∧
        memory'.records = memory.records ++ [(sequence, m)])
      (fun _ memory' => memory.faults = [] → memory' = memory) memory := by
  obtain ⟨records, summary_state, faults⟩ := memory
  unfold SessionMemory.store SessionMemory.nextFault
  cases faults with
  | nil =>
    simp only [wp_bind, wp_get, wp_pure, wp_ite, wp_throw]
    refine ⟨fun _ _ => trivial, fun hseq => ?_⟩
    cases records.getLast? with
    | none => exact fun _ => ⟨by omega, rfl, rfl⟩
    | some record =>
      simp only [wp_ite, wp_throw, wp_set]
      exact ⟨fun _ _ => trivial, fun _ _ => ⟨by omega, trivial, trivial⟩⟩
  | cons fault faults =>
    -- nothing is said of a memory that fails
    simp only [reduceCtorEq, false_implies]
    unfold wp
    split <;> trivial

/-- An error of the memory. -/
def RuntimeError.ofMemory : RuntimeError → Bool
  | .memory _ => true
  | _ => false

/-- Persisting stores one message, and touches nothing else; a failure is the memory's, and stores
nothing. -/
theorem persistMessageIfNeeded_spec (env : RunEnv) (m : Message) (s : RunState) :
    wp (persistMessageIfNeeded env m) (fun _ t => Extends env [] s t [] [m])
      (fun e t => e.ofMemory = true ∧ Extends env [] s t [] []) s := by
  unfold persistMessageIfNeeded
  rw [wp_ite]
  refine ⟨fun hrem => ?_, fun hrem => ?_⟩
  · simp only [wp_bind, wp_get, wp_liftMemory, wp_modify]
    refine (store_spec _ _ _ _).mono (fun _ memory hstore => ?_) (fun _ memory hstore => ?_)
    · refine ⟨by simp, rfl, rfl, ⟨[], by simp, by simp⟩, fun _ hs => ?_⟩
      obtain ⟨hlt, hhealthy, hrecords⟩ := hstore hs.counted.healthy
      rw [hs.next] at hlt hrecords
      have hroom : s.memory.records.length + 1 + 1 ≤ U64.max := by
        have : (2 : ℕ)^63 < U64.max := by decide
        omega
      refine ⟨⟨⟨hhealthy, ?_, ?_⟩, ?_⟩, ?_⟩
      · simp [hrecords]
      · simp only [hrecords, List.length_append, List.length_singleton]
        exact hlt
      · simp only [hs.next, U64.saturatingAdd_of_le hroom, hrecords, List.length_append,
          List.length_singleton]
      · simp [hrecords]
    · refine ⟨rfl, by simp, rfl, rfl, ⟨[], by simp, by simp⟩, fun _ hs => ?_⟩
      obtain rfl := hstore hs.counted.healthy
      exact ⟨hs, by simp⟩
  · rw [wp_pure]
    refine ⟨by simp, rfl, rfl, ⟨[], by simp, by simp⟩, fun hrem' => absurd hrem' hrem⟩

/-- Committing adds a message, and stores it unless the memory fails. -/
theorem commitMessage_spec (env : RunEnv) (m : Message) (s : RunState) :
    wp (commitMessage env m) (fun _ t => Extends env [] s t [m] [m])
      (fun e t => e.ofMemory = true ∧ Extends env [] s t [m] []) s := by
  unfold commitMessage
  simp only [wp_bind, wp_modify]
  -- the push stores nothing
  have hpush : Extends env [] s
      { s with context := { s.context with messages := s.context.messages ++ [m] } } [m] [] :=
    ⟨rfl, rfl, rfl, ⟨[], by simp, by simp⟩, fun _ hs => ⟨⟨hs.counted, hs.next⟩, by simp⟩⟩
  exact (persistMessageIfNeeded_spec env m _).mono (fun _ t ht => hpush.trans ht)
    (fun _ t ht => ⟨ht.1, hpush.trans ht.2⟩)

/-! ## The tool phase -/

/-- `m` is the tool message for a call. -/
def IsAnswer (call : ToolCall) (m : Message) : Prop :=
  m.role = .tool ∧ m.tool_call_id = some call.id ∧ m.tool_calls = [] ∧ m.attachments = []

/-- Sending an item changes nothing that is compared. -/
theorem send_spec (env : RunEnv) (calls : List ToolCall) (item : StreamItem) (s : RunState) :
    wp (send env item) (fun _ t => Extends env calls s t [] []) (fun _ _ => False) s := by
  unfold send
  rw [wp_modify]
  split_ifs
  · exact ⟨by simp, rfl, rfl, ⟨[], by simp, by simp⟩,
      fun _ hs => ⟨⟨hs.counted, hs.next⟩, by simp⟩⟩
  · exact Extends.refl

/-- Recording the calls of a batch adds their executions. -/
theorem recordCalls_spec (env : RunEnv) (tool_context : ToolExecutionContext) (inp : TurnInput)
    (hctx : tool_context.policy = env.policy) : ∀ (batch : List (ℕ × ToolCall)) (s : RunState),
    wp (recordCalls (batch.map fun (i, call) =>
        (call, env.rt.executeToolAndFormat call tool_context (inp.calls i).race)))
      (fun _ t => Extends env (batch.map Prod.snd) s t [] []) (fun _ _ => False) s
  | [], s => by
    simp only [List.map_nil, recordCalls, wp_pure]
    exact Extends.refl
  | (i, call) :: rest, s => by
    simp only [List.map_cons, recordCalls, recordCall, wp_bind, wp_modify]
    refine (recordCalls_spec env tool_context inp hctx rest _).mono (fun _ t ht => ?_)
      (fun _ _ h => h)
    -- the call comes first, and then what is recorded of the rest
    refine Extends.trans (?_ : Extends env (call :: rest.map Prod.snd) s _ [] [])
      (ht.mono fun c hc => List.mem_cons_of_mem _ hc)
    refine ⟨by simp, rfl, rfl, ⟨_, rfl, fun event hmem => ?_⟩,
      fun _ hs => ⟨⟨hs.counted, hs.next⟩, by simp⟩⟩
    cases hexec : (env.rt.executeToolAndFormat call tool_context (inp.calls i).race).executed with
    | none => simp [hexec] at hmem
    | some args =>
      simp only [hexec, List.mem_singleton] at hmem
      obtain ⟨hreg, hallowed⟩ := AgentRuntime.executeToolAndFormat_executed hexec
      exact ⟨call, List.mem_cons_self, ⟨args, hmem⟩, hreg, fun p hp => hallowed p (hctx.trans hp)⟩

/-- The results of a batch are committed in order, up to the first failure. -/
theorem commitResults_spec (env : RunEnv) : ∀ (runs : List (ToolCall × CallRun Message))
    (s : RunState),
    wp (commitResults env runs)
      (fun _ t => ∃ ms, Extends env [] s t ms ms ∧ runs.map (fun r => r.2.result) = ms.map .ok)
      (fun _ t => ∃ ms stored, Extends env [] s t ms stored) s
  | [], s => by
    simp only [commitResults, wp_pure]
    exact ⟨[], Extends.refl, rfl⟩
  | (call, run) :: rest, s => by
    simp only [commitResults, wp_bind, wp_ofExcept]
    refine ⟨fun m hm => ?_, fun e _ => ⟨[], [], Extends.refl⟩⟩
    refine (commitMessage_spec env m s).mono (fun _ t ht => ?_) (fun _ t ht => ⟨_, _, ht.2⟩)
    refine (commitResults_spec env rest t).mono (fun _ u hu => ?_) (fun _ u hu => ?_)
    · obtain ⟨ms, hext, hms⟩ := hu
      exact ⟨m :: ms, ht.trans hext, by simp [hm, hms]⟩
    · obtain ⟨ms, stored, hext⟩ := hu
      exact ⟨_, _, ht.trans hext⟩

/-- A batch answers each of its calls, in order, or fails. -/
theorem runBatch_spec (env : RunEnv) (tool_context : ToolExecutionContext) (inp : TurnInput)
    (hctx : tool_context.policy = env.policy) (batch : List (ℕ × ToolCall)) (s : RunState) :
    wp (runBatch env tool_context inp batch)
      (fun _ t => ∃ ms, Extends env (batch.map Prod.snd) s t ms ms ∧
        List.Forall₂ IsAnswer (batch.map Prod.snd) ms)
      (fun _ t => ∃ ms stored, Extends env (batch.map Prod.snd) s t ms stored) s := by
  unfold runBatch
  simp only [wp_bind]
  refine (recordCalls_spec env tool_context inp hctx batch s).mono (fun _ t ht => ?_)
    (fun _ _ h => h.elim)
  refine (commitResults_spec env _ t).mono (fun _ u hu => ?_) (fun _ u hu => ?_)
  · obtain ⟨ms, hext, hms⟩ := hu
    refine ⟨ms, ht.trans (hext.mono (by simp)), ?_⟩
    rw [List.map_map] at hms
    rw [List.forall₂_map_left_iff]
    -- a result that was committed is the answer to its call
    have hzip : List.Forall₂ (fun (p : ℕ × ToolCall) m =>
        (env.rt.executeToolAndFormat p.2 tool_context (inp.calls p.1).race).result = .ok m)
        batch ms := by
      have := List.forall₂_eq_eq_eq ▸ hms
      rwa [List.forall₂_map_left_iff, List.forall₂_map_right_iff] at this
    exact hzip.imp fun p m hm => AgentRuntime.executeToolAndFormat_ok hm
  · obtain ⟨ms, stored, hext⟩ := hu
    exact ⟨_, _, ht.trans (hext.mono (by simp))⟩

/-- The calls of a turn are answered in their order, or the run fails. -/
theorem runCalls_spec (env : RunEnv) (tool_context : ToolExecutionContext) (inp : TurnInput)
    (hctx : tool_context.policy = env.policy) :
    ∀ (rest current_batch : List (ℕ × ToolCall)) (s : RunState),
    wp (runCalls env tool_context inp rest current_batch)
      (fun _ t => ∃ ms, Extends env ((current_batch ++ rest).map Prod.snd) s t ms ms ∧
        List.Forall₂ IsAnswer ((current_batch ++ rest).map Prod.snd) ms)
      (fun _ t => ∃ ms stored, Extends env ((current_batch ++ rest).map Prod.snd) s t ms stored) s
  | [], current_batch, s => by
    simp only [runCalls, List.append_nil]
    exact runBatch_spec env tool_context inp hctx current_batch s
  | (i, call) :: rest, current_batch, s => by
    rw [runCalls]
    split_ifs
    · have := runCalls_spec env tool_context inp hctx rest (current_batch ++ [(i, call)]) s
      simpa only [List.append_assoc, List.singleton_append] using this
    have hbatch : ∀ c ∈ current_batch.map Prod.snd,
        c ∈ (current_batch ++ (i, call) :: rest).map Prod.snd := by
      intro c hc
      rw [List.map_append]
      exact List.mem_append_left _ hc
    have hcall : ∀ c ∈ [(i, call)].map Prod.snd,
        c ∈ (current_batch ++ (i, call) :: rest).map Prod.snd := by simp
    have hrest : ∀ c ∈ ([] ++ rest).map Prod.snd,
        c ∈ (current_batch ++ (i, call) :: rest).map Prod.snd := by
      intro c hc
      simp only [List.nil_append] at hc
      simp [List.mem_map.mp hc]
    simp only [wp_bind]
    -- the batch, the check, the single call, and the rest, each from where the one before ended
    refine (runBatch_spec env tool_context inp hctx current_batch s).mono (fun _ t ht => ?_)
      (fun _ t ht => ?_)
    · obtain ⟨ms, hext, hans⟩ := ht
      have hext := hext.mono hbatch
      unfold checkCancelled
      rw [wp_ite]
      refine ⟨fun _ => ⟨ms, ms, hext⟩, fun _ => ?_⟩
      rw [wp_pure]
      refine (runBatch_spec env tool_context inp hctx [(i, call)] t).mono (fun _ u hu => ?_)
        (fun _ u hu => ?_)
      · obtain ⟨ms', hext', hans'⟩ := hu
        have hext' := hext.trans (hext'.mono hcall)
        refine (runCalls_spec env tool_context inp hctx rest [] u).mono (fun _ v hv => ?_)
          (fun _ v hv => ?_)
        · obtain ⟨ms'', hext'', hans''⟩ := hv
          refine ⟨_, hext'.trans (hext''.mono hrest), ?_⟩
          rw [List.map_append, List.map_cons, List.append_assoc]
          exact List.rel_append hans (List.rel_append hans' hans'')
        · obtain ⟨ms'', stored, hext''⟩ := hv
          exact ⟨_, _, hext'.trans (hext''.mono hrest)⟩
      · obtain ⟨ms', stored, hext'⟩ := hu
        exact ⟨_, _, hext.trans (hext'.mono hcall)⟩
    · obtain ⟨ms, stored, hext⟩ := ht
      exact ⟨_, _, hext.mono hbatch⟩

/-- The tool phase answers every call, in order, or fails. -/
theorem toolPhase_spec (env : RunEnv) (inp : TurnInput) (calls : List ToolCall) (s : RunState) :
    wp (toolPhase env inp calls)
      (fun _ t => ∃ ms, Extends env calls s t ms ms ∧ List.Forall₂ IsAnswer calls ms)
      (fun _ t => ∃ ms stored, Extends env calls s t ms stored) s := by
  unfold toolPhase announceToolExecution
  simp only [wp_bind, wp_get]
  refine (send_spec env calls _ s).mono (fun _ t ht => ?_) (fun _ _ h => h.elim)
  have hspec := runCalls_spec env (turnToolContext env s) inp rfl (Greedy.indexed calls) [] t
  simp only [List.nil_append, Greedy.map_indexed] at hspec
  refine hspec.mono (fun _ u hu => ?_) (fun _ u hu => ?_)
  · obtain ⟨ms, hext, hans⟩ := hu
    exact ⟨ms, ht.trans hext, hans⟩
  · obtain ⟨ms, stored, hext⟩ := hu
    exact ⟨_, _, ht.trans hext⟩

/-- From the response on: the assistant message and the answers to its calls are added, or the run
fails. -/
theorem finishTurn_spec (env : RunEnv) (inp : TurnInput) (r : Response) (s : RunState) :
    wp (finishTurn env inp r)
      (fun out t => ∃ ms, Extends env r.calls s t (r.assistantMessage :: ms)
          (r.assistantMessage :: ms) ∧ List.Forall₂ IsAnswer r.calls ms ∧
        out = if r.calls = [] then some r.final else none)
      (fun _ t => ∃ ms stored, Extends env r.calls s t ms stored) s := by
  unfold finishTurn
  simp only [wp_bind]
  refine (commitMessage_spec env r.assistantMessage s).mono (fun _ t ht => ?_)
    (fun _ t ht => ⟨_, _, ht.2.mono (by simp)⟩)
  have ht : Extends env r.calls s t [r.assistantMessage] [r.assistantMessage] := ht.mono (by simp)
  rw [wp_ite]
  refine ⟨fun hnil => ?_, fun hcalls => ?_⟩
  · rw [wp_pure, if_pos hnil, hnil]
    rw [hnil] at ht
    exact ⟨[], ht, List.Forall₂.nil, rfl⟩
  · rw [if_neg hcalls]
    simp only [wp_bind, wp_pure]
    refine (toolPhase_spec env inp r.calls t).mono (fun _ u hu => ?_) (fun _ u hu => ?_)
    · obtain ⟨ms, hext, hans⟩ := hu
      exact ⟨ms, ht.trans hext, hans, trivial⟩
    · obtain ⟨ms, stored, hext⟩ := hu
      exact ⟨_, _, ht.trans hext⟩

/-! ## Before the provider call -/

/-- The transcript, the ledger, and the stored messages stand. -/
structure Quiet (s t : RunState) : Prop where
  context : t.context = s.context
  ledger : t.budget_ledger = s.budget_ledger
  memory : Synced s → Synced t ∧ t.memory.records = s.memory.records

section

variable {s t u : RunState}

theorem Quiet.refl : Quiet s s := ⟨rfl, rfl, fun h => ⟨h, rfl⟩⟩

theorem Quiet.trans (h : Quiet s t) (h' : Quiet t u) : Quiet s u where
  context := h'.context.trans h.context
  ledger := h'.ledger.trans h.ledger
  memory hs := by
    obtain ⟨ht, hrec⟩ := h.memory hs
    obtain ⟨hu, hrec'⟩ := h'.memory ht
    exact ⟨hu, hrec'.trans hrec⟩

/-- A change of what is not compared. -/
theorem Quiet.of_eq (hcontext : t.context = s.context) (hledger : t.budget_ledger = s.budget_ledger)
    (hnext : t.next_memory_sequence = s.next_memory_sequence)
    (hrecords : t.memory.records = s.memory.records)
    (hfaults : s.memory.faults = [] → t.memory.faults = []) : Quiet s t :=
  ⟨hcontext, hledger, fun hs => ⟨⟨⟨hfaults hs.counted.healthy,
    by rw [hrecords]; exact hs.counted.last, by rw [hrecords]; exact hs.counted.bounded⟩,
    by rw [hnext, hrecords]; exact hs.next⟩, hrecords⟩⟩

end

/-- `s` and `t` agree on the turn and the trace, and otherwise as `Quiet` says. -/
def Still (s t : RunState) : Prop := Quiet s t ∧ t.turn = s.turn ∧ t.trace = s.trace

theorem Still.trans {s t u : RunState} (h : Still s t) (h' : Still t u) : Still s u :=
  ⟨h.1.trans h'.1, h'.2.1.trans h.2.1, h'.2.2.trans h.2.2⟩

theorem send_still (env : RunEnv) (item : StreamItem) (s : RunState) :
    wp (send env item) (fun _ t => Still s t) (fun _ _ => False) s := by
  unfold send
  rw [wp_modify]
  split_ifs
  · exact ⟨.of_eq rfl rfl rfl rfl id, rfl, rfl⟩
  · exact ⟨Quiet.refl, rfl, rfl⟩

/-- Meeting the next fault changes the faults alone. -/
theorem nextFault_spec (memory : SessionMemory) :
    wp SessionMemory.nextFault
      (fun _ memory' => memory'.records = memory.records ∧
        (memory.faults = [] → memory' = memory))
      (fun _ memory' => memory'.records = memory.records ∧
        (memory.faults = [] → memory' = memory)) memory := by
  unfold SessionMemory.nextFault
  simp only [wp_bind, wp_get]
  cases hf : memory.faults with
  | nil => exact ⟨rfl, fun _ => rfl⟩
  | cons fault faults =>
    cases fault with
    | none => exact ⟨rfl, by simp⟩
    | some e => exact ⟨rfl, by simp⟩

/-- Reading the summary stores nothing. -/
theorem loadSummaryState_spec (env : RunEnv) (s : RunState) :
    wp (loadSummaryState env) (fun _ t => Still s t) (fun _ _ => False) s := by
  have hread : wp SessionMemory.readSummaryState
      (fun _ memory => memory.records = s.memory.records ∧
        (s.memory.faults = [] → memory = s.memory))
      (fun _ memory => memory.records = s.memory.records ∧
        (s.memory.faults = [] → memory = s.memory)) s.memory := by
    unfold SessionMemory.readSummaryState
    simp only [wp_bind, wp_get, wp_pure]
    exact nextFault_spec s.memory
  have hstill : ∀ memory : SessionMemory, memory.records = s.memory.records →
      (s.memory.faults = [] → memory = s.memory) → Still s { s with memory := memory } := by
    intro memory hrecords hsame
    exact ⟨.of_eq rfl rfl rfl hrecords fun hf => by rw [hsame hf]; exact hf, rfl, rfl⟩
  unfold wp at hread ⊢
  unfold loadSummaryState
  split_ifs
  · split at hread
    · next hres =>
      simp only [hres]
      exact hstill _ hread.1 hread.2
    · next hres =>
      simp only [hres]
      exact hstill _ hread.1 hread.2
  · exact ⟨Quiet.refl, rfl, rfl⟩

/-- Writing the summary stores no message. -/
theorem writeSummaryState_spec (expected_epoch : ℕ) (state : MemorySummaryState)
    (memory : SessionMemory) :
    wp (SessionMemory.writeSummaryState expected_epoch state)
      (fun _ memory' => memory'.records = memory.records ∧
        (memory.faults = [] → memory'.faults = []))
      (fun _ memory' => memory'.records = memory.records ∧
        (memory.faults = [] → memory'.faults = [])) memory := by
  unfold SessionMemory.writeSummaryState
  simp only [wp_ite, wp_throw, wp_bind]
  refine ⟨fun _ => ⟨trivial, id⟩, fun _ => ?_⟩
  have hsame : ∀ memory' : SessionMemory, memory'.records = memory.records ∧
      (memory.faults = [] → memory' = memory) →
      memory'.records = memory.records ∧ (memory.faults = [] → memory'.faults = []) :=
    fun memory' h => ⟨h.1, fun hf => by rw [h.2 hf]; exact hf⟩
  refine (nextFault_spec memory).mono (fun _ memory' h => ?_) (fun _ memory' h => hsame memory' h)
  have h := hsame memory' h
  simp only [wp_get]
  cases memory'.summary_state with
  | none =>
    simp only [wp_ite, wp_bind, wp_set, wp_pure]
    exact ⟨fun _ => h, fun _ => h⟩
  | some existing =>
    simp only [wp_ite, wp_bind, wp_set, wp_pure, wp_throw]
    exact ⟨fun _ => h, fun _ => ⟨fun _ => h, fun _ => h⟩⟩

/-- The rolling summary stores no message. -/
theorem maybeTriggerRollingSummary_spec (env : RunEnv) (inp : TurnInput) (s : RunState) :
    wp (maybeTriggerRollingSummary env inp) (fun _ t => Still s t) (fun _ t => Still s t) s := by
  have hrefl : Still s s := ⟨Quiet.refl, rfl, rfl⟩
  unfold maybeTriggerRollingSummary
  simp only [wp_ite, wp_bind, wp_get, wp_pure]
  refine ⟨fun _ => ⟨fun _ => hrefl, fun _ => ?_⟩, fun _ => hrefl⟩
  refine (loadSummaryState_spec env s).mono (fun loaded t ht => ?_) (fun _ _ h => h.elim)
  rw [wp_ofExcept]
  refine ⟨fun due _ => ?_, fun _ _ => ht⟩
  cases due with
  | none => exact ht
  | some due =>
    simp only [wp_bind, wp_liftMemory, wp_pure]
    have hwrite : ∀ memory : SessionMemory, memory.records = t.memory.records ∧
        (t.memory.faults = [] → memory.faults = []) → Still s { t with memory := memory } :=
      fun memory h => ht.trans ⟨.of_eq rfl rfl rfl h.1 h.2, rfl, rfl⟩
    exact (writeSummaryState_spec _ _ _).mono (fun _ memory h => hwrite memory h)
      (fun _ memory h => hwrite memory h)

/-- Preparing the provider context stores nothing. -/
theorem prepareContext_spec (env : RunEnv) (inp : TurnInput) (s : RunState) :
    wp (prepareContext env inp) (fun _ t => Still s t) (fun _ t => Still s t) s := by
  unfold prepareContext
  simp only [wp_bind, wp_get]
  refine (loadSummaryState_spec env s).mono (fun loaded t ht => ?_) (fun _ _ h => h.elim)
  rw [wp_ofExcept]
  exact ⟨fun _ _ => ht, fun _ _ => ht⟩

/-- What an iteration has recorded before its provider call: whether the deadline has passed. -/
def Headed (s t : RunState) : Prop :=
  t.trace = s.trace ∨ t.trace = s.trace ++ [.deadlinePassed]

/-- The turn limit lets an enforced run pass only below it. -/
theorem checkTurnLimit_spec (env : RunEnv) (s : RunState) :
    wp (checkTurnLimit env) (fun _ t => Still s t ∧ (env.enforced = true → s.turn < env.maxTurns))
      (fun _ t => Still s t) s := by
  have hrefl : Still s s := ⟨Quiet.refl, rfl, rfl⟩
  unfold checkTurnLimit
  simp only [wp_bind, wp_get, wp_ite, wp_throw, wp_pure]
  refine ⟨fun hlimit => ⟨fun _ => hrefl, fun henf => ⟨fun _ => ?_, fun _ => ⟨hrefl, ?_⟩⟩⟩,
    fun hlimit => ⟨hrefl, fun _ => by omega⟩⟩
  · refine (send_still env _ s).mono (fun _ t ht => ⟨ht, fun h => absurd h henf⟩)
      (fun _ _ h => h.elim)
  · exact fun h => absurd h henf

/-- The deadline lets an enforced run pass only before it. -/
theorem checkDeadline_spec (env : RunEnv) (now : Timestamp) (s : RunState) :
    wp (checkDeadline env now)
      (fun _ t => Quiet s t ∧ Headed s t ∧ t.turn = s.turn ∧
        (env.enforced = true → t.trace = s.trace))
      (fun _ t => Quiet s t ∧ Headed s t) s := by
  unfold checkDeadline record
  simp only [wp_bind, wp_ite, wp_throw, wp_pure, wp_modify]
  -- the state in which the deadline is recorded
  have hquiet : Quiet s { s with trace := s.trace ++ [.deadlinePassed] } :=
    .of_eq rfl rfl rfl rfl id
  refine ⟨fun _ => ⟨fun _ => ⟨hquiet, Or.inr rfl⟩, fun henf => ⟨fun _ => ?_, fun _ => ?_⟩⟩,
    fun _ => ⟨Quiet.refl, Or.inl rfl, trivial, fun _ => trivial⟩⟩
  · refine (send_still env _ _).mono (fun _ t ht => ?_) (fun _ _ h => h.elim)
    exact ⟨hquiet.trans ht.1, Or.inr ht.2.2, ht.2.1, fun h => absurd h henf⟩
  · exact ⟨hquiet, Or.inr rfl, trivial, fun h => absurd h henf⟩

/-- The head of an iteration. Under an enforced policy it reaches the provider call only below the
turn limit and before the deadline. -/
theorem beforeProvider_spec (env : RunEnv) (inp : TurnInput) (s : RunState) :
    wp (beforeProvider env inp)
      (fun _ t => Quiet s t ∧ Headed s t ∧ t.turn = s.turn + 1 ∧
        (env.enforced = true → s.turn < env.maxTurns ∧ t.trace = s.trace))
      (fun _ t => Quiet s t ∧ Headed s t) s := by
  unfold beforeProvider checkCancelled announceProviderCall
  simp only [wp_bind, wp_ite, wp_throw, wp_pure, wp_modify, wp_get]
  refine ⟨fun _ => ⟨Quiet.refl, Or.inl rfl⟩, fun _ => ?_⟩
  refine (checkTurnLimit_spec env s).mono (fun _ t ht => ?_) (fun _ t ht => ⟨ht.1, Or.inl ht.2.2⟩)
  obtain ⟨ht, hlimit⟩ := ht
  have hcount : Quiet s { t with turn := t.turn + 1 } := ht.1.trans (.of_eq rfl rfl rfl rfl id)
  refine (checkDeadline_spec env inp.now _).mono (fun _ u hu => ?_)
    (fun _ u hu => ⟨hcount.trans hu.1, by simpa only [Headed, ht.2.2] using hu.2⟩)
  obtain ⟨hu, hhead, hturn, henf⟩ := hu
  simp only [Headed, ht.2.2] at hhead
  simp only [ht.2.1] at hturn
  simp only [ht.2.2] at henf
  have hsu := hcount.trans hu
  -- what follows leaves the turn and the trace alone
  refine (send_still env _ u).mono (fun _ v hv => ?_) (fun _ _ h => h.elim)
  refine (maybeTriggerRollingSummary_spec env inp v).mono (fun _ w hw => ?_) (fun _ w hw => ?_)
  · have huw := hv.trans hw
    refine (prepareContext_spec env inp w).mono (fun _ x hx => ?_) (fun _ x hx => ?_)
    · obtain ⟨hq, ht', htr⟩ := huw.trans hx
      exact ⟨hsu.trans hq, by simpa only [Headed, htr] using hhead, ht'.trans hturn,
        fun he => ⟨hlimit he, htr.trans (henf he)⟩⟩
    · obtain ⟨hq, -, htr⟩ := huw.trans hx
      exact ⟨hsu.trans hq, by simpa only [Headed, htr] using hhead⟩
  · obtain ⟨hq, -, htr⟩ := hv.trans hw
    exact ⟨hsu.trans hq, by simpa only [Headed, htr] using hhead⟩

/-! ## The provider call and its cost -/

/-- The ledger of a run under a policy: `amount` is reserved and `settled` is settled. -/
def LedgerAt (env : RunEnv) (amount settled : ℕ) (s : RunState) : Prop :=
  s.budget_ledger = env.policy.map fun p => ⟨p.remaining_budget_microusd, amount, settled⟩

/-- What an iteration records before its provider call. An enforced limit lets it get there only
below the turn limit and before the deadline. -/
def Heads (env : RunEnv) (s : RunState) (head : List RunEvent) : Prop :=
  (head = [] ∨ head = [.deadlinePassed]) ∧
    (env.enforced = true → head = [] ∧ s.turn < env.maxTurns)

/-- The price of tokens is a word. -/
theorem tokenCost_lt (tokens : ℕ) : tokenCost tokens < U64.size :=
  lt_of_le_of_lt (Nat.div_le_self _ _) (Nat.mod_lt _ (by decide))

/-- A reservation is in the ledger, whether the estimate fits or not. -/
theorem reserveEstimate_spec {env : RunEnv} {s : RunState} (hledger : LedgerAt env 0 settled s)
    (cost : ℕ) :
    wp (reserveEstimate cost)
      (fun reservation t => t = { s with budget_ledger := t.budget_ledger } ∧
        ∃ amount ≤ cost, LedgerAt env amount settled t ∧
          reservation.map Prod.snd = env.policy.map fun _ => amount)
      (fun _ _ => False) s := by
  obtain ⟨context, memory, next, turn, accumulated, ledger, events, trace⟩ := s
  unfold LedgerAt at *
  unfold reserveEstimate
  simp only [wp_bind, wp_get] at hledger ⊢
  subst hledger
  cases env.policy with
  | none => exact ⟨rfl, 0, Nat.zero_le _, rfl, rfl⟩
  | some p =>
    simp only [Option.map_some]
    cases hreserve : BudgetLedger.reserve ⟨p.remaining_budget_microusd, 0, settled⟩ cost with
    | ok out =>
      obtain ⟨amount, ledger'⟩ := out
      obtain ⟨rfl, rfl, -⟩ := BudgetLedger.reserve_spec hreserve
      refine ⟨rfl, _, le_rfl, ?_, rfl⟩
      simp only [Nat.zero_add]
    | error e =>
      -- the estimate does not fit, and nothing is reserved
      exact ⟨rfl, 0, Nat.zero_le _, rfl, rfl⟩

/-- What is recorded behind the call of the provider: nothing, or the call after a failed stream. -/
def IsFallback (fallback : List RunEvent) : Prop := fallback = [] ∨ fallback = [.fallbackCall]

/-- The request for a response is recorded as soon as the provider is called. -/
theorem requestProviderResponse_spec (env : RunEnv) (provider_context : Context) (inp : TurnInput)
    (s : RunState) :
    wp (requestProviderResponse env provider_context inp)
      (fun r t => inp.response = .ok r ∧ ∃ fallback, IsFallback fallback ∧
        t = { s with trace := s.trace ++ .providerCall :: fallback })
      (fun _ t => t = s ∨ ∃ fallback, IsFallback fallback ∧
        t = { s with trace := s.trace ++ .providerCall :: fallback }) s := by
  unfold requestProviderResponse record
  simp only [wp_bind, wp_ofExcept, wp_modify, wp_ite]
  refine ⟨fun caps _ => ⟨fun _ => ?_, fun _ => ?_⟩, fun _ _ => Or.inl trivial⟩
  · -- the stream fails
    have hstate : ∃ fallback, IsFallback fallback ∧
        ({ s with trace := s.trace ++ [.providerCall] ++ [.fallbackCall] } : RunState) =
          { s with trace := s.trace ++ .providerCall :: fallback } :=
      ⟨[.fallbackCall], Or.inr rfl, by rw [List.append_assoc]; rfl⟩
    exact ⟨fun r hr => ⟨hr, hstate⟩, fun _ _ => Or.inr hstate⟩
  · exact ⟨fun r hr => ⟨hr, [], Or.inl rfl, rfl⟩, fun _ _ => Or.inr ⟨[], Or.inl rfl, rfl⟩⟩

/-- `t` is `s` after an iteration that failed before a response: the transcript and the stored
messages stand. -/
structure Unanswered (env : RunEnv) (s t : RunState) : Prop where
  context : t.context = s.context
  memory : Synced s → Synced t ∧ t.memory.records = s.memory.records
  trace : t.trace = s.trace ∨ t.trace = s.trace ++ [.deadlinePassed] ∨
    ∃ head fallback, Heads env s head ∧ IsFallback fallback ∧
      t.trace = s.trace ++ (head ++ .providerCall :: fallback)

/-- The part of an iteration up to the response. -/
theorem callProvider_spec {env : RunEnv} {s : RunState} (hledger : LedgerAt env 0 settled s)
    (inp : TurnInput) :
    wp (callProvider env inp)
      (fun out t => inp.response = .ok out.2 ∧ t.context = s.context ∧ t.turn = s.turn + 1 ∧
        (Synced s → Synced t ∧ t.memory.records = s.memory.records) ∧
        (∃ head fallback, Heads env s head ∧ IsFallback fallback ∧
          t.trace = s.trace ++ (head ++ .providerCall :: fallback)) ∧
        ∃ amount, amount < U64.size ∧ LedgerAt env amount settled t ∧
          out.1.map Prod.snd = env.policy.map fun _ => amount)
      (fun _ t => Unanswered env s t) s := by
  unfold callProvider
  simp only [wp_bind, wp_pure]
  refine (beforeProvider_spec env inp s).mono (fun provider_context t ht => ?_)
    (fun _ t ht => ⟨ht.1.context, ht.1.memory, ?_⟩)
  · obtain ⟨hquiet, hhead, hturn, henf⟩ := ht
    obtain ⟨head, hheads, htrace⟩ : ∃ head, Heads env s head ∧ t.trace = s.trace ++ head := by
      rcases hhead with h | h
      · exact ⟨[], ⟨Or.inl rfl, fun he => ⟨rfl, (henf he).1⟩⟩, by rw [h, List.append_nil]⟩
      · refine ⟨[.deadlinePassed], ⟨Or.inr rfl, fun he => ?_⟩, h⟩
        rw [(henf he).2] at h
        simp at h
    have hledger : LedgerAt env 0 settled t := hquiet.ledger.trans hledger
    refine (reserveEstimate_spec hledger _).mono (fun reservation u hu => ?_)
      (fun _ _ h => h.elim)
    obtain ⟨hut, amount, hle, hreserved, hres⟩ := hu
    have hamount : amount < U64.size := lt_of_le_of_lt hle (tokenCost_lt _)
    -- the reservation changes the ledger alone
    have hcontext : u.context = s.context := by rw [hut]; exact hquiet.context
    have hturn : u.turn = s.turn + 1 := by rw [hut]; exact hturn
    have htrace : u.trace = s.trace ++ head := by rw [hut]; exact htrace
    have hmemory : Synced s → Synced u ∧ u.memory.records = s.memory.records := by
      intro hs
      obtain ⟨hsync, hrec⟩ := hquiet.memory hs
      rw [hut]
      exact ⟨⟨hsync.counted, hsync.next⟩, hrec⟩
    have hcalled : ∀ fallback, u.trace ++ .providerCall :: fallback =
        s.trace ++ (head ++ .providerCall :: fallback) :=
      fun fallback => by rw [htrace, List.append_assoc]
    have hsame : ∀ trace, Synced u → Synced { u with trace := trace } :=
      fun _ h => ⟨h.counted, h.next⟩
    refine (requestProviderResponse_spec env provider_context inp u).mono
      (fun r v hv => ?_) (fun _ v hv => ?_)
    · obtain ⟨hr, fallback, hfallback, hv⟩ := hv
      subst hv
      exact ⟨hr, hcontext, hturn, fun hs => ⟨hsame _ (hmemory hs).1, (hmemory hs).2⟩,
        ⟨head, fallback, hheads, hfallback, hcalled fallback⟩, amount, hamount, hreserved, hres⟩
    · rcases hv with rfl | ⟨fallback, hfallback, rfl⟩
      · refine ⟨hcontext, hmemory, ?_⟩
        rcases hheads.1 with rfl | rfl
        · exact Or.inl (by rw [htrace, List.append_nil])
        · exact Or.inr (Or.inl htrace)
      · exact ⟨hcontext, fun hs => ⟨hsame _ (hmemory hs).1, (hmemory hs).2⟩,
          Or.inr (Or.inr ⟨head, fallback, hheads, hfallback, hcalled fallback⟩)⟩
  · rcases ht.2 with h | h
    · exact Or.inl h
    · exact Or.inr (Or.inl h)

/-- A settlement adds the cost to the settled counter, and takes the reservation back. -/
theorem settleCost_spec {env : RunEnv} {p : EffectiveRunPolicy} {amount settled : ℕ} {s : RunState}
    (hp : env.policy = some p) (hledger : LedgerAt env amount settled s)
    (hamount : amount < U64.size) {reservation : Option (BudgetSnapshot × ℕ)}
    (hres : reservation.map Prod.snd = env.policy.map fun _ => amount) (cost : ℕ) :
    wp (settleCost env reservation cost)
      (fun _ t => t.context = s.context ∧ t.turn = s.turn ∧ t.memory = s.memory ∧
        t.next_memory_sequence = s.next_memory_sequence ∧
        t.trace = s.trace ++ [.settled cost] ∧
        LedgerAt env 0 (U64.wrappingAdd settled cost) t)
      (fun _ _ => False) s := by
  obtain ⟨context, memory, next, turn, accumulated, ledger, events, trace⟩ := s
  unfold LedgerAt at *
  rw [hp, Option.map_some] at *
  obtain rfl : ledger = some ⟨p.remaining_budget_microusd, amount, settled⟩ := hledger
  obtain ⟨old_snapshot, rfl⟩ : ∃ old, reservation = some (old, amount) := by
    obtain ⟨⟨old, n⟩, hold, hn⟩ := Option.map_eq_some_iff.mp hres
    exact ⟨old, by rw [hold, ← hn]⟩
  unfold settleCost
  simp only [wp_bind, wp_get, wp_set]
  refine ⟨trivial, trivial, trivial, trivial, trivial, ?_⟩
  -- the whole reservation is taken back
  unfold BudgetLedger.settle BudgetLedger.addSettled BudgetLedger.subReserved
  simp only [U64.wrappingSub_of_le le_rfl hamount, Nat.sub_self]

/-- What an iteration records of its payment. -/
def payment (env : RunEnv) (r : Response) : List RunEvent :=
  if env.policy.isSome then [.settled (turnCostMicrousd r.usage)] else []

/-- `t` is `s` after a provider call that was answered by `r` and paid for. -/
structure Paid (env : RunEnv) (settled : ℕ) (r : Response) (s t : RunState) : Prop where
  context : t.context = s.context
  turn : t.turn = s.turn + 1
  memory : Synced s → Synced t ∧ t.memory.records = s.memory.records
  ledger : LedgerAt env 0 (U64.wrappingAdd settled (turnCostMicrousd r.usage)) t
  trace : ∃ head fallback, Heads env s head ∧ IsFallback fallback ∧
    t.trace = s.trace ++ (head ++ .providerCall :: (fallback ++ payment env r))

/-! ## One iteration -/

/-- Whether an enforced policy has no budget left once `settled` is settled. -/
def budgetEnds (env : RunEnv) (settled : ℕ) : Bool :=
  match env.policy with
  | none => false
  | some p => p.rollout_mode = .enforce ∧ p.remaining_budget_microusd ≤ settled

/-- The budget stop, in terms of what is settled. -/
theorem budgetStops_eq {env : RunEnv} {s : RunState} (hledger : LedgerAt env 0 settled s) :
    budgetStops env s = budgetEnds env settled := by
  unfold budgetStops budgetEnds RunEnv.enforced
  rw [hledger]
  cases env.policy with
  | none => rfl
  | some p =>
    rw [Bool.eq_iff_iff]
    simp only [Option.map_some, Option.any_some, Bool.and_eq_true, BudgetLedger.isExhausted_iff,
      Nat.zero_add, decide_eq_true_eq]
    exact and_comm

/-- How an iteration that was answered by `r` ends, once `settled` is settled: at an exhausted
budget the calls of `r` get no answer, and otherwise each gets one. -/
def TurnEnds (env : RunEnv) (settled : ℕ) (r : Response) (ms : List Message)
    (out : Option Response) : Prop :=
  if budgetEnds env settled then ms = [] ∧ out = some r.final
  else List.Forall₂ IsAnswer r.calls ms ∧ out = if r.calls = [] then some r.final else none

/-- The part of an iteration from the payment on. -/
theorem afterPayment_spec {env : RunEnv} {s : RunState} (hledger : LedgerAt env 0 settled s)
    (inp : TurnInput) (r : Response) :
    wp (do
        let s ← get
        if budgetStops env s then
          commitMessage env r.assistantMessage
          pure (some r.final)
        else
          tellExhausted env
          finishTurn env inp r)
      (fun out t => ∃ ms, Extends env r.calls s t (r.assistantMessage :: ms)
        (r.assistantMessage :: ms) ∧ TurnEnds env settled r ms out)
      (fun _ t => ∃ ms stored, Extends env r.calls s t ms stored) s := by
  simp only [wp_bind, wp_get, wp_ite, wp_pure, budgetStops_eq hledger]
  refine ⟨fun hends => ?_, fun hgoes => ?_⟩
  · -- the budget is used up: the message is committed, and its calls are not run
    refine (commitMessage_spec env r.assistantMessage s).mono (fun _ t ht => ?_)
      (fun _ t ht => ⟨_, _, ht.2.mono (by simp)⟩)
    refine ⟨[], ht.mono (by simp), ?_⟩
    rw [TurnEnds, if_pos hends]
    exact ⟨rfl, rfl⟩
  · have htell : wp (tellExhausted env) (fun _ t => Extends env r.calls s t [] [])
        (fun _ _ => False) s := by
      unfold tellExhausted
      simp only [wp_bind, wp_get, wp_ite, wp_pure]
      exact ⟨fun _ => send_spec env r.calls _ s, fun _ => Extends.refl⟩
    refine htell.mono (fun _ t ht => ?_) (fun _ _ h => h.elim)
    refine (finishTurn_spec env inp r t).mono (fun out u hu => ?_) (fun _ u hu => ?_)
    · obtain ⟨ms, hext, hans, hout⟩ := hu
      refine ⟨ms, ht.trans hext, ?_⟩
      rw [TurnEnds, if_neg hgoes]
      exact ⟨hans, hout⟩
    · obtain ⟨ms, stored, hext⟩ := hu
      exact ⟨_, _, ht.trans hext⟩

/-- What one iteration does, from a state at the head of the loop in which `settled` is settled. -/
theorem runTurn_spec {env : RunEnv} {s : RunState} (hledger : LedgerAt env 0 settled s)
    (inp : TurnInput) :
    wp (runTurn env inp)
      (fun out t => ∃ r u ms, inp.response = .ok r ∧ Paid env settled r s u ∧
        Extends env r.calls u t (r.assistantMessage :: ms) (r.assistantMessage :: ms) ∧
        TurnEnds env (U64.wrappingAdd settled (turnCostMicrousd r.usage)) r ms out)
      (fun _ t => Unanswered env s t ∨
        ∃ r u ms stored, inp.response = .ok r ∧ Paid env settled r s u ∧
          Extends env r.calls u t ms stored) s := by
  unfold runTurn
  rw [wp_bind]
  refine (callProvider_spec hledger inp).mono (fun out t ht => ?_) (fun _ t ht => Or.inl ht)
  obtain ⟨reservation, r⟩ := out
  obtain ⟨hr, hcontext, hturn, hmemory, ⟨head, fallback, hhead, hfallback, htrace⟩, amount,
    hamount, hreserved, hres⟩ := ht
  dsimp only at hr hres ⊢
  cases hp : env.policy with
  | some p =>
    simp only [Option.isSome_some, if_true]
    rw [wp_bind]
    refine (settleCost_spec hp hreserved hamount hres _).mono (fun _ u hu => ?_)
      (fun _ _ h => h.elim)
    obtain ⟨hcontext', hturn', hmemory', hnext', htrace', hledger'⟩ := hu
    have hpaid : Paid env settled r s u := by
      refine ⟨hcontext'.trans hcontext, hturn'.trans hturn, fun hs => ?_, hledger', head, fallback,
        hhead, hfallback, ?_⟩
      · obtain ⟨hsync, hrec⟩ := hmemory hs
        exact ⟨⟨by rw [hmemory']; exact hsync.counted, by rw [hmemory', hnext']; exact hsync.next⟩,
          by rw [hmemory', hrec]⟩
      · simp [htrace', htrace, payment, hp]
    refine (afterPayment_spec hledger' inp r).mono (fun out v hv => ?_) (fun _ v hv => ?_)
    · obtain ⟨ms, hext, hends⟩ := hv
      exact ⟨r, u, ms, hr, hpaid, hext, hends⟩
    · obtain ⟨ms, stored, hext⟩ := hv
      exact Or.inr ⟨r, u, ms, stored, hr, hpaid, hext⟩
  | none =>
    simp only [Option.isSome_none, Bool.false_eq_true, if_false]
    unfold checkCostBudget
    simp only [wp_bind, wp_get, wp_set, wp_ofExcept]
    -- the accumulated cost is not compared
    have hpaid : ∀ cost, Paid env settled r s { t with accumulated_cost := cost } := by
      intro cost
      refine ⟨hcontext, hturn, fun hs => ?_, ?_, head, fallback, hhead, hfallback, ?_⟩
      · obtain ⟨hsync, hrec⟩ := hmemory hs
        exact ⟨⟨hsync.counted, hsync.next⟩, hrec⟩
      · simpa only [LedgerAt, hp, Option.map_none] using hreserved
      · simp [htrace, payment, hp]
    have hgoes : ∀ n, ¬budgetEnds env n = true := by simp [budgetEnds, hp]
    refine ⟨fun _ _ => ?_, fun _ _ => Or.inr ⟨r, _, [], [], hr, hpaid _, Extends.refl⟩⟩
    refine (finishTurn_spec env inp r _).mono (fun out v hv => ?_) (fun _ v hv => ?_)
    · obtain ⟨ms, hext, hans, hout⟩ := hv
      refine ⟨r, _, ms, hr, hpaid _, hext, ?_⟩
      rw [TurnEnds, if_neg (hgoes _)]
      exact ⟨hans, hout⟩
    · obtain ⟨ms, stored, hext⟩ := hv
      exact Or.inr ⟨r, _, ms, stored, hr, hpaid _, hext⟩

/-! ## The start of a run -/

/-- Messages are stored one after another, up to the first failure. -/
theorem persistAll_spec (env : RunEnv) : ∀ (ms : List Message) (s : RunState),
    wp (persistAll env ms) (fun _ t => Extends env [] s t [] ms)
      (fun e t => e.ofMemory = true ∧ ∃ k, Extends env [] s t [] (ms.take k)) s
  | [], s => by
    simp only [persistAll, wp_pure]
    exact Extends.refl
  | m :: ms, s => by
    simp only [persistAll, wp_bind]
    refine (persistMessageIfNeeded_spec env m s).mono (fun _ t ht => ?_)
      (fun _ t ht => ⟨ht.1, 0, ht.2⟩)
    refine (persistAll_spec env ms t).mono (fun _ u hu => ht.trans hu) (fun _ u hu => ?_)
    obtain ⟨he, k, hu⟩ := hu
    exact ⟨he, k + 1, ht.trans hu⟩

/-- The next sequence number of a memory that counts its messages. -/
theorem nextMemorySequence_spec (env : RunEnv) (s : RunState) :
    wp (nextMemorySequence env)
      (fun n t => t = { s with memory := t.memory } ∧ (env.remembers = true → Counted s.memory →
        t = s ∧ n = s.memory.records.length + 1))
      (fun _ t => t = { s with memory := t.memory } ∧ (env.remembers = true → ¬Counted s.memory))
      s := by
  by_cases hc : env.remembers = true ∧ Counted s.memory
  · -- the last record's sequence number is how many there are
    obtain ⟨hrem, hc⟩ := hc
    obtain ⟨context, ⟨records, summary_state, faults⟩, next, turn, cost, ledger, events, trace⟩ := s
    obtain ⟨rfl, hlast, hbound⟩ := hc
    unfold wp nextMemorySequence
    rw [if_pos hrem]
    rcases records.eq_nil_or_concat with rfl | ⟨rest, r, rfl⟩
    · exact ⟨rfl, fun _ _ => ⟨rfl, rfl⟩⟩
    · rw [List.concat_eq_append] at *
      have hread : SessionMemory.recallLast (env.session_id.getD "")
          ⟨rest ++ [r], summary_state, []⟩ = .ok r ⟨rest ++ [r], summary_state, []⟩ := by
        unfold SessionMemory.recallLast SessionMemory.nextFault
        simp [bind, EStateM.bind, get, getThe, MonadStateOf.get, EStateM.get, pure, EStateM.pure]
      simp only [hread]
      refine ⟨trivial, fun _ _ => ⟨trivial, ?_⟩⟩
      have hseq : r.1 = (rest ++ [r]).length := hlast r (by simp)
      rw [hseq, U64.saturatingAdd_of_le]
      have : (2 : ℕ)^63 < U64.max := by decide
      simp only at hbound
      omega
  · unfold wp nextMemorySequence
    split_ifs with hrem
    · have hnot : ¬Counted s.memory := fun h => hc ⟨hrem, h⟩
      cases SessionMemory.recallLast (env.session_id.getD "") s.memory with
      | ok record memory => exact ⟨rfl, fun _ h => absurd h hnot⟩
      | error e memory =>
        cases e with
        | notFound id => exact ⟨rfl, fun _ h => absurd h hnot⟩
        | _ => exact ⟨rfl, fun _ => hnot⟩
    · exact ⟨rfl, fun h => absurd h hrem⟩

/-- `t` is the state of a run that was started: the system prompt is in front, and nothing has
happened yet. -/
structure Started (env : RunEnv) (context : Context) (t : RunState) : Prop where
  messages : t.context.messages = withSystemPrompt env context.messages
  turn : t.turn = 0
  trace : t.trace = []

/-- What comes before the loop: of a memory that counts its messages, it is taken that they are the
first ones of the transcript, and the others are stored. -/
theorem startRun_spec (env : RunEnv) (context : Context) (memory : SessionMemory) :
    wp (startRun env)
      (fun _ t => Started env context t ∧ LedgerAt env 0 0 t ∧
        (env.remembers = true → Counted memory → Synced t ∧ t.memory.records.map Prod.snd =
          memory.records.map Prod.snd ++
            (t.context.messages.drop memory.records.length).map messageForMemory))
      (fun e t => Started env context t ∧
        (env.remembers = true → Counted memory → Counted t.memory ∧
          ∃ k, t.memory.records.map Prod.snd = memory.records.map Prod.snd ++
              ((t.context.messages.drop memory.records.length).take k).map messageForMemory ∧
            (e.ofMemory = true ∨ t.context.messages.length ≤ memory.records.length + k)))
      { context := context, memory := memory } := by
  unfold startRun persistContextTailIfNeeded
  simp only [wp_bind, wp_modify, wp_get]
  refine (nextMemorySequence_spec env _).mono (fun n t ht => ?_) (fun _ t ht => ?_)
  · obtain ⟨ht, hnext⟩ := ht
    -- the state from which the tail is stored
    have hstart : Started env context { t with next_memory_sequence := n } :=
      ⟨by rw [ht], by rw [ht], by rw [ht]⟩
    have hsync : env.remembers = true → Counted memory →
        Synced { t with next_memory_sequence := n } ∧ t.memory = memory ∧
          n = memory.records.length + 1 := by
      intro hrem hc
      obtain ⟨rfl, rfl⟩ := hnext hrem hc
      exact ⟨⟨hc, rfl⟩, rfl, rfl⟩
    have hkept : ∀ u stored, Extends env [] { t with next_memory_sequence := n } u [] stored →
        Started env context u := by
      intro u stored hu
      refine ⟨?_, hu.turn.trans hstart.turn, hu.trace_eq.trans hstart.trace⟩
      rw [hu.context]
      simpa only [List.append_nil] using hstart.messages
    rw [wp_ite]
    refine ⟨fun hrem => ?_, fun hrem => ?_⟩
    · refine (persistAll_spec env _ _).mono (fun _ u hu => ?_) (fun _ u hu => ?_)
      · have hstored : Counted memory → Synced u ∧ u.memory.records.map Prod.snd =
            memory.records.map Prod.snd ++
              (u.context.messages.drop memory.records.length).map messageForMemory := by
          intro hc
          obtain ⟨hsync, hmem, hn⟩ := hsync hrem hc
          obtain ⟨hsync', hrec⟩ := hu.memory hrem hsync
          refine ⟨hsync', ?_⟩
          rw [hrec, hu.context, hmem, hn]
          simp only [List.append_nil, Nat.add_sub_cancel]
        rw [wp_ofExcept]
        refine ⟨fun _ _ => ⟨⟨(hkept u _ hu).messages, (hkept u _ hu).turn, (hkept u _ hu).trace⟩,
          rfl, fun _ hc => ?_⟩, fun _ _ => ⟨hkept u _ hu, fun _ hc => ?_⟩⟩
        · obtain ⟨hsync', hrec⟩ := hstored hc
          exact ⟨⟨hsync'.counted, hsync'.next⟩, hrec⟩
        · obtain ⟨hsync', hrec⟩ := hstored hc
          refine ⟨hsync'.counted, _, by rw [List.take_length]; exact hrec, Or.inr ?_⟩
          rw [List.length_drop]
          omega
      · obtain ⟨he, k, hu⟩ := hu
        refine ⟨hkept u _ hu, fun _ hc => ?_⟩
        obtain ⟨hsync, hmem, hn⟩ := hsync hrem hc
        obtain ⟨hsync', hrec⟩ := hu.memory hrem hsync
        refine ⟨hsync'.counted, k, ?_, Or.inl he⟩
        rw [hrec, hu.context, hmem, hn]
        simp only [List.append_nil, Nat.add_sub_cancel]
    · simp only [wp_pure, wp_ofExcept]
      exact ⟨fun _ _ => ⟨⟨hstart.messages, hstart.turn, hstart.trace⟩, rfl,
        fun h => absurd h hrem⟩, fun _ _ => ⟨hstart, fun h => absurd h hrem⟩⟩
  · obtain ⟨ht, hnot⟩ := ht
    exact ⟨⟨by rw [ht], by rw [ht], by rw [ht]⟩, fun hrem hc => absurd hc (hnot hrem)⟩

/-! ## A run -/

/-- An iteration that was answered: what it leaves behind. -/
structure Answers (env : RunEnv) (settled : ℕ) (s : RunState) (inp : TurnInput) (r : Response)
    (ms : List Message) (out : Option Response) (t : RunState) : Prop where
  response : inp.response = .ok r
  paid : ∃ u, Paid env settled r s u ∧
    Extends env r.calls u t (r.assistantMessage :: ms) (r.assistantMessage :: ms)
  ends : TurnEnds env (U64.wrappingAdd settled (turnCostMicrousd r.usage)) r ms out

/-- An iteration that failed: what it leaves behind. -/
def Fails (env : RunEnv) (settled : ℕ) (s : RunState) (inp : TurnInput) (t : RunState) : Prop :=
  Unanswered env s t ∨ ∃ r u ms stored, inp.response = .ok r ∧ Paid env settled r s u ∧
    Extends env r.calls u t ms stored

/-- All that one step of a run can do. -/
theorem sessionStep_cases {env : RunEnv} {st st' : SessionState} {inp : TurnInput}
    (hstep : sessionStep env st inp = some st')
    (hledger : ∀ s, st = .running s → ∃ settled, LedgerAt env 0 settled s) :
    ∃ s settled, st = .running s ∧ LedgerAt env 0 settled s ∧
      ((∃ r ms t, Answers env settled s inp r ms none t ∧ st' = .running t) ∨
        (∃ r ms out t, Answers env settled s inp r ms (some out) t ∧ st' = .done (.ok out) t) ∨
        ∃ e t, Fails env settled s inp t ∧ st' = .done (.error e) t) := by
  cases st with
  | done result s => simp [sessionStep] at hstep
  | running s =>
    obtain ⟨settled, hledger⟩ := hledger s rfl
    refine ⟨s, settled, rfl, hledger, ?_⟩
    have hspec := runTurn_spec hledger inp
    simp only [sessionStep, Option.some.injEq] at hstep
    subst hstep
    cases hrun : runTurn env inp s with
    | ok out t =>
      obtain ⟨r, u, ms, hr, hpaid, hext, hends⟩ := hspec.ok hrun
      cases out with
      | none => exact Or.inl ⟨r, ms, t, ⟨hr, ⟨u, hpaid, hext⟩, hends⟩, rfl⟩
      | some out => exact Or.inr (Or.inl ⟨r, ms, out, t, ⟨hr, ⟨u, hpaid, hext⟩, hends⟩, rfl⟩)
    | error e t => exact Or.inr (Or.inr ⟨e, t, hspec.error hrun, rfl⟩)

/-- How a run starts. -/
theorem startSession_cases (env : RunEnv) (context : Context) (memory : SessionMemory) :
    (∃ t, startSession env context memory = .running t ∧ Started env context t ∧
        LedgerAt env 0 0 t ∧
        (env.remembers = true → Counted memory → Synced t ∧ t.memory.records.map Prod.snd =
          memory.records.map Prod.snd ++
            (t.context.messages.drop memory.records.length).map messageForMemory)) ∨
      ∃ e t, startSession env context memory = .done (.error e) t ∧ Started env context t ∧
        (env.remembers = true → Counted memory → Counted t.memory ∧
          ∃ k, t.memory.records.map Prod.snd = memory.records.map Prod.snd ++
              ((t.context.messages.drop memory.records.length).take k).map messageForMemory ∧
            (e.ofMemory = true ∨ t.context.messages.length ≤ memory.records.length + k)) := by
  have hspec := startRun_spec env context memory
  unfold startSession
  cases hrun : startRun env { context := context, memory := memory } with
  | ok a t => exact Or.inl ⟨t, rfl, hspec.ok hrun⟩
  | error e t => exact Or.inr ⟨e, t, rfl, hspec.error hrun⟩

/-- A run on given inputs reaches the state that it computes. -/
theorem reached_of_exec {env : RunEnv} {guard : SessionState → TurnInput → Prop}
    [∀ st inp, Decidable (guard st inp)] {inputs : List TurnInput} {st : SessionState}
    (h : Lts.exec guard (sessionStep env) (startSession env context memory) inputs = some st) :
    (sessionSystem env context memory).ReachWithin guard st :=
  Lts.reachWithin_exec (.init rfl) h

/-- A run on given inputs that succeeds. -/
theorem success_of_exec {env : RunEnv} {guard : SessionState → TurnInput → Prop}
    [∀ st inp, Decidable (guard st inp)] {inputs : List TurnInput} {r : Response} {s : RunState}
    (h : (Lts.exec guard (sessionStep env) (startSession env context memory) inputs).bind
      SessionState.success = some (r, s)) :
    (sessionSystem env context memory).ReachWithin guard (.done (.ok r) s) := by
  obtain ⟨st, hst, hdone⟩ := Option.bind_eq_some_iff.mp h
  have hreach := reached_of_exec hst
  unfold SessionState.success at hdone
  split at hdone
  · cases hdone
    exact hreach
  · simp at hdone

/-- What holds at the start of a run and is kept by its iterations holds however far it goes. -/
theorem runSessionInternal_invariant {env : RunEnv} {P : SessionState → Prop}
    (h0 : P (startSession env context memory))
    (hs : ∀ st inp st', P st → sessionStep env st inp = some st' → P st') (inputs : List TurnInput)
    : P (runSessionInternal env context memory inputs) := by
  unfold runSessionInternal
  induction inputs using List.reverseRecOn with
  | nil => exact h0
  | append_singleton inputs inp ih =>
    rw [List.foldl_append, List.foldl_cons, List.foldl_nil]
    generalize inputs.foldl (fun st inp => (sessionStep env st inp).getD st)
      (startSession env context memory) = st at ih
    cases hstep : sessionStep env st inp with
    | none => exact ih
    | some st' => exact hs st inp st' ih hstep

/-- The ledger at the head of every iteration. -/
def Ledgered (env : RunEnv) (st : SessionState) : Prop :=
  ∀ s, st = .running s → ∃ settled, LedgerAt env 0 settled s

/-- The ledger of a run is as the loop needs it, at its start and after each step. -/
theorem ledgered_start (env : RunEnv) (context : Context) (memory : SessionMemory) :
    Ledgered env (startSession env context memory) := by
  intro s hs
  rcases startSession_cases env context memory with ⟨t, ht, -, hledger, -⟩ | ⟨e, t, ht, -⟩
  · rw [ht, SessionState.running.injEq] at hs
    subst hs
    exact ⟨0, hledger⟩
  · simp [ht] at hs

theorem ledgered_step {env : RunEnv} {st st' : SessionState} {inp : TurnInput}
    (hstep : sessionStep env st inp = some st') (h : Ledgered env st) : Ledgered env st' := by
  obtain ⟨s, settled, rfl, -, hcases⟩ := sessionStep_cases hstep h
  intro s' hs'
  rcases hcases with ⟨r, ms, t, hans, rfl⟩ | ⟨r, ms, out, t, -, rfl⟩ | ⟨e, t, -, rfl⟩
  · obtain ⟨u, hpaid, hext⟩ := hans.paid
    rw [SessionState.running.injEq] at hs'
    subst hs'
    exact ⟨_, hext.ledger.trans hpaid.ledger⟩
  · simp at hs'
  · simp at hs'

end Oxydra
