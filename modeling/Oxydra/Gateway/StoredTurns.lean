import Oxydra.Gateway.TurnRunner
import Oxydra.Runtime.SessionSpec

/-!
# The transcript and the memory of a session

A turn stores its messages in the session's memory as it goes, from a cursor that counts what is
already stored, and `run_turn` rolls back the transcript alone when the turn fails. `StoredOnce`
says what should hold after any sequence of turns: what the turns of a session left to store is
stored once and in order, and after a turn that succeeded the memory holds the transcript. The
memory holds messages without the bytes of their attachments, and the transcript drops the
attachments of earlier turns, so both are compared by what else a message says (`bare`).

`turns_stored` says when the cursor is right: every turn starts with as many stored messages as the
transcript has. After a turn that failed it is not, and the next turn's messages are taken to be
stored when they are not (`rollback_loses_message`).
-/

namespace Oxydra

open Function List Lts

/-! ## What a run stores -/

/-- What a run has stored beyond `old`, when it was started on the messages `started`: their tail,
and then each message that it added. A run that failed has stored the tail at least, unless it was
the memory that failed. -/
def Recorded (old started : List Message) : SessionState → Prop
  | .running s => Synced s ∧ ∃ added, s.context.messages = started ++ added ∧
      s.memory.records.map Prod.snd =
        old ++ (started.drop old.length ++ added).map messageForMemory
  | .done (.ok _) s => Counted s.memory ∧ ∃ added, s.context.messages = started ++ added ∧
      s.memory.records.map Prod.snd =
        old ++ (started.drop old.length ++ added).map messageForMemory
  | .done (.error e) s => Counted s.memory ∧ (∃ added, s.context.messages = started ++ added) ∧
      ∃ rest, s.memory.records.map Prod.snd = old ++ rest ∧
        (e.ofMemory = true ∨ ∃ more, rest = (started.drop old.length).map messageForMemory ++ more)

/-- How a run starts. -/
theorem recorded_start {env : RunEnv} (hrem : env.remembers = true) (context : Context)
    {memory : SessionMemory} (hc : Counted memory) :
    Recorded (memory.records.map Prod.snd) (withSystemPrompt env context.messages)
      (startSession env context memory) := by
  rcases startSession_cases env context memory with
    ⟨t, ht, hstart, -, hmem⟩ | ⟨e, t, ht, hstart, hmem⟩
  · obtain ⟨hsync, hrec⟩ := hmem hrem hc
    rw [ht]
    refine ⟨hsync, [], ?_, ?_⟩
    · rw [append_nil]
      exact hstart.messages
    · rw [append_nil, length_map, ← hstart.messages]
      exact hrec
  · obtain ⟨hcounted, k, hrec, hend⟩ := hmem hrem hc
    rw [hstart.messages] at hrec hend
    rw [ht]
    refine ⟨hcounted, ⟨[], ?_⟩, _, hrec, hend.imp_right fun hlen => ⟨[], ?_⟩⟩
    · rw [append_nil]
      exact hstart.messages
    · -- all that was to be stored was stored
      rw [append_nil, length_map, take_of_length_le]
      rw [length_drop]
      omega

/-- One iteration adds to the transcript and to the memory alike, unless it fails. -/
theorem recorded_step {env : RunEnv} (hrem : env.remembers = true) {old started : List Message}
    {st st' : SessionState} {inp : TurnInput} (hstep : sessionStep env st inp = some st')
    (hledger : Ledgered env st) (h : Recorded old started st) : Recorded old started st' := by
  obtain ⟨s, settled, rfl, -, hcases⟩ := sessionStep_cases hstep hledger
  obtain ⟨hsync, added, hcontext, hrec⟩ := h
  -- what an iteration that was answered adds
  have hanswers : ∀ {r ms out t}, Answers env settled s inp r ms out t → Synced t ∧
      ∃ added, t.context.messages = started ++ added ∧ t.memory.records.map Prod.snd =
        old ++ (started.drop old.length ++ added).map messageForMemory := by
    intro r ms out t hans
    obtain ⟨u, hpaid, hext⟩ := hans.paid
    obtain ⟨hsync', hrec'⟩ := hpaid.memory hsync
    obtain ⟨hsync'', hrec''⟩ := hext.memory hrem hsync'
    refine ⟨hsync'', added ++ r.assistantMessage :: ms, ?_, ?_⟩
    · rw [hext.context, hpaid.context, ← append_assoc, ← hcontext]
    · rw [hrec'', hrec', hrec]
      simp only [map_append, append_assoc]
  rcases hcases with ⟨r, ms, t, hans, rfl⟩ | ⟨r, ms, out, t, hans, rfl⟩ | ⟨e, t, hfails, rfl⟩
  · exact hanswers hans
  · obtain ⟨hsync', hrec'⟩ := hanswers hans
    exact ⟨hsync'.counted, hrec'⟩
  · rcases hfails with hun | ⟨r, u, ms, stored, -, hpaid, hext⟩
    · obtain ⟨hsync', hrec'⟩ := hun.memory hsync
      refine ⟨hsync'.counted, ⟨added, by rw [hun.context, hcontext]⟩,
        (started.drop old.length ++ added).map messageForMemory, ?_,
        Or.inr ⟨added.map messageForMemory, ?_⟩⟩
      · rw [hrec', hrec]
      · rw [map_append]
    · obtain ⟨hsync', hrec'⟩ := hpaid.memory hsync
      obtain ⟨hsync'', hrec''⟩ := hext.memory hrem hsync'
      refine ⟨hsync''.counted, ⟨added ++ ms, ?_⟩,
        (started.drop old.length ++ added).map messageForMemory ++ stored.map messageForMemory,
        ?_, Or.inr ⟨added.map messageForMemory ++ stored.map messageForMemory, ?_⟩⟩
      · rw [hext.context, hpaid.context, ← append_assoc, ← hcontext]
      · rw [hrec'', hrec', hrec, append_assoc]
      · rw [map_append, append_assoc]

/-- What a whole run stores. -/
theorem recorded_run {env : RunEnv} (hrem : env.remembers = true) (context : Context)
    {memory : SessionMemory} (hc : Counted memory) (inputs : List TurnInput) :
    Recorded (memory.records.map Prod.snd) (withSystemPrompt env context.messages)
      (runSessionInternal env context memory inputs) := by
  have hinv := runSessionInternal_invariant
    (P := fun st => Ledgered env st ∧ Recorded (memory.records.map Prod.snd)
      (withSystemPrompt env context.messages) st)
    ⟨ledgered_start env context memory, recorded_start hrem context hc⟩
    (fun st inp st' h hstep =>
      ⟨ledgered_step hstep h.1, recorded_step hrem hstep h.1 h.2⟩) inputs
  exact hinv.2

/-! ## The turns of the sessions -/

/-- What a message says, apart from its attachments. -/
def bare (m : Message) : Message := { m with attachments := [] }

/-- What the turn runner does: a user's turn, or the eviction of a session's context. -/
inductive RunnerLabel where
  | turn (req : TurnRequest)
  | dropContext (session_id : String)

/-- The runner's state, with what was left to store: for each session the messages that are due to
be in its memory, and whether its last turn succeeded. -/
structure TurnHistory where
  state : RunnerState := {}
  due : String → List Message := fun _ => []
  succeeded : String → Bool := fun _ => false

namespace TurnRunner

variable (runner : TurnRunner)

/-- Whether a turn's policy passes its checks, so that the turn is run. -/
def accepts (req : TurnRequest) : Bool :=
  match runner.turnPolicy req with
  | some (.ok _) => true
  | _ => false

/-- What a turn leaves to store: the user's message, and when it succeeds the messages that it
appended. A turn that fails because the memory does leaves nothing. -/
def dueOf (st st' : RunnerState) (req : TurnRequest) : Except RuntimeError Response → List Message
  | .ok _ => req.input.message :: (st'.transcript req.session_id).drop
      (withSystemPrompt (runner.turnEnv st req none) (runner.turnMessages st req)).length
  | .error e => if e.ofMemory then [] else [req.input.message]

/-- One step, with its history. A turn that is not accepted leaves the history alone. -/
def historyStep (h : TurnHistory) : RunnerLabel → Option TurnHistory
  | .turn req =>
    match runner.runTurn h.state req with
    | none => none
    | some (result, st') =>
      if runner.accepts req then
        some
          { state := st'
            due := update h.due req.session_id
              (h.due req.session_id ++ runner.dueOf h.state st' req result)
            succeeded := update h.succeeded req.session_id result.toBool }
      else some { h with state := st' }
  | .dropContext session_id =>
    some
      { h with
        state := TurnRunner.dropSessionContext h.state session_id
        succeeded := update h.succeeded session_id false }

/-- All sequences of turns, from sessions that are new. -/
def historySystem : System TurnHistory RunnerLabel :=
  ofStep (fun h => h = {}) runner.historyStep

end TurnRunner

/-- What is due is stored once and in order, behind the system prompt if there is one, and before
what the last turn stored of its own when it failed; after a turn that succeeded, the memory holds
the transcript. -/
structure StoredOnce (h : TurnHistory) (session_id : String) : Prop where
  once : ∃ front back, (h.state.stored session_id).map bare =
      front ++ (h.due session_id).map bare ++ back ∧
    (front = [] ∨ ∃ m, front = [m] ∧ m.role = .system) ∧
    (h.succeeded session_id = true → back = [])
  agrees : h.succeeded session_id = true →
    (h.state.stored session_id).map bare = (h.state.transcript session_id).map bare

/-- The cursor is right when a turn starts: as many messages are stored as the transcript has. -/
def CursorRight (h : TurnHistory) : RunnerLabel → Prop
  | .turn req =>
    (h.state.stored req.session_id).length = (h.state.transcript req.session_id).length
  | .dropContext _ => True

/-! ## What a turn keeps -/

/-- The invariant of one session: its memory counts its messages, its transcript has the system
prompt, and when the cursor is right the memory holds the transcript. -/
structure Kept (prompt : Option String) (memory : SessionMemory) (transcript due : List Message)
    (succeeded : Bool) : Prop where
  counted : Counted memory
  prompted : prompt.isSome = true → transcript ≠ [] → ∃ m ∈ transcript, m.role = .system
  agrees : memory.records.length = transcript.length →
    (memory.records.map Prod.snd).map bare = transcript.map bare
  once : ∃ front back, (memory.records.map Prod.snd).map bare = front ++ due.map bare ++ back ∧
    (front = [] ∨ ∃ m, front = [m] ∧ m.role = .system) ∧
    (memory.records.length = transcript.length → back = [])
  level : succeeded = true → memory.records.length = transcript.length

theorem map_bare_messageForMemory (ms : List Message) :
    (ms.map messageForMemory).map bare = ms.map bare := by
  rw [map_map]
  rfl

theorem map_bare_stripAttachments (ms : List Message) :
    (stripAttachments ms).map bare = ms.map bare := by
  unfold stripAttachments
  rw [map_map]
  refine map_congr_left fun m _ => ?_
  rw [Function.comp_apply]
  split_ifs <;> rfl

theorem length_stripAttachments (ms : List Message) :
    (stripAttachments ms).length = ms.length := by
  rw [stripAttachments, length_map]

/-- The roles stand when attachments are stripped. -/
theorem exists_system_stripAttachments {ms : List Message} :
    (∃ m ∈ stripAttachments ms, m.role = .system) ↔ ∃ m ∈ ms, m.role = .system := by
  have hrole : ∀ m : Message,
      (if m.role = .user then { m with attachments := [] } else m).role = m.role := by
    intro m
    split_ifs <;> rfl
  unfold stripAttachments
  constructor
  · rintro ⟨m, hm, hsys⟩
    obtain ⟨m', hm', rfl⟩ := mem_map.mp hm
    exact ⟨m', hm', (hrole m') ▸ hsys⟩
  · rintro ⟨m, hm, hsys⟩
    exact ⟨_, mem_map_of_mem hm, (hrole m).trans hsys⟩

/-- A turn is started on the messages before it and the user's, with the system prompt in front when
there is nothing before it. -/
theorem started_cases {env : RunEnv} {prepared : List Message} {u : Message}
    (hprompted : env.rt.system_prompt.isSome = true → prepared ≠ [] →
      ∃ m ∈ prepared, m.role = .system) :
    ∃ front, withSystemPrompt env (prepared ++ [u]) = prepared ++ (front ++ [u]) ∧
      (front = [] ∨ prepared = [] ∧ ∃ m, front = [m] ∧ m.role = .system) ∧
      (env.rt.system_prompt.isSome = true →
        ∃ m ∈ prepared ++ (front ++ [u]), m.role = .system) := by
  unfold withSystemPrompt
  cases hp : env.rt.system_prompt with
  | none => exact ⟨[], rfl, Or.inl rfl, by simp⟩
  | some prompt =>
    simp only [hp, Option.isSome_some, true_implies] at hprompted ⊢
    split_ifs with hany
    · refine ⟨[], rfl, Or.inl rfl, ?_⟩
      simpa using hany
    · have hnil : prepared = [] := by
        by_contra hne
        obtain ⟨m, hm, hsys⟩ := hprompted hne
        refine hany (any_eq_true.mpr ⟨m, mem_append_left _ hm, ?_⟩)
        simpa using hsys
      subst hnil
      exact ⟨[_], rfl, Or.inr ⟨rfl, _, rfl, rfl⟩, _, mem_cons_self, rfl⟩

section

variable {env : RunEnv} {memory memory' : SessionMemory} {transcript due : List Message}
  {succeeded : Bool} {u : Message}

/-- The transcript that a turn starts from has the system prompt as well. -/
theorem Kept.prompted_strip {prompt : Option String}
    (h : Kept prompt memory transcript due succeeded) (hp : prompt.isSome = true)
    (hne : stripAttachments transcript ≠ []) :
    ∃ m ∈ stripAttachments transcript, m.role = .system := by
  refine exists_system_stripAttachments.mpr (h.prompted hp fun hnil => hne ?_)
  rw [hnil]
  rfl

/-- What is due stays in one piece when a turn stores `front`, the user's message, and `more`. -/
theorem Kept.once_append (h : Kept env.rt.system_prompt memory transcript due succeeded)
    (hcursor : memory.records.length = transcript.length) {front : List Message}
    (more : List Message)
    (hfront : front = [] ∨ stripAttachments transcript = [] ∧ ∃ m, front = [m] ∧ m.role = .system) :
    ∃ front', (memory.records.map Prod.snd ++ (front ++ u :: more)).map bare =
        front' ++ (due ++ u :: more).map bare ∧
      (front' = [] ∨ ∃ m, front' = [m] ∧ m.role = .system) := by
  obtain ⟨front₀, back, honce, hfront₀, hback⟩ := h.once
  obtain rfl := hback hcursor
  rw [append_nil] at honce
  rcases hfront with rfl | ⟨hnil, m, rfl, hsys⟩
  · exact ⟨front₀, by simp [honce], hfront₀⟩
  · -- nothing was stored before the system prompt
    have hlen : transcript.length = 0 := by rw [← length_stripAttachments, hnil, length_nil]
    have hrecords : memory.records = [] := length_eq_zero_iff.mp (hcursor.trans hlen)
    rw [hrecords] at honce ⊢
    have hnil' : front₀ = [] ∧ due.map bare = [] := by simpa using honce.symm
    refine ⟨[bare m], ?_, Or.inr ⟨_, rfl, hsys⟩⟩
    simp [hnil'.2]

/-- A dropped context leaves the memory, and no transcript. -/
theorem Kept.dropped {prompt : Option String} (h : Kept prompt memory transcript due succeeded) :
    Kept prompt memory [] due false := by
  obtain ⟨front, back, honce, hfront, -⟩ := h.once
  refine ⟨h.counted, fun _ hne => absurd rfl hne, fun hlen => ?_, ?_, by simp⟩
  · rw [length_eq_zero_iff.mp hlen]
    rfl
  · refine ⟨front, back, honce, hfront, fun hlen => ?_⟩
    rw [length_eq_zero_iff.mp hlen] at honce
    have hnil : front = [] ∧ due = [] ∧ back = [] := by simpa using honce.symm
    exact hnil.2.2

variable (env)

/-- A turn that succeeds keeps the invariant. -/
theorem Kept.turn_ok (h : Kept env.rt.system_prompt memory transcript due succeeded)
    (hcursor : memory.records.length = transcript.length) {r : Response} {s : RunState}
    (hrec : Recorded (memory.records.map Prod.snd)
      (withSystemPrompt env (stripAttachments transcript ++ [u])) (.done (.ok r) s)) :
    Kept env.rt.system_prompt s.memory s.context.messages
      (due ++ u :: s.context.messages.drop
        (withSystemPrompt env (stripAttachments transcript ++ [u])).length) true := by
  obtain ⟨front, hstarted, hfront, hsys⟩ := started_cases (u := u) h.prompted_strip
  rw [hstarted] at hrec ⊢
  obtain ⟨hcounted, added, hmessages, hstored⟩ := hrec
  have hbefore : (memory.records.map Prod.snd).length = (stripAttachments transcript).length := by
    rw [length_map, hcursor, length_stripAttachments]
  rw [hbefore, drop_left] at hstored
  -- the memory holds what it held, and then what the turn added
  have hbare : (s.memory.records.map Prod.snd).map bare =
      (memory.records.map Prod.snd ++ (front ++ u :: added)).map bare := by
    rw [hstored, map_append, map_bare_messageForMemory, ← map_append, append_assoc]
    rfl
  have hagrees : (s.memory.records.map Prod.snd).map bare = s.context.messages.map bare := by
    rw [hbare, hmessages, map_append, h.agrees hcursor, ← map_bare_stripAttachments,
      ← map_append]
    simp
  have hlevel : s.memory.records.length = s.context.messages.length := by
    simpa using congrArg List.length hagrees
  have hadded : s.context.messages.drop
      (stripAttachments transcript ++ (front ++ [u])).length = added := by
    rw [hmessages, drop_left]
  rw [hadded]
  refine ⟨hcounted, fun hp _ => ?_, fun _ => hagrees, ?_, fun _ => hlevel⟩
  · obtain ⟨m, hm, hrole⟩ := hsys hp
    exact ⟨m, by rw [hmessages]; exact mem_append_left _ hm, hrole⟩
  · obtain ⟨front', honce, hfront'⟩ := h.once_append (u := u) hcursor added hfront
    exact ⟨front', [], by rw [hbare, honce, append_nil], hfront', fun _ => rfl⟩

/-- A turn that fails keeps the invariant: the cursor is right after it only when it has stored
nothing. -/
theorem Kept.turn_error (h : Kept env.rt.system_prompt memory transcript due succeeded)
    (hcursor : memory.records.length = transcript.length) {e : RuntimeError} {s : RunState}
    (hrec : Recorded (memory.records.map Prod.snd)
      (withSystemPrompt env (stripAttachments transcript ++ [u])) (.done (.error e) s)) :
    Kept env.rt.system_prompt s.memory (s.context.messages.take transcript.length)
      (due ++ if e.ofMemory then [] else [u]) false := by
  obtain ⟨front, hstarted, hfront, -⟩ := started_cases (u := u) h.prompted_strip
  rw [hstarted] at hrec
  obtain ⟨hcounted, ⟨added, hmessages⟩, rest, hstored, hrest⟩ := hrec
  have hbefore : (memory.records.map Prod.snd).length = (stripAttachments transcript).length := by
    rw [length_map, hcursor, length_stripAttachments]
  rw [hbefore, drop_left] at hrest
  -- the rollback leaves the messages from before the turn
  have htake : s.context.messages.take transcript.length = stripAttachments transcript := by
    rw [hmessages, append_assoc, ← length_stripAttachments transcript, take_left]
  have hlen : s.memory.records.length = memory.records.length + rest.length := by
    simpa using congrArg List.length hstored
  rw [htake]
  have hnil : s.memory.records.length = (stripAttachments transcript).length → rest = [] := by
    intro heq
    rw [length_stripAttachments] at heq
    exact length_eq_zero_iff.mp (by omega)
  refine ⟨hcounted, h.prompted_strip, fun heq => ?_, ?_, by simp⟩
  · rw [hstored, hnil heq, append_nil, map_bare_stripAttachments]
    exact h.agrees hcursor
  · by_cases he : e.ofMemory = true
    · obtain ⟨front₀, back, honce, hfront₀, hback⟩ := h.once
      obtain rfl := hback hcursor
      refine ⟨front₀, rest.map bare, ?_, hfront₀, fun heq => by rw [hnil heq, map_nil]⟩
      rw [hstored, map_append, honce, if_pos he, append_nil, append_nil]
    · obtain ⟨more, rfl⟩ := hrest.resolve_left he
      obtain ⟨front', honce, hfront'⟩ := h.once_append (u := u) hcursor [] hfront
      refine ⟨front', more.map bare, ?_, hfront', fun heq => ?_⟩
      · rw [if_neg he, hstored, map_append, map_append, map_bare_messageForMemory,
          ← append_assoc, ← map_append, honce]
      · -- the user's message is stored, and rolled back
        have := hnil heq
        simp at this

end

/-! ## Over all turns -/

/-- The invariant of a session, in a state of the runner. -/
def TurnHistory.Keeps (runner : TurnRunner) (h : TurnHistory) : Prop :=
  ∀ session_id, Kept runner.runtime.system_prompt (h.state.memory session_id)
    (h.state.transcript session_id) (h.due session_id) (h.succeeded session_id)

/-- A new session. -/
theorem keeps_init (runner : TurnRunner) : TurnHistory.Keeps runner {} := by
  intro session_id
  have hcounted : Counted {} := ⟨rfl, by simp, by decide⟩
  exact ⟨hcounted, fun _ h => absurd rfl h, fun _ => rfl,
    ⟨[], [], rfl, Or.inl rfl, fun _ => rfl⟩, fun _ => rfl⟩

/-- The messages of the context that a turn finds are the transcript. -/
theorem contextFor_messages (runner : TurnRunner) (st : RunnerState) (req : TurnRequest) :
    (runner.contextFor st req).messages = st.transcript req.session_id := by
  unfold TurnRunner.contextFor RunnerState.transcript
  cases st.contexts req.session_id <;> rfl

/-- All that a turn can do. -/
theorem runTurn_cases {runner : TurnRunner} {st st' : RunnerState} {req : TurnRequest}
    {result : Except RuntimeError Response} (h : runner.runTurn st req = some (result, st')) :
    (runner.accepts req = false ∧ st' = { st with
        contexts := update st.contexts req.session_id
          (some (runner.contextFor st req)) }) ∨
      ∃ policy s, runner.accepts req = true ∧
        runner.turnRun st req policy = .done result s ∧
        st'.memory = update st.memory req.session_id s.memory ∧
        st'.contexts = update st.contexts req.session_id (some { s.context with
          messages := TurnRunner.messagesAfter (st.transcript req.session_id).length
            s.context.messages result }) := by
  unfold TurnRunner.runTurn at h
  unfold TurnRunner.accepts
  split at h
  · simp at h
  · next error hpolicy =>
    -- the policy did not pass its checks
    simp only [Option.some.injEq, Prod.mk.injEq] at h
    left
    exact ⟨by rw [hpolicy], h.2.symm⟩
  · next policy hpolicy =>
    right
    split at h
    · simp at h
    · next result' s hrun =>
      simp only [Option.some.injEq, Prod.mk.injEq] at h
      obtain ⟨rfl, rfl⟩ := h
      refine ⟨policy, s, by rw [hpolicy], hrun, rfl, ?_⟩
      rw [contextFor_messages]

/-- One step keeps the invariant of every session. -/
theorem keeps_step {runner : TurnRunner} (hmem : runner.runtime.memory = true) {h h' : TurnHistory}
    {label : RunnerLabel} (hkept : h.Keeps runner) (hcursor : CursorRight h label)
    (hstep : runner.historyStep h label = some h') : h'.Keeps runner := by
  intro session_id
  cases label with
  | dropContext dropped =>
    simp only [TurnRunner.historyStep, Option.some.injEq] at hstep
    subst hstep
    by_cases hsame : session_id = dropped
    · subst hsame
      simp only [TurnRunner.dropSessionContext, RunnerState.transcript, update_self,
        Option.map_none, Option.getD_none]
      exact (hkept session_id).dropped
    · simp only [TurnRunner.dropSessionContext, RunnerState.transcript,
        update_of_ne hsame]
      exact hkept session_id
  | turn req =>
    simp only [TurnRunner.historyStep] at hstep
    split at hstep
    · simp at hstep
    next result st' hrun =>
    rcases runTurn_cases hrun with ⟨hacc, rfl⟩ | ⟨policy, s, hacc, hturn, hmemory, hcontexts⟩
    · -- a turn that is not run makes a context at most
      simp only [hacc, Bool.false_eq_true, if_false, Option.some.injEq] at hstep
      subst hstep
      by_cases hsame : session_id = req.session_id
      · subst hsame
        simp only [RunnerState.transcript, update_self, Option.map_some, Option.getD_some,
          contextFor_messages]
        exact hkept req.session_id
      · simp only [RunnerState.transcript, update_of_ne hsame]
        exact hkept session_id
    simp only [hacc, if_true, Option.some.injEq] at hstep
    subst hstep
    by_cases hsame : session_id = req.session_id
    · -- the run stored what its record says, from the cursor that the guard is about
      subst hsame
      have hk := hkept req.session_id
      have hcount : (h.state.memory req.session_id).records.length =
          (h.state.transcript req.session_id).length := by
        have := hcursor
        simpa [CursorRight, RunnerState.stored] using this
      have hrem : (runner.turnEnv h.state req policy).remembers = true := by
        simp [RunEnv.remembers, TurnRunner.turnEnv, hmem]
      have hrec := recorded_run hrem
        { runner.contextFor h.state req with messages := runner.turnMessages h.state req }
        hk.counted req.inputs
      have htranscript : st'.transcript req.session_id = TurnRunner.messagesAfter
          (h.state.transcript req.session_id).length s.context.messages result := by
        unfold RunnerState.transcript
        rw [hcontexts, update_self]
        rfl
      rw [← TurnRunner.turnRun, hturn] at hrec
      simp only [TurnRunner.turnMessages, contextFor_messages] at hrec
      simp only [update_self, hmemory]
      rw [htranscript]
      cases result with
      | ok r =>
        have hok := Kept.turn_ok (runner.turnEnv h.state req policy) hk hcount hrec
        simp only [TurnRunner.dueOf, TurnRunner.turnMessages, contextFor_messages, htranscript]
        exact hok
      | error e =>
        exact Kept.turn_error (runner.turnEnv h.state req policy) hk hcount hrec
    · simp only [RunnerState.transcript, update_of_ne hsame, hmemory, hcontexts]
      exact hkept session_id

/-- As long as every turn starts with a right cursor, what the turns leave to store is stored once
and in order, and after a turn that succeeded the memory holds the transcript. -/
theorem turns_stored (runner : TurnRunner) (hmem : runner.runtime.memory = true) {h : TurnHistory}
    (hreach : runner.historySystem.ReachWithin CursorRight h) (session_id : String) :
    StoredOnce h session_id := by
  have hkept : h.Keeps runner := by
    refine hreach.invariant (fun h h0 => ?_) (fun h label h' hk hg hstep => ?_)
    · rw [show h = {} from h0]
      exact keeps_init runner
    · exact keeps_step hmem hk hg hstep
  have hk := hkept session_id
  obtain ⟨front, back, honce, hfront, hback⟩ := hk.once
  exact ⟨⟨front, back, honce, hfront, fun hs => hback (hk.level hs)⟩,
    fun hs => hk.agrees (hk.level hs)⟩

/-! ## Two turns of a session -/

instance (h : TurnHistory) : (label : RunnerLabel) → Decidable (CursorRight h label)
  | .turn _ => inferInstanceAs (Decidable (_ = _))
  | .dropContext _ => inferInstanceAs (Decidable True)

/-- A runner whose runtime has a memory. -/
def rememberingRunner : TurnRunner where
  runtime := { toolRuntime with memory := true }
  default_selection := ⟨"openai", "gpt-4o"⟩

/-- A turn of the session `s`, whose provider answers as it is told. -/
def turnOf (prompt : String) (inp : TurnInput) : RunnerLabel :=
  .turn { user_id := "alice", session_id := "s", input := { prompt := prompt }, inputs := [inp] }

/-- A provider that cannot be reached. -/
def unreachable : TurnInput where
  response := .error (.provider (.transport "openai" "connection refused"))

/-- What a history says of the session `s`. -/
def TurnHistory.view (h : TurnHistory) : List Message × List Message × Bool :=
  (h.state.stored "s", h.state.transcript "s", h.succeeded "s")

/-- Two turns that succeed: the memory holds the transcript. -/
theorem twoTurns_stored : ∃ h, rememberingRunner.historySystem.ReachWithin CursorRight h ∧
    (h.state.transcript "s").length = 4 ∧ h.succeeded "s" = true ∧ StoredOnce h "s" := by
  obtain ⟨h, hexec, hview⟩ : ∃ h, h ∈ exec CursorRight rememberingRunner.historyStep {}
      [turnOf "Any errors?" (reply [] 5), turnOf "And now?" (reply [] 5)] ∧
      (h.view.2.1.length = 4 ∧ h.view.2.2 = true) := by
    decide +kernel
  have hreach : rememberingRunner.historySystem.ReachWithin CursorRight h :=
    reachWithin_exec (.init rfl) hexec
  exact ⟨h, hreach, hview.1, hview.2, turns_stored rememberingRunner rfl hreach "s"⟩

/-- A turn fails and is rolled back, and the message of the next one is taken to be stored. -/
theorem rollback_loses_message :
    ¬∀ h, rememberingRunner.historySystem.Reach h → ∀ session_id, StoredOnce h session_id := by
  intro hall
  obtain ⟨h, hexec, hview⟩ : ∃ h, h ∈ exec (fun _ _ => True) rememberingRunner.historyStep {}
      [turnOf "Any errors?" unreachable, turnOf "And now?" (reply [] 5)] ∧
      (h.view.2.2 = true ∧ h.view.1.map bare ≠ h.view.2.1.map bare) := by
    decide +kernel
  have hreach : rememberingRunner.historySystem.Reach h := reachWithin_exec (.init rfl) hexec
  exact hview.2 ((hall h hreach "s").agrees hview.1)

end Oxydra
