import Oxydra.Library.Trace
import Oxydra.Runtime.SessionSpec

/-!
# Calls and answers in the transcript of a run

A provider rejects a transcript in which a tool call has no result, so a run of
`run_session_internal` (`crates/runtime/src/lib.rs`) that succeeds should leave none: `NoDangling`.
The tool phase answers each call of a response once and in order, so a turn keeps the property
(`noDangling_turn`). The budget stop commits the assistant message and leaves without the tool
phase; `transcript_answered` says when no run is stopped that way.
-/

namespace Oxydra

open List Lts Trace

variable {env : RunEnv}

/-! ## The property -/

/-- The messages up to the next assistant or user message. -/
def untilSpeaker (messages : List Message) : List Message :=
  messages.takeWhile fun m => m.role ≠ .assistant ∧ m.role ≠ .user

/-- Whether a message is the tool message for a call id. -/
def answersId (id : String) (m : Message) : Bool := m.role = .tool ∧ m.tool_call_id = some id

/-- Every call of an assistant message is answered by exactly one tool message before the next
assistant or user message. -/
def NoDangling (messages : List Message) : Prop :=
  ∀ pre m post, messages = pre ++ m :: post → m.role = .assistant →
    ∀ c ∈ m.tool_calls, (untilSpeaker post).countP (answersId c.id) = 1

/-- Nothing is asked of the messages behind which an assistant message is added. -/
theorem untilSpeaker_append {m : Message} (hm : m.role = .assistant) (rest : List Message) :
    ∀ post, untilSpeaker (post ++ m :: rest) = untilSpeaker post
  | [] => by simp [untilSpeaker, hm]
  | n :: post => by
    have ih := untilSpeaker_append hm rest post
    unfold untilSpeaker at *
    rw [cons_append, takeWhile_cons, takeWhile_cons, ih]

section

variable {calls : List ToolCall} {ms : List Message}

/-- Answers are tool messages. -/
theorem role_of_answer (h : List.Forall₂ IsAnswer calls ms) : ∀ m ∈ ms, m.role = .tool := by
  induction h with
  | nil => simp
  | cons hans _ ih =>
    intro m hm
    rcases mem_cons.mp hm with rfl | hm
    · exact hans.1
    · exact ih m hm

/-- Nobody speaks among the answers. -/
theorem untilSpeaker_answers (h : List.Forall₂ IsAnswer calls ms) : untilSpeaker ms = ms := by
  refine takeWhile_eq_self_iff.mpr fun m hm => ?_
  simp [role_of_answer h m hm]

/-- There are as many answers to an id as there are calls with it. -/
theorem countP_answers (h : List.Forall₂ IsAnswer calls ms) (id : String) :
    ms.countP (answersId id) = (calls.map ToolCall.id).count id := by
  induction h with
  | nil => rfl
  | @cons c m calls ms hans _ ih =>
    rw [countP_cons, ih, map_cons, count_cons]
    have hiff : answersId id m = true ↔ (c.id == id) = true := by
      simp [answersId, hans.1, hans.2.1]
    simp only [hiff]

/-- A turn keeps the property: an assistant message whose call ids differ, with its answers. -/
theorem noDangling_turn {messages : List Message} {m : Message} (h : NoDangling messages)
    (hrole : m.role = .assistant) (hids : (m.tool_calls.map ToolCall.id).Nodup)
    (hans : List.Forall₂ IsAnswer m.tool_calls ms) : NoDangling (messages ++ m :: ms) := by
  intro pre n post hsplit hn c hc
  rcases split_append hsplit with ⟨mid, rfl, rfl⟩ | ⟨mid, rfl, hmid⟩
  · -- a message from before, whose answers end at the new one
    rw [untilSpeaker_append hrole]
    exact h pre n mid rfl hn c hc
  · cases mid with
    | nil =>
      -- the new message itself
      cases hmid
      rw [untilSpeaker_answers hans, countP_answers hans]
      exact count_eq_one_of_mem hids (mem_map_of_mem hc)
    | cons k mid =>
      -- an answer is no assistant message
      obtain ⟨-, rfl⟩ := cons.inj hmid
      have htool := role_of_answer hans n (by simp)
      rw [hn] at htool
      simp at htool

end

/-- The system prompt is no assistant message. -/
theorem noDangling_withSystemPrompt {messages : List Message} (h : NoDangling messages) :
    NoDangling (withSystemPrompt env messages) := by
  unfold withSystemPrompt
  split
  · split_ifs
    · exact h
    · intro pre m post hsplit hm c hc
      cases pre with
      | nil =>
        obtain ⟨rfl, -⟩ := cons.inj hsplit
        simp at hm
      | cons n pre =>
        obtain ⟨-, hsplit⟩ := cons.inj hsplit
        exact h pre m post hsplit hm c hc
  · exact h

/-! ## Over a run -/

/-- Whether a response uses up the budget of an enforced policy. -/
def usesUpBudget (env : RunEnv) (st : SessionState) (r : Response) : Bool :=
  env.enforced && st.state.budget_ledger.any fun ledger =>
    (ledger.addSettled (turnCostMicrousd r.usage)).isExhausted

/-- A response is an assistant message whose call ids differ, and one that uses up the budget asks
for no call. -/
def RepliesInOrder (env : RunEnv) (st : SessionState) (inp : TurnInput) : Prop :=
  ∀ r ∈ inp.response.toOption, r.message.role = .assistant ∧ (r.calls.map ToolCall.id).Nodup ∧
    (usesUpBudget env st r = true → r.calls = [])

/-- A response uses up the budget where the settlement of its cost ends the run. -/
theorem usesUpBudget_eq {settled : ℕ} {s : RunState} (hledger : LedgerAt env 0 settled s)
    (r : Response) :
    usesUpBudget env (.running s) r =
      budgetEnds env (U64.wrappingAdd settled (turnCostMicrousd r.usage)) := by
  rw [← budgetStops_eq (s := { s with
    budget_ledger := s.budget_ledger.map fun l => l.addSettled (turnCostMicrousd r.usage) }) ?_]
  · unfold usesUpBudget budgetStops SessionState.state
    rw [Bool.and_comm]
    cases s.budget_ledger <;> rfl
  · unfold LedgerAt at *
    simp only [hledger, Option.map_map]
    rfl

/-- The invariant of a run whose responses come in order. -/
structure Complete (env : RunEnv) (st : SessionState) : Prop where
  ledger : Ledgered env st
  running : ∀ s, st = .running s → NoDangling s.context.messages
  done : ∀ r s, st = .done (.ok r) s → NoDangling s.context.messages

/-- An iteration that is answered in order leaves no call without its answer. -/
theorem noDangling_answers {settled : ℕ} {s t : RunState} {inp : TurnInput} {r : Response}
    {ms : List Message} {out : Option Response} (hledger : LedgerAt env 0 settled s)
    (horder : RepliesInOrder env (.running s) inp) (hans : Answers env settled s inp r ms out t)
    (h : NoDangling s.context.messages) :
    NoDangling t.context.messages := by
  obtain ⟨hrole, hids, hstop⟩ := horder r (Effect.mem_toOption.mpr hans.response)
  rw [usesUpBudget_eq hledger] at hstop
  obtain ⟨u, hpaid, hext⟩ := hans.paid
  have hanswered : List.Forall₂ IsAnswer r.calls ms := by
    have hends := hans.ends
    unfold TurnEnds at hends
    split_ifs at hends with hbudget
    · rw [hstop hbudget, hends.1]
      exact List.Forall₂.nil
    · exact hends.1
    · exact hends.1
  rw [hext.context, hpaid.context]
  exact noDangling_turn (m := r.assistantMessage) h hrole hids hanswered

/-- A run that starts on a context without dangling calls has none. -/
theorem complete_start {context : Context} {memory : SessionMemory}
    (hcontext : NoDangling context.messages) : Complete env (startSession env context memory) := by
  have hledger := ledgered_start env context memory
  rcases startSession_cases env context memory with ⟨t, ht, hstart, -⟩ | ⟨e, t, ht, -⟩
  · rw [ht] at hledger ⊢
    refine ⟨hledger, fun s hs => ?_, fun r s hs => by simp at hs⟩
    rw [SessionState.running.injEq] at hs
    subst hs
    rw [hstart.messages]
    exact noDangling_withSystemPrompt hcontext
  · -- a run that failed before its loop has nothing to show
    rw [ht] at hledger ⊢
    exact ⟨hledger, fun s hs => by simp at hs, fun r s hs => by simp at hs⟩

/-- An iteration whose response is in order leaves no call dangling. -/
theorem complete_step {st st' : SessionState} {inp : TurnInput} (hinv : Complete env st)
    (horder : RepliesInOrder env st inp) (hstep : sessionStep env st inp = some st') :
    Complete env st' := by
  have hledger' := ledgered_step hstep hinv.ledger
  obtain ⟨s, settled, rfl, hledger, hcases⟩ := sessionStep_cases hstep hinv.ledger
  have hs := hinv.running s rfl
  rcases hcases with ⟨r, ms, t, hans, rfl⟩ | ⟨r, ms, out, t, hans, rfl⟩ | ⟨e, t, -, rfl⟩
  · refine ⟨hledger', fun s' hs' => ?_, fun r' s' hs' => by simp at hs'⟩
    rw [SessionState.running.injEq] at hs'
    subst hs'
    exact noDangling_answers hledger horder hans hs
  · refine ⟨hledger', fun s' hs' => by simp at hs', fun r' s' hs' => ?_⟩
    rw [SessionState.done.injEq] at hs'
    obtain ⟨-, rfl⟩ := hs'
    exact noDangling_answers hledger horder hans hs
  · exact ⟨hledger', fun s' hs' => by simp at hs', fun r' s' hs' => by simp at hs'⟩

/-- From a context without dangling calls, and whatever the tools do: if every response is an
assistant message with different call ids, and none that uses up the budget asks for a call, then a
run that succeeds leaves every call answered exactly once before the next assistant or user
message. -/
theorem transcript_answered {env : RunEnv} {context : Context} {memory : SessionMemory}
    (hcontext : NoDangling context.messages) {r : Response} {s : RunState}
    (h : (sessionSystem env context memory).ReachWithin (RepliesInOrder env) (.done (.ok r) s)) :
    NoDangling s.context.messages := by
  have hinv : Complete env (.done (.ok r) s) := by
    refine h.invariant (fun st hst => ?_) (fun st inp st' hinv horder hstep => ?_)
    · rw [show st = startSession env context memory from hst]
      exact complete_start hcontext
    · exact complete_step hinv horder hstep
  exact hinv.done r s rfl

instance (env : RunEnv) (st : SessionState) (inp : TurnInput) :
    Decidable (RepliesInOrder env st inp) :=
  inferInstanceAs (Decidable (∀ r ∈ inp.response.toOption, _ ∧ _ ∧ _))

/-- A question has no calls. -/
theorem noDangling_asked : NoDangling asked.messages := by
  intro pre m post hsplit hm
  have hmem : m ∈ asked.messages := by rw [hsplit]; simp
  obtain rfl := mem_singleton.mp hmem
  simp at hm

/-- Two calls in one turn, and then the final answer: both calls are answered. -/
theorem twoCalls_answered :
    ∃ r s, (sessionSystem (readingRun 100) asked {}).ReachWithin (RepliesInOrder (readingRun 100))
        (.done (.ok r) s) ∧
      s.context.messages.length = 5 ∧ NoDangling s.context.messages := by
  obtain ⟨⟨r, s⟩, hdone, hlen⟩ : ∃ out ∈ (exec (RepliesInOrder (readingRun 100))
      (sessionStep (readingRun 100)) (startSession (readingRun 100) asked {})
      [reply [plainCall "c1" "file_read", plainCall "c2" "file_read"] 5, reply [] 6]).bind
        SessionState.success,
      out.2.context.messages.length = 5 := by decide
  have hreach := success_of_exec hdone
  exact ⟨r, s, hreach, hlen, transcript_answered noDangling_asked hreach⟩

/-- A turn that asks for a call and uses up the budget: the run succeeds, and its transcript ends
with the call. -/
theorem budgetStop_leaves_call :
    NoDangling asked.messages ∧
      ∃ r s, (sessionSystem (readingRun 40) asked {}).Reach (.done (.ok r) s) ∧
        ¬NoDangling s.context.messages := by
  refine ⟨noDangling_asked, ?_⟩
  obtain ⟨⟨r, s⟩, hdone, hmessages⟩ : ∃ out ∈ (exec (fun _ _ => True) (sessionStep (readingRun 40))
      (startSession (readingRun 40) asked {}) [reply [plainCall "c1" "file_read"] 5]).bind
        SessionState.success,
      out.2.context.messages = asked.messages ++
        [{ role := .assistant, tool_calls := [plainCall "c1" "file_read"] }] := by decide
  refine ⟨r, s, success_of_exec hdone, fun h => ?_⟩
  have hone := h asked.messages _ [] hmessages rfl (plainCall "c1" "file_read") (by simp)
  simp [untilSpeaker] at hone

end Oxydra
