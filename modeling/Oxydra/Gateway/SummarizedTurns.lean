import Oxydra.Gateway.StoredTurns
import Oxydra.Runtime.RollingSummary

/-!
# The transcript and the summary of a session

The stored summary stands for the messages up to its upper sequence, which are not shown to the
model any more. `summarized_turns_told` says that it tells each of them, whatever happens to the
transcript between the updates, if no update takes more out of the history than the summary has room
for, and no failed turn takes back messages that the summary stands for. Beyond that a message is
lost: `compose_rolling_summary` tells the first 24 of the messages that an update takes out and cuts
the text at 4000 characters, while the upper sequence covers them all (`twentyFifthNote_lost`).
-/

namespace Oxydra

open Option Lts Effect

/-! ## Transcripts -/

/-- What happens to the transcript and the summary of a session. -/
inductive TranscriptStep where
  /-- A message is added. -/
  | push (message : Message)
  /-- A turn begins: earlier messages lose their attachments. -/
  | strip
  /-- A run begins: the system prompt is put in front. -/
  | prompt (env : RunEnv)
  /-- A turn failed, or the context was dropped: the messages after the first `count` are gone. -/
  | cutBack (count : ℕ)
  /-- `maybe_trigger_rolling_summary`. -/
  | update (env : RunEnv) (inp : TurnInput)

/-- A `Vec` has fewer messages than the bytes that it may have. -/
def maxMessages : ℕ := 2^63 - 1

/-- The state with other messages. -/
def RunState.withMessages (s : RunState) (messages : List Message) : RunState :=
  { s with context := { s.context with messages := messages } }

/-- The state with other messages, if there is room for them. -/
def RunState.grown (s : RunState) (messages : List Message) : Option RunState :=
  if messages.length ≤ maxMessages then some (s.withMessages messages) else none

theorem grown_eq_some {s t : RunState} {messages : List Message} (h : s.grown messages = some t) :
    messages.length ≤ maxMessages ∧ s.withMessages messages = t := by
  unfold RunState.grown at h
  split_ifs at h with hroom
  exact ⟨hroom, some.inj h⟩

/-- The state that an update leaves, whether it fails or not. -/
def updated (env : RunEnv) (inp : TurnInput) (s : RunState) : RunState :=
  match maybeTriggerRollingSummary env inp s with
  | .ok _ t => t
  | .error _ t => t

/-- One step of a session's transcript and summary. -/
def transcriptStep (s : RunState) : TranscriptStep → Option RunState
  | .push message => s.grown (s.context.messages ++ [message])
  | .strip => some (s.withMessages (stripAttachments s.context.messages))
  | .prompt env => s.grown (withSystemPrompt env s.context.messages)
  | .cutBack count => some (s.withMessages (s.context.messages.take count))
  | .update env inp => some (updated env inp s)

/-- A session starts with no summary. -/
def transcriptSystem : System RunState TranscriptStep :=
  ofStep (fun s => s.memory.summary_state = none ∧ s.context.messages.length ≤ maxMessages)
    transcriptStep

/-- A summary has room for some entries beside what it tells. -/
def RoomFor (previous : Option MemorySummaryState) (entries : List (ℕ × Message × ℕ)) : Prop :=
  entries.length ≤ 24 ∧ (condensedTurns previous entries).toList.length ≤ 4000

/-- No step takes out of the history what the summary does not tell: an update summarizes at most 24
messages, which come to at most 4000 characters with the summary before them, and the transcript is
not cut back behind the summary. -/
def KeepsTurns (s : RunState) : TranscriptStep → Prop
  | .update env inp => env.summarizes = true → ∀ entries ∈ (dueEntries env inp s).toOption,
      RoomFor s.memory.summary_state entries
  | .cutBack count => ∀ state ∈ s.memory.summary_state, state.upper_sequence ≤ count
  | _ => True

/-! ## What is told -/

/-- A summary tells every message of a transcript that it stands for. -/
structure TellsTurns (messages : List Message) (summary_state : Option MemorySummaryState) :
    Prop where
  bounded : messages.length ≤ maxMessages
  covered : ∀ state ∈ summary_state, state.upper_sequence ≤ messages.length
  told : ∀ index m, messages[index]? = some m → m.role ≠ .system →
    ∀ state ∈ summary_state, index < state.upper_sequence →
      (turnText m).toList <:+: state.summary.toList

/-- What a summary tells of a message does not depend on its attachments. -/
theorem turnText_bare (m : Message) : turnText (bare m) = turnText m := rfl

/-- A message that a summary stands for has a place below its upper sequence. -/
theorem isSummarizedSequence_iff {summary_state : Option MemorySummaryState} {index : ℕ}
    (h : index < U64.max) :
    isSummarizedSequence summary_state index = true ↔
      ∃ state ∈ summary_state, index < state.upper_sequence := by
  have hseq : sequenceFromIndex index = index + 1 := U64.saturatingAdd_of_le h
  cases summary_state with
  | none => simp [isSummarizedSequence]
  | some state =>
    simp only [isSummarizedSequence, hseq, Bool.and_eq_true, decide_eq_true_eq, Option.mem_some_iff,
      exists_eq_left']
    omega

section

variable {messages : List Message} {summary_state : Option MemorySummaryState}

/-- A new message comes after those that are summarized. -/
theorem TellsTurns.push (h : TellsTurns messages summary_state) (message : Message)
    (hroom : (messages ++ [message]).length ≤ maxMessages) :
    TellsTurns (messages ++ [message]) summary_state where
  bounded := hroom
  covered state hstate := by
    rw [List.length_append]
    exact le_trans (h.covered state hstate) (Nat.le_add_right _ _)
  told index m hm hrole state hstate hindex := by
    rw [List.getElem?_append_left (lt_of_lt_of_le hindex (h.covered state hstate))] at hm
    exact h.told index m hm hrole state hstate hindex

/-- Attachments are not told. -/
theorem TellsTurns.strip (h : TellsTurns messages summary_state) :
    TellsTurns (stripAttachments messages) summary_state where
  bounded := by
    rw [length_stripAttachments]
    exact h.bounded
  covered state hstate := by
    rw [length_stripAttachments]
    exact h.covered state hstate
  told index m hm hrole state hstate hindex := by
    have hbare : (messages.map bare)[index]? = some (bare m) := by
      rw [← map_bare_stripAttachments, List.getElem?_map, hm]
      rfl
    rw [List.getElem?_map] at hbare
    obtain ⟨old, hold, heq⟩ := Option.map_eq_some_iff.mp hbare
    have hsame : (bare old).role = (bare m).role := congrArg Message.role heq
    rw [← turnText_bare m, ← heq, turnText_bare]
    exact h.told index old hold (hsame.trans_ne hrole) state hstate hindex

/-- With a system prompt in front of it, a message moves away from the summary. -/
theorem TellsTurns.prompt (h : TellsTurns messages summary_state) (env : RunEnv)
    (hroom : (withSystemPrompt env messages).length ≤ maxMessages) :
    TellsTurns (withSystemPrompt env messages) summary_state := by
  have hcases : withSystemPrompt env messages = messages ∨
      ∃ m, withSystemPrompt env messages = m :: messages ∧ m.role = .system := by
    unfold withSystemPrompt
    cases env.rt.system_prompt with
    | none => exact Or.inl rfl
    | some prompt =>
      split_ifs
      · exact Or.inl rfl
      · exact Or.inr ⟨_, rfl, rfl⟩
  obtain heq | ⟨front, heq, hfront⟩ := hcases
  · rw [heq]
    exact h
  · rw [heq] at hroom ⊢
    refine ⟨hroom, fun state hstate => le_trans (h.covered state hstate) (Nat.le_succ _), ?_⟩
    intro index m hm hrole state hstate hindex
    cases index with
    | zero =>
      rw [List.getElem?_cons_zero] at hm
      exact absurd (some.inj hm ▸ hfront) hrole
    | succ index =>
      rw [List.getElem?_cons_succ] at hm
      exact h.told index m hm hrole state hstate (Nat.lt_of_succ_lt hindex)

/-- What is left of the transcript is told as before. -/
theorem TellsTurns.cutBack (h : TellsTurns messages summary_state) {count : ℕ}
    (hcount : ∀ state ∈ summary_state, state.upper_sequence ≤ count) :
    TellsTurns (messages.take count) summary_state where
  bounded := le_trans (List.length_take_le' _ _) h.bounded
  covered state hstate := by
    rw [List.length_take]
    exact le_min (hcount state hstate) (h.covered state hstate)
  told index m hm hrole state hstate hindex := by
    rw [List.getElem?_take_of_lt (lt_of_lt_of_le hindex (hcount state hstate))] at hm
    exact h.told index m hm hrole state hstate hindex

end

/-- An update tells what it takes out of the history, and again what was told before. -/
theorem TellsTurns.update {env : RunEnv} {inp : TurnInput} {s t : RunState}
    (h : TellsTurns s.context.messages s.memory.summary_state)
    (hroom : KeepsTurns s (.update env inp)) (hupdate : Resummarized env inp s t) :
    TellsTurns t.context.messages t.memory.summary_state := by
  obtain ⟨hcontext, hsummary | ⟨hretrieval, entries, state, hentries, hstate, hupper, htext⟩⟩ :=
    hupdate
  · rw [hcontext, hsummary]
    exact h
  · have hfits : RoomFor s.memory.summary_state entries :=
      hroom hretrieval entries (mem_toOption.mpr hentries)
    have hall : entries.take 24 = entries := List.take_of_length_le hfits.1
    rw [composeRollingSummary_eq (by rw [hall]; exact hfits.2), hall] at htext
    have hwords : s.context.messages.length ≤ U64.max := le_trans h.bounded (by decide)
    rw [hcontext, hstate]
    refine ⟨h.bounded, ?_, ?_⟩
    · intro state' hstate'
      cases hstate'
      rw [hupper]
      exact summarizedEntries_upper_le hentries
    · intro index m hm hrole state' hstate' hindex
      cases hstate'
      have hlt : index < U64.max :=
        lt_of_lt_of_le (List.getElem?_eq_some_iff.mp hm).1 hwords
      rw [htext]
      by_cases hold : isSummarizedSequence s.memory.summary_state index = true
      · obtain ⟨previous, hprevious, hbefore⟩ := (isSummarizedSequence_iff hlt).mp hold
        have htold := h.told index m hm hrole previous hprevious hbefore
        rw [Option.mem_def.mp hprevious]
        exact infix_condensedTurns (turnText_visible m) htold
      · have hturn : (index, m) ∈ AgentRuntime.unsummarized s.context s.memory.summary_state := by
          refine List.mem_filter.mpr ⟨Greedy.mem_indexed.mpr hm, ?_⟩
          simp [hrole, hold]
        rw [hupper] at hindex
        have hseq : sequenceFromIndex index = index + 1 := U64.saturatingAdd_of_le hlt
        obtain ⟨entry, hentry, rfl⟩ :=
          summarizedEntries_covers hentries hwords hturn (hseq.trans_le hindex)
        exact turnText_infix_of_mem hentry

/-- An update leaves a summary that is due. -/
theorem updated_resummarized (env : RunEnv) (inp : TurnInput) (s : RunState) :
    Resummarized env inp s (updated env inp s) := by
  have h := maybeTriggerRollingSummary_summary env inp s
  unfold wp at h
  unfold updated
  cases hrun : maybeTriggerRollingSummary env inp s with
  | ok u t =>
    rw [hrun] at h
    exact h
  | error e t =>
    rw [hrun] at h
    exact h

/-- One step that keeps the turns keeps them told. -/
theorem transcriptStep_tells {s t : RunState} {step : TranscriptStep}
    (h : TellsTurns s.context.messages s.memory.summary_state) (hkeeps : KeepsTurns s step)
    (hstep : transcriptStep s step = some t) :
    TellsTurns t.context.messages t.memory.summary_state := by
  cases step with
  | push message =>
    obtain ⟨hroom, rfl⟩ := grown_eq_some hstep
    exact h.push message hroom
  | strip =>
    cases hstep
    exact h.strip
  | prompt env =>
    obtain ⟨hroom, rfl⟩ := grown_eq_some hstep
    exact h.prompt env hroom
  | cutBack count =>
    cases hstep
    exact h.cutBack hkeeps
  | update env inp =>
    cases hstep
    exact h.update hkeeps (updated_resummarized env inp s)

/-- In every run whose steps keep the turns, each message that is cut from the history is told in
the stored summary, with its role and its content. -/
theorem summarized_turns_told {s : RunState} (h : transcriptSystem.ReachWithin KeepsTurns s)
    {index : ℕ} {m : Message} (hm : s.context.messages[index]? = some m) (hrole : m.role ≠ .system)
    (hcut : isSummarizedSequence s.memory.summary_state index = true) :
    ∃ state ∈ s.memory.summary_state, (turnText m).toList <:+: state.summary.toList := by
  have hinit : ∀ s : RunState, s.memory.summary_state = none ∧
      s.context.messages.length ≤ maxMessages →
      TellsTurns s.context.messages s.memory.summary_state := by
    rintro s ⟨hnone, hlen⟩
    rw [hnone]
    exact ⟨hlen, nofun, fun _ _ _ _ => nofun⟩
  have hinv : TellsTurns s.context.messages s.memory.summary_state :=
    h.invariant hinit fun s step t hs hkeeps hstep => transcriptStep_tells hs hkeeps hstep
  have hlt : index < U64.max :=
    lt_of_lt_of_le (List.getElem?_eq_some_iff.mp hm).1 (le_trans hinv.bounded (by decide))
  obtain ⟨state, hstate, hindex⟩ := (isSummarizedSequence_iff hlt).mp hcut
  exact ⟨state, hstate, hinv.told index m hm hrole state hstate hindex⟩

/-! ## Short notes -/

/-- The user's notes have odd numbers, and the assistant's even ones. -/
def note (n : ℕ) : Message where
  role := if n % 2 = 1 then .user else .assistant
  content := some s!"note {n}"

/-- A session with some notes. -/
def notes (count : ℕ) : RunState where
  context :=
    { provider := "openai"
      model := "gpt-4o"
      messages := (List.range count).map fun k => note (101 + k) }

/-- The first notes as entries, with their tokens. -/
def noteEntries (count : ℕ) : List (ℕ × Message × ℕ) :=
  (List.range count).map fun k => (k + 1, note (101 + k), if k % 2 = 0 then 9 else 11)

/-- A run on a model with a small context window. -/
def noteEnv (max_context_tokens : ℕ) : RunEnv where
  rt := smallRuntime max_context_tokens true
  session_id := some "runtime-alice"

/-- An iteration that is cancelled after the update. -/
def cancelledTurn : TurnInput where
  response := .error .cancelled

/-- The session after an update. -/
def notesSummarized (count max_context_tokens : ℕ) : RunState :=
  updated (noteEnv max_context_tokens) cancelledTurn (notes count)

theorem notesSummarized_reach {guard : RunState → TranscriptStep → Prop}
    {count max_context_tokens : ℕ} (hcount : count ≤ maxMessages)
    (hguard : guard (notes count) (.update (noteEnv max_context_tokens) cancelledTurn)) :
    transcriptSystem.ReachWithin guard (notesSummarized count max_context_tokens) := by
  refine .step (.init ⟨rfl, ?_⟩) hguard rfl
  simpa [notes] using hcount

/-- An update of eleven notes summarizes six, and tells them. -/
theorem firstNote_told : ∃ s, transcriptSystem.ReachWithin KeepsTurns s ∧
    s.context.messages[0]? = some (note 101) ∧ (note 101).role ≠ .system ∧
    isSummarizedSequence s.memory.summary_state 0 = true ∧
    ∃ state ∈ s.memory.summary_state, (turnText (note 101)).toList <:+: state.summary.toList := by
  have hdue : dueEntries (noteEnv 120) cancelledTurn (notes 11) = .ok (noteEntries 6) :=
    mem_toOption.mp (by decide +kernel)
  have hshort : (condensedTurns none (noteEntries 6)).toList.length ≤ 4000 := by
    rw [toList_condensedTurns_none]
    decide +kernel
  have hkeeps : KeepsTurns (notes 11) (.update (noteEnv 120) cancelledTurn) := by
    intro _ entries hentries
    obtain rfl := Except.ok.inj ((mem_toOption.mp hentries).symm.trans hdue)
    exact ⟨by decide, hshort⟩
  have hreach := notesSummarized_reach (by decide) hkeeps
  have hm : (notesSummarized 11 120).context.messages[0]? = some (note 101) := by
    rw [notesSummarized, (updated_resummarized _ _ _).1]
    rfl
  have hcut : isSummarizedSequence (notesSummarized 11 120).memory.summary_state 0 = true := by
    decide +kernel
  exact ⟨_, hreach, hm, by decide, hcut, summarized_turns_told hreach hm (by decide) hcut⟩

/-- The update that is due when the user adds a 61st note takes 26 of them out of the history, and
the last two are not told. -/
theorem twentyFifthNote_lost : ∃ s, transcriptSystem.Reach s ∧
    s.context.messages[24]? = some (note 125) ∧ (note 125).role ≠ .system ∧
    isSummarizedSequence s.memory.summary_state 24 = true ∧
    ∀ state ∈ s.memory.summary_state,
      ¬(summaryMessageContent (note 125)).toList <:+: state.summary.toList := by
  have hupdate := updated_resummarized (noteEnv 700) cancelledTurn (notes 61)
  have hdue : dueEntries (noteEnv 700) cancelledTurn (notes 61) = .ok (noteEntries 26) :=
    mem_toOption.mp (by decide +kernel)
  have hcut : isSummarizedSequence (notesSummarized 61 700).memory.summary_state 24 = true := by
    decide +kernel
  have hfirst : (noteEntries 26).take 24 = noteEntries 24 := by decide
  have hshort : (condensedTurns none (noteEntries 24)).toList.length ≤ 4000 := by
    rw [toList_condensedTurns_none]
    decide +kernel
  have hlost : ¬(summaryMessageContent (note 125)).toList <:+:
      (condensedTurns none (noteEntries 24)).toList := by
    rw [toList_condensedTurns_none]
    decide +kernel
  refine ⟨_, notesSummarized_reach (by decide) trivial, ?_, by decide, hcut, ?_⟩
  · rw [notesSummarized, hupdate.1]
    rfl
  · intro state hstate
    obtain hsame | ⟨-, entries, state', hentries, hstate', -, htext⟩ := hupdate.2
    · rw [notesSummarized, hsame] at hstate
      cases hstate
    · obtain rfl := some.inj (hstate.symm.trans hstate')
      obtain rfl := Except.ok.inj (hentries.symm.trans hdue)
      have hnone : (notes 61).memory.summary_state = none := rfl
      rw [hnone, composeRollingSummary_eq (by rw [hfirst]; exact hshort), hfirst] at htext
      rw [htext]
      exact hlost

end Oxydra
