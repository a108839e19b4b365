import Oxydra.Library.TextLaws
import Oxydra.Runtime.SessionSpec

/-!
# Rolling summaries

What an update of the rolling summary tells, and what it takes out of the history.
`compose_rolling_summary` of `crates/runtime/src/budget.rs` tells the first 24 of the messages that
an update takes out, and cuts what it tells, with the summary before it, at 4000 characters
(`composeRollingSummary_eq`). The update moves the upper sequence past all of them, and past no
other message (`summarizedEntries_covers`).
-/

namespace Oxydra

open String Except List Effect

/-! ## What a summary tells -/

/-- What a summary tells of a message: who wrote it, and what. -/
def turnText (message : Message) : String :=
  messageRoleLabel message.role ++ ": " ++ summaryMessageContent message

/-- The line that tells an entry. -/
def entryLine (entry : ℕ × Message × ℕ) : String := s!"- [{entry.1}] " ++ turnText entry.2.1

/-- The previous summary and all entries, with no bound on either. -/
def condensedTurns (previous : Option MemorySummaryState) (entries : List (ℕ × Message × ℕ)) :
    String :=
  let existing := previous.elim "" fun state => Text.trim state.summary
  (if existing = "" then "" else existing ++ "\n") ++
    String.intercalate "\n" ("Recent condensed turns:" :: entries.map entryLine)

section

variable {previous : Option MemorySummaryState} {entries : List (ℕ × Message × ℕ)}

/-- Only the first 24 entries are told, and if that is short enough it is not cut. -/
theorem composeRollingSummary_eq
    (hlength : (condensedTurns previous (entries.take 24)).toList.length ≤ 4000) :
    composeRollingSummary previous entries = condensedTurns previous (entries.take 24) := by
  have hcut : composeRollingSummary previous entries =
      Text.ellipsize 4000 (condensedTurns previous (entries.take 24)) := by
    unfold composeRollingSummary condensedTurns
    rw [map_congr_left (l := entries.take 24) (g := entryLine) ?_]
    · cases previous <;> dsimp only [Option.elim_some, Option.elim_none]
    · -- both tell an entry in the same words
      intro entry _
      simp only [entryLine, turnText, String.append_assoc]
      rfl
  rw [hcut, Text.ellipsize_of_le hlength]

/-- The characters of a first summary, line by line. -/
theorem toList_condensedTurns_none : (condensedTurns none entries).toList =
    ['\n'].intercalate
      (("Recent condensed turns:" :: entries.map entryLine).map String.toList) := by
  unfold condensedTurns
  rw [toList_append, toList_intercalate]
  rfl

/-- Every message has some text to tell it by. -/
theorem summaryMessageContent_visible (m : Message) :
    (summaryMessageContent m).toList ≠ [] ∧ Text.Visible (summaryMessageContent m).toList := by
  unfold summaryMessageContent
  dsimp only
  split_ifs with htext hcalls
  · exact ⟨by decide, Text.visible_of_all (by decide), Text.visible_of_all (by decide)⟩
  · generalize toString (String.intercalate ", " (m.tool_calls.map ToolCall.name)) = names
    have hends := Text.visible_append (a := (toString "[tool calls: ").toList) (m := names.toList)
      (b := (toString "]").toList) (by decide) (by decide) (Text.visible_of_all (by decide))
      (Text.visible_of_all (by decide))
    rw [← toList_append, ← toList_append] at hends
    refine ⟨Text.ellipsize_ne_nil ?_, Text.visible_ellipsize (by decide) hends⟩
    rw [toList_append]
    exact append_ne_nil_of_right_ne_nil _ (by decide)
  · have hne : (Text.normalizeWhitespace (m.content.getD "")).toList ≠ [] :=
      fun hnil => htext (toList_eq_nil_iff.mp hnil)
    exact ⟨Text.ellipsize_ne_nil hne,
      Text.visible_ellipsize (by decide) (Text.visible_normalizeWhitespace _)⟩

/-- What tells a message is not touched by trimming. -/
theorem turnText_visible (m : Message) : Text.Visible (turnText m).toList := by
  obtain ⟨hne, hvisible⟩ := summaryMessageContent_visible m
  unfold turnText
  rw [toList_append, toList_append]
  refine Text.visible_append ?_ hne ?_ hvisible.2
  · cases m.role <;> decide
  · apply Text.visible_of_all
    cases m.role <;> decide

/-- The entries are told. -/
theorem turnText_infix_of_mem {entry : ℕ × Message × ℕ} (h : entry ∈ entries) :
    (turnText entry.2.1).toList <:+: (condensedTurns previous entries).toList := by
  have hline : (turnText entry.2.1).toList <:+: (entryLine entry).toList := by
    rw [entryLine, toList_append]
    exact (suffix_append _ _).isInfix
  have hlines : (entryLine entry).toList <:+: (String.intercalate "\n"
      ("Recent condensed turns:" :: entries.map entryLine)).toList :=
    Text.infix_intercalate (mem_cons_of_mem _ (mem_map_of_mem h))
  refine (hline.trans hlines).trans ?_
  unfold condensedTurns
  rw [toList_append]
  exact (suffix_append _ _).isInfix

/-- What the previous summary tells is told again. -/
theorem infix_condensedTurns {state : MemorySummaryState} {text : List Char}
    (hvisible : Text.Visible text) (h : text <:+: state.summary.toList) :
    text <:+: (condensedTurns (some state) entries).toList := by
  have htrim := Text.infix_trim hvisible h
  unfold condensedTurns
  dsimp only [Option.elim_some]
  rw [toList_append]
  refine List.IsInfix.trans ?_ (prefix_append _ _).isInfix
  split_ifs with hempty
  · rwa [hempty] at htrim
  · rw [toList_append]
    exact htrim.trans (prefix_append _ _).isInfix

end

/-! ## What an update summarizes -/

/-- The entries that an update summarizes, or none if no summary is due. -/
def AgentRuntime.summarizedEntries (rt : AgentRuntime) (context : Context)
    (summary_state : Option MemorySummaryState)
    (fetched : Except RuntimeError (Option Message)) :
    Except RuntimeError (List (ℕ × Message × ℕ)) := do
  if context.messages.length < rt.limits.summarization.min_turns then
    return []
  let unsummarized_history ← (unsummarized context summary_state).mapM fun (index, message) => do
    let message_tokens ← rt.estimateMessageTokens message
    pure (sequenceFromIndex index, message, message_tokens)
  if unsummarized_history.length < rt.limits.summarization.min_turns then
    return []
  let system_tokens ← rt.estimateMessagesTokens (systemMessages context summary_state)
  let history_tokens := unsummarized_history.foldl
    (fun accumulator entry => U64.saturatingAdd accumulator entry.2.2) 0
  let retrieval_message ← fetched
  let retrieved_memory_tokens ← match retrieval_message with
    | some message => rt.estimateMessageTokens message
    | none => pure 0
  let tool_schema_tokens ← rt.estimateToolSchemaTokens context
  let max_context_tokens ← rt.resolveMaxContextTokens context
  let total_tokens := U64.saturatingAdd (U64.saturatingAdd (U64.saturatingAdd (U64.saturatingAdd
    system_tokens history_tokens) retrieved_memory_tokens) tool_schema_tokens)
    rt.limits.context_budget.safety_buffer_tokens
  let utilization : ℚ :=
    if max_context_tokens = 0 then 0 else (total_tokens : ℚ) / max_context_tokens
  if utilization ≤ rt.limits.context_budget.trigger_ratio then
    return []
  let target_tokens := min ⌊(max_context_tokens : ℚ) * rt.limits.summarization.target_ratio⌋.toNat
    U64.max
  return unsummarized_history.take (summarizeCount target_tokens
    (unsummarized_history.map fun entry => entry.2.2) total_tokens)

section

variable {rt : AgentRuntime} {context : Context} {summary_state : Option MemorySummaryState}
  {fetched : Except RuntimeError (Option Message)}

/-- A new summary is composed of the entries, and reaches up to the last of them. -/
theorem rollingSummary_ok {loaded : Except RuntimeError (Option MemorySummaryState)}
    {expected_epoch : ℕ} {state : MemorySummaryState}
    (h : rt.rollingSummary context loaded fetched = .ok (some (expected_epoch, state))) :
    ∃ summary_state, loaded = .ok summary_state ∧
      ∃ entries, rt.summarizedEntries context summary_state fetched = .ok entries ∧
      state.upper_sequence = entries.getLast?.elim 0 Prod.fst ∧
      state.summary = composeRollingSummary summary_state entries := by
  unfold AgentRuntime.rollingSummary at h
  split_ifs at h with hturns
  · cases h
  obtain ⟨summary_state, hload, h⟩ := except_bind_eq_ok.mp h
  refine ⟨summary_state, hload, ?_⟩
  unfold AgentRuntime.summarizedEntries
  rw [if_neg hturns]
  obtain ⟨history, hhistory, h⟩ := except_bind_eq_ok.mp h
  rw [hhistory, except_ok_bind]
  split_ifs at h ⊢
  · cases h
  obtain ⟨system_tokens, hsystem, h⟩ := except_bind_eq_ok.mp h
  obtain ⟨retrieval, hretrieval, h⟩ := except_bind_eq_ok.mp h
  rw [hsystem, except_ok_bind, hretrieval, except_ok_bind]
  cases retrieval
  all_goals
    obtain ⟨retrieved_tokens, hretrieved, h⟩ := except_bind_eq_ok.mp h
    obtain ⟨schema_tokens, hschema, h⟩ := except_bind_eq_ok.mp h
    obtain ⟨max_tokens, hmax, h⟩ := except_bind_eq_ok.mp h
    dsimp only
    rw [hretrieved, except_ok_bind, hschema, except_ok_bind, hmax, except_ok_bind]
    dsimp only at h ⊢
    generalize (if max_tokens = 0 then (0 : ℚ) else _) = utilization at h ⊢
    generalize AgentRuntime.summarizeCount _ _ _ = count at h ⊢
    split_ifs at h ⊢
    · cases h
    · cases h
    · cases h
    · obtain ⟨-, rfl⟩ := Prod.mk.inj (Option.some.inj (ok.inj h))
      refine ⟨history.take count, rfl, ?_, rfl⟩
      cases (history.take count).getLast? with
      | none => rfl
      | some entry => rfl

/-- The entries are the oldest messages that are not summarized. -/
theorem summarizedEntries_eq {entries : List (ℕ × Message × ℕ)}
    (h : rt.summarizedEntries context summary_state fetched = .ok entries) :
    ∃ count, entries.map (fun entry => (entry.1, entry.2.1)) =
      ((AgentRuntime.unsummarized context summary_state).take count).map fun turn =>
        (sequenceFromIndex turn.1, turn.2) := by
  unfold AgentRuntime.summarizedEntries at h
  split_ifs at h
  · rw [← ok.inj h]
    exact ⟨0, rfl⟩
  obtain ⟨history, hhistory, h⟩ := except_bind_eq_ok.mp h
  have hmap := map_of_mapM_ok (p := fun entry => (entry.1, entry.2.1))
    (q := fun turn => (sequenceFromIndex turn.1, turn.2)) (fun turn entry hentry => by
      obtain ⟨tokens, -, hentry⟩ := except_bind_eq_ok.mp hentry
      rw [← ok.inj hentry]) hhistory
  split_ifs at h
  · rw [← ok.inj h]
    exact ⟨0, rfl⟩
  obtain ⟨system_tokens, -, h⟩ := except_bind_eq_ok.mp h
  obtain ⟨retrieval, -, h⟩ := except_bind_eq_ok.mp h
  cases retrieval
  all_goals
    obtain ⟨retrieved_tokens, -, h⟩ := except_bind_eq_ok.mp h
    obtain ⟨schema_tokens, -, h⟩ := except_bind_eq_ok.mp h
    obtain ⟨max_tokens, -, h⟩ := except_bind_eq_ok.mp h
    dsimp only at h
    generalize (if max_tokens = 0 then (0 : ℚ) else _) = utilization at h
    generalize AgentRuntime.summarizeCount _ _ _ = count at h
    split_ifs at h
    · rw [← ok.inj h]
      exact ⟨0, rfl⟩
    · refine ⟨count, ?_⟩
      rw [← ok.inj h, map_take, map_take, hmap]

/-- An entry is a message of the history, under its sequence. -/
theorem turn_of_entry {entries : List (ℕ × Message × ℕ)} {turns : List (ℕ × Message)}
    (hmap : entries.map (fun entry => (entry.1, entry.2.1)) =
      turns.map fun turn => (sequenceFromIndex turn.1, turn.2))
    {entry : ℕ × Message × ℕ} (hentry : entry ∈ entries) :
    ∃ turn ∈ turns, sequenceFromIndex turn.1 = entry.1 ∧ turn.2 = entry.2.1 := by
  have hpair : (entry.1, entry.2.1) ∈ entries.map fun entry => (entry.1, entry.2.1) :=
    mem_map_of_mem (f := fun entry => (entry.1, entry.2.1)) hentry
  rw [hmap] at hpair
  obtain ⟨turn, hturn, heq⟩ := mem_map.mp hpair
  exact ⟨turn, hturn, congrArg Prod.fst heq, congrArg Prod.snd heq⟩

/-- The history is a part of the transcript. -/
theorem lt_of_mem_unsummarized {turn : ℕ × Message}
    (h : turn ∈ AgentRuntime.unsummarized context summary_state) :
    turn.1 < context.messages.length := by
  have hget := Greedy.mem_indexed.mp (mem_filter.mp h).1
  exact (List.getElem?_eq_some_iff.mp hget).1

/-- The new upper sequence is one of the transcript. -/
theorem summarizedEntries_upper_le {entries : List (ℕ × Message × ℕ)}
    (h : rt.summarizedEntries context summary_state fetched = .ok entries) :
    entries.getLast?.elim 0 Prod.fst ≤ context.messages.length := by
  obtain ⟨count, hmap⟩ := summarizedEntries_eq h
  cases hlast : entries.getLast? with
  | none => exact Nat.zero_le _
  | some last =>
    obtain ⟨turn, hturn, hseq, -⟩ := turn_of_entry hmap (mem_of_getLast? hlast)
    calc last.1 = sequenceFromIndex turn.1 := hseq.symm
      _ ≤ turn.1 + 1 := min_le_left _ _
      _ ≤ context.messages.length := lt_of_mem_unsummarized (mem_of_mem_take hturn)

/-- The new upper sequence covers no message of the history but those that are summarized. -/
theorem summarizedEntries_covers {entries : List (ℕ × Message × ℕ)}
    (h : rt.summarizedEntries context summary_state fetched = .ok entries)
    (hlen : context.messages.length ≤ U64.max) {index : ℕ} {m : Message}
    (hm : (index, m) ∈ AgentRuntime.unsummarized context summary_state)
    (hupper : sequenceFromIndex index ≤ entries.getLast?.elim 0 Prod.fst) :
    ∃ entry ∈ entries, entry.2.1 = m := by
  obtain ⟨count, hmap⟩ := summarizedEntries_eq h
  have hindex : ∀ turn ∈ AgentRuntime.unsummarized context summary_state,
      sequenceFromIndex turn.1 = turn.1 + 1 := fun turn hturn =>
    U64.saturatingAdd_of_le (lt_of_lt_of_le (lt_of_mem_unsummarized hturn) hlen)
  have hsorted : (AgentRuntime.unsummarized context summary_state).Pairwise
      fun a b => a.1 < b.1 := (Greedy.indexed_sorted context.messages).filter _
  rw [← take_append_drop count (AgentRuntime.unsummarized context summary_state)] at hm hsorted
  obtain hm | hm := mem_append.mp hm
  · have hpair : (sequenceFromIndex index, m) ∈ entries.map fun entry => (entry.1, entry.2.1) := by
      rw [hmap]
      exact mem_map_of_mem (f := fun turn => (sequenceFromIndex turn.1, turn.2)) hm
    obtain ⟨entry, hentry, heq⟩ := mem_map.mp hpair
    exact ⟨entry, hentry, congrArg Prod.snd heq⟩
  · -- the messages that are left come after the last one that is summarized
    exfalso
    cases hlast : entries.getLast? with
    | none =>
      rw [hlast, hindex _ (mem_of_mem_drop hm)] at hupper
      exact absurd hupper (by simp)
    | some last =>
      obtain ⟨turn, hturn, hseq, -⟩ := turn_of_entry hmap (mem_of_getLast? hlast)
      have hbefore : turn.1 < index := (pairwise_append.mp hsorted).2.2 turn hturn _ hm
      rw [hlast, Option.elim_some, ← hseq, hindex turn (mem_of_mem_take hturn),
        hindex _ (mem_of_mem_drop hm)] at hupper
      omega

end

/-! ## The stored summary -/

/-- Whether a run has a rolling summary. -/
def RunEnv.summarizes (env : RunEnv) : Bool := env.rt.memory_retrieval && env.session_id.isSome

/-- The entries that an update of a run summarizes. -/
def dueEntries (env : RunEnv) (inp : TurnInput) (s : RunState) :
    Except RuntimeError (List (ℕ × Message × ℕ)) :=
  env.rt.summarizedEntries s.context s.memory.summary_state
    (env.rt.fetchRetrievedMemoryMessage env.session_id s.context inp.summary_query)

/-- What an update may leave of a summary: the one that was stored, or one that is composed of it
and of the entries that are summarized. -/
def Resummarized (env : RunEnv) (inp : TurnInput) (s t : RunState) : Prop :=
  t.context = s.context ∧
    (t.memory.summary_state = s.memory.summary_state ∨
      env.summarizes = true ∧ ∃ entries state, dueEntries env inp s = .ok entries ∧
        t.memory.summary_state = some state ∧
        state.upper_sequence = entries.getLast?.elim 0 Prod.fst ∧
        state.summary = composeRollingSummary s.memory.summary_state entries)

/-- Meeting a fault leaves the summary. -/
theorem nextFault_summary (memory : SessionMemory) :
    wp SessionMemory.nextFault (fun _ memory' => memory'.summary_state = memory.summary_state)
      (fun _ memory' => memory'.summary_state = memory.summary_state) memory := by
  unfold SessionMemory.nextFault
  simp only [wp_bind, wp_get]
  cases memory.faults with
  | nil => exact rfl
  | cons fault faults =>
    cases fault with
    | none => exact rfl
    | some e => exact rfl

/-- What is read is the stored summary. -/
theorem readSummaryState_spec (memory : SessionMemory) :
    wp SessionMemory.readSummaryState
      (fun loaded memory' => loaded = memory.summary_state ∧
        memory'.summary_state = memory.summary_state)
      (fun _ memory' => memory'.summary_state = memory.summary_state) memory := by
  unfold SessionMemory.readSummaryState
  simp only [wp_bind, wp_get, wp_pure]
  exact (nextFault_summary memory).mono (fun _ memory' h => ⟨h, h⟩) fun _ memory' h => h

/-- A write stores the state that it is given, or leaves the one that is there. -/
theorem writeSummaryState_summary (expected_epoch : ℕ) (state : MemorySummaryState)
    (memory : SessionMemory) :
    wp (SessionMemory.writeSummaryState expected_epoch state)
      (fun _ memory' => memory'.summary_state = memory.summary_state ∨
        memory'.summary_state = some state)
      (fun _ memory' => memory'.summary_state = memory.summary_state) memory := by
  unfold SessionMemory.writeSummaryState
  simp only [wp_ite, wp_throw, wp_bind]
  refine ⟨fun _ => trivial, fun _ => ?_⟩
  refine (nextFault_summary memory).mono (fun _ memory' h => ?_) fun _ memory' h => h
  simp only [wp_get]
  cases hstored : memory'.summary_state with
  | none =>
    simp only [wp_ite, wp_bind, wp_set, wp_pure]
    exact ⟨fun _ => Or.inr trivial, fun _ => Or.inl h⟩
  | some existing =>
    simp only [wp_ite, wp_bind, wp_set, wp_pure, wp_throw]
    exact ⟨fun _ => Or.inl h, fun _ => ⟨fun _ => h, fun _ => Or.inr trivial⟩⟩

/-- An update replaces the summary by the one that is due, if any. -/
theorem maybeTriggerRollingSummary_summary (env : RunEnv) (inp : TurnInput) (s : RunState) :
    wp (maybeTriggerRollingSummary env inp) (fun _ t => Resummarized env inp s t)
      (fun _ t => Resummarized env inp s t) s := by
  have hrefl : Resummarized env inp s s := ⟨rfl, Or.inl rfl⟩
  unfold maybeTriggerRollingSummary
  simp only [wp_ite, wp_bind, wp_get, wp_pure]
  refine ⟨fun hretrieval => ⟨fun _ => hrefl, fun _ => ?_⟩, fun _ => hrefl⟩
  have hload : wp (loadSummaryState env) (fun loaded t => (∀ state, loaded = .ok state →
      state = s.memory.summary_state) ∧ t.context = s.context ∧
      t.memory.summary_state = s.memory.summary_state) (fun _ _ => False) s := by
    have hread := readSummaryState_spec s.memory
    unfold wp loadSummaryState
    rw [if_pos hretrieval]
    cases hres : SessionMemory.readSummaryState s.memory with
    | ok loaded memory =>
      obtain ⟨hloaded, hkept⟩ := hread.ok hres
      exact ⟨fun state hstate => (ok.inj hstate).symm.trans hloaded, rfl, hkept⟩
    | error e memory => exact ⟨fun state hstate => (by cases hstate), rfl, hread.error hres⟩
  refine hload.mono (fun loaded t ht => ?_) (fun _ _ h => h.elim)
  obtain ⟨hloaded, hcontext, hsummary⟩ := ht
  rw [wp_ofExcept]
  refine ⟨fun due hdue => ?_, fun _ _ => ⟨hcontext, Or.inl hsummary⟩⟩
  cases due with
  | none => exact ⟨hcontext, Or.inl hsummary⟩
  | some due =>
    simp only [wp_bind, wp_liftMemory, wp_pure]
    refine (writeSummaryState_summary _ _ _).mono (fun _ memory h => ⟨hcontext, ?_⟩)
      fun _ memory h => ⟨hcontext, Or.inl (h.trans hsummary)⟩
    refine h.imp (fun h => h.trans hsummary) fun h => ?_
    obtain ⟨summary_state, hok, entries, hentries, hupper, htext⟩ := rollingSummary_ok hdue
    obtain rfl := hloaded summary_state hok
    exact ⟨hretrieval, entries, due.2, hentries, h, hupper, htext⟩

end Oxydra
