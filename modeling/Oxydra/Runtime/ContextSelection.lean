import Mathlib.Data.List.Sort
import Oxydra.Library.Effect
import Oxydra.Runtime.ContextBudget

/-!
# What reaches the model

Which messages of a context the provider context of `Runtime/ContextBudget.lean` holds. The history
is told by the positions of its messages: `keptHistory` is the part that is not summarized and that
the newest-first size test admits, and `prepareProviderContext_cases` says that a returned context
is the input itself or that part behind system messages.

The guarantee for the latest user message is checked on the history after the summary cut, so it
covers the last user message exactly when the summary does not stand for it
(`latest_user_kept_iff`). The cut and the size test both look at one message at a time: `HasRoom` says
of the sizes of the messages, the limit, and the summary's last sequence number which ones are kept,
and a call and its answer stay together exactly when both or neither have room (`pairing_kept`).
-/

namespace Oxydra

open Except List

variable {K : List (ℕ × Message)} {m : Message} {already_used budget i used : ℕ}

namespace AgentRuntime

variable (rt : AgentRuntime)

/-- The tokens of a message, when the tokenizer is there. -/
def messageTokens (message : Message) : ℕ :=
  match rt.count_tokens with
  | some count => count (rt.message_json message)
  | none => 0

/-- The history that a provider context keeps, with its positions: what the summary does not stand
for, as far as it fits, from the newest message to the oldest. -/
def keptHistory (context : Context) (summary_state : Option MemorySummaryState)
    (plan : ContextPlan) : List (ℕ × Message) :=
  if plan.message_budget ≤ plan.system_tokens then []
  else
    (Greedy.take (rt.messageTokens ∘ Prod.snd) plan.message_budget plan.system_tokens 0
      (unsummarized context summary_state).reverse).reverse

variable {rt} {context ctx' : Context} {summary_state : Option MemorySummaryState}
  {plan : ContextPlan}

/-- The fold of `select_messages_within_budget` is the greedy selection. -/
theorem foldlM_admitMessage :
    ∀ {messages sel : List Message} {acc : List Message × ℕ} {used : ℕ},
    messages.foldlM (rt.admitMessage budget already_used) acc = .ok (sel, used) →
    sel = (Greedy.take rt.messageTokens budget already_used acc.2 messages).reverse ++ acc.1 ∧
      used = Greedy.spent budget already_used acc.2 (messages.map rt.messageTokens)
  | [], sel, acc, used, h => by
    simp only [foldlM_nil, pure, Except.pure, ok.injEq] at h
    rw [h]
    exact ⟨rfl, rfl⟩
  | m :: ms, sel, acc, used, h => by
    rw [foldlM_cons] at h
    cases htokens : rt.count_tokens with
    -- without a tokenizer the first estimate fails
    | none => simp [admitMessage, estimateMessageTokens, estimateTextTokens, htokens, bind,
        Except.bind] at h
    | some count =>
      have hsize : rt.messageTokens m = count (rt.message_json m) := by
        simp only [messageTokens, htokens]
      have hadmitted : rt.admitMessage budget already_used acc m =
          if U64.saturatingAdd (U64.saturatingAdd already_used acc.2) (rt.messageTokens m) ≤ budget
          then .ok (m :: acc.1, U64.saturatingAdd acc.2 (rt.messageTokens m)) else .ok acc := by
        simp only [admitMessage, estimateMessageTokens, estimateTextTokens, htokens, hsize]
        rfl
      rw [hadmitted] at h
      simp only [Greedy.take, map_cons, Greedy.spent]
      split_ifs at h ⊢ with hfits
      · obtain ⟨hsel, hused⟩ := foldlM_admitMessage h
        exact ⟨by rw [hsel]; simp, hused⟩
      · exact foldlM_admitMessage h

/-- What `select_messages_within_budget` selects of numbered messages. -/
theorem selectMessagesWithinBudget_spec {messages : List (ℕ × Message)} {sel : List Message}
    (h : rt.selectMessagesWithinBudget (messages.map Prod.snd) budget already_used =
      .ok (sel, used)) :
    sel = (if budget ≤ already_used then []
      else (Greedy.take (rt.messageTokens ∘ Prod.snd) budget already_used 0
        messages.reverse).reverse).map Prod.snd := by
  unfold selectMessagesWithinBudget at h
  split_ifs at h ⊢ with hfull
  · simp only [ok.injEq, Prod.mk.injEq] at h
    exact h.1.symm
  · rw [(foldlM_admitMessage h).1, append_nil, map_reverse, Greedy.map_take,
      map_reverse]

/-- The tokens that `select_messages_within_budget` counts, of a budget that is not used up. -/
theorem selectMessagesWithinBudget_used {messages sel : List Message}
    (hroom : already_used < budget)
    (h : rt.selectMessagesWithinBudget messages budget already_used = .ok (sel, used)) :
    used = Greedy.spent budget already_used 0 (messages.reverse.map rt.messageTokens) := by
  unfold selectMessagesWithinBudget at h
  rw [if_neg (by omega)] at h
  exact (foldlM_admitMessage h).2

/-- What is selected was there to select. -/
theorem selectMessagesWithinBudget_subset {messages sel : List Message}
    (h : rt.selectMessagesWithinBudget messages budget already_used = .ok (sel, used)) :
    ∀ m ∈ sel, m ∈ messages := by
  unfold selectMessagesWithinBudget at h
  split_ifs at h
  · simp only [ok.injEq, Prod.mk.injEq] at h
    rw [← h.1]
    simp
  · rw [(foldlM_admitMessage h).1]
    intro m hm
    rw [append_nil, mem_reverse] at hm
    exact mem_reverse.mp ((Greedy.take_sublist _ _ _ _ _).subset hm)

/-- The retrieved snippets are a system message. -/
theorem fetchRetrievedMemoryMessage_role {session_id : Option String}
    {hybrid_query : String → Except MemoryError (List MemoryHybridQueryResult)}
    (h : rt.fetchRetrievedMemoryMessage session_id context hybrid_query = .ok (some m)) :
    m.role = .system := by
  unfold fetchRetrievedMemoryMessage retrievedMemoryMessage at h
  split_ifs at h
  · split at h
    · simp at h
    · split at h
      · simp at h
      · simp only [ok.injEq] at h
        split_ifs at h
        rw [← Option.some.inj h]
  · simp at h

/-- The summary is shown by a system message. -/
theorem summaryStateMessage_role {state : MemorySummaryState}
    (h : summaryStateMessage state = some m) : m.role = .system := by
  unfold summaryStateMessage at h
  simp only at h
  split_ifs at h
  rw [← Option.some.inj h]

/-- The snippets that are admitted are the ones that were fetched. -/
theorem admitRetrieved_subset {retrieval_message : Option Message} {static max_tokens tokens : ℕ}
    {retrieved : List Message}
    (h : rt.admitRetrieved retrieval_message static max_tokens = .ok (retrieved, tokens)) :
    ∀ m ∈ retrieved, retrieval_message = some m := by
  unfold admitRetrieved at h
  split at h
  · simp only [ok.injEq, Prod.mk.injEq] at h
    rw [← h.1]
    simp
  · obtain ⟨candidate, -, h⟩ := Effect.except_bind_eq_ok.mp h
    split_ifs at h <;> simp only [pure, Except.pure, ok.injEq, Prod.mk.injEq] at h <;>
      rw [← h.1] <;> simp

/-- What the plan selects before the history are system messages. -/
theorem planContext_system {max_context_tokens : ℕ}
    {fetched : Except RuntimeError (Option Message)}
    (hfetched : ∀ m, fetched = .ok (some m) → m.role = .system)
    (h : rt.planContext context max_context_tokens summary_state fetched = .ok plan) :
    ∀ m ∈ plan.selected_system ++ plan.retrieved_messages, m.role = .system := by
  unfold planContext at h
  obtain ⟨tools, -, h⟩ := Effect.except_bind_eq_ok.mp h
  simp only at h
  split_ifs at h
  obtain ⟨retrieval, hretrieval, h⟩ := Effect.except_bind_eq_ok.mp h
  obtain ⟨⟨retrieved, retrieved_tokens⟩, hadmitted, h⟩ := Effect.except_bind_eq_ok.mp h
  obtain ⟨⟨system, system_tokens⟩, hsystem, h⟩ := Effect.except_bind_eq_ok.mp h
  simp only [pure, Except.pure, ok.injEq] at h
  subst h
  intro m hm
  rcases mem_append.mp hm with hm | hm
  · have hmem := selectMessagesWithinBudget_subset hsystem m hm
    rcases mem_append.mp hmem with hmem | hmem
    · simpa using (mem_filter.mp hmem).2
    · rw [Option.mem_toList] at hmem
      obtain ⟨state, -, hstate⟩ := Option.bind_eq_some_iff.mp hmem
      exact summaryStateMessage_role hstate
  · have hsome := admitRetrieved_subset hadmitted m hm
    exact hfetched m (by rw [hretrieval, hsome])

/-- What a returned provider context is: the context itself on the fast path, and else the kept
history, which holds the latest user message of what the summary does not stand for, behind system
messages. -/
theorem prepareProviderContext_cases {session_id : Option String}
    {hybrid_query : String → Except MemoryError (List MemoryHybridQueryResult)}
    (h : rt.prepareProviderContext context (.ok summary_state)
      (rt.fetchRetrievedMemoryMessage session_id context hybrid_query) = .ok ctx') :
    ∃ max_context_tokens, rt.resolveMaxContextTokens context = .ok max_context_tokens ∧
      ((rt.fastPath context max_context_tokens summary_state = true ∧ ctx' = context) ∨
        (rt.fastPath context max_context_tokens summary_state = false ∧ ∃ plan front,
          rt.planContext context max_context_tokens summary_state
            (rt.fetchRetrievedMemoryMessage session_id context hybrid_query) = .ok plan ∧
          (∀ m ∈ front, m.role = .system) ∧
          (∀ m, latestUser ((unsummarized context summary_state).map Prod.snd) = some m →
            m ∈ (rt.keptHistory context summary_state plan).map Prod.snd) ∧
          ctx'.messages = front ++ (rt.keptHistory context summary_state plan).map Prod.snd)) := by
  unfold prepareProviderContext at h
  obtain ⟨max_context_tokens, hmax, h⟩ := Effect.except_bind_eq_ok.mp h
  obtain ⟨summary, hsummary, h⟩ := Effect.except_bind_eq_ok.mp h
  obtain rfl : summary_state = summary := ok.inj hsummary
  refine ⟨max_context_tokens, hmax, ?_⟩
  split_ifs at h with hfast
  · simp only [pure, Except.pure, ok.injEq] at h
    exact Or.inl ⟨hfast, h.symm⟩
  · obtain ⟨plan, hplan, h⟩ := Effect.except_bind_eq_ok.mp h
    unfold selectHistory at h
    obtain ⟨⟨selected, history_tokens⟩, hselected, h⟩ := Effect.except_bind_eq_ok.mp h
    have hkept : selected = (rt.keptHistory context summary_state plan).map Prod.snd :=
      selectMessagesWithinBudget_spec hselected
    simp only at h
    -- both checks have passed
    split_ifs at h with hlatest htotal
    simp only [pure, Except.pure, ok.injEq] at h
    refine Or.inr ⟨by simpa using hfast, plan,
      plan.selected_system ++ plan.retrieved_messages, hplan, ?_, ?_, ?_⟩
    · exact planContext_system (fun m hm => fetchRetrievedMemoryMessage_role hm) hplan
    · intro m hm
      rw [hm] at hlatest
      rw [← hkept]
      simpa using hlatest
    · rw [← h, ← hkept]

/-- The unsummarized history, by position. -/
theorem mem_unsummarized :
    (i, m) ∈ unsummarized context summary_state ↔ context.messages[i]? = some m ∧
      m.role ≠ .system ∧ isSummarizedSequence summary_state i = false := by
  unfold unsummarized
  rw [mem_filter, Greedy.mem_indexed]
  simp

/-- Positions grow along the unsummarized history. -/
theorem unsummarized_sorted (context : Context) (summary_state : Option MemorySummaryState) :
    (unsummarized context summary_state).Pairwise fun a b => a.1 < b.1 :=
  (Greedy.indexed_sorted context.messages).filter _

/-- What is kept of the history stands in its order. -/
theorem keptHistory_sublist (rt : AgentRuntime) (context : Context)
    (summary_state : Option MemorySummaryState) (plan : ContextPlan) :
    (rt.keptHistory context summary_state plan).Sublist (unsummarized context summary_state) := by
  unfold keptHistory
  split_ifs
  · exact nil_sublist _
  · rw [reverse_sublist.symm, reverse_reverse]
    exact Greedy.take_sublist _ _ _ _ _

/-! ## The latest user message -/

/-- `m` is the last user message, at position `i`. -/
structure IsLastUser (messages : List Message) (i : ℕ) (m : Message) : Prop where
  at_index : messages[i]? = some m
  role : m.role = .user
  last : ∀ j n, i < j → messages[j]? = some n → n.role ≠ .user

/-- A summary that stands for a message stands for every earlier one. -/
theorem isSummarizedSequence_of_le {i j : ℕ} (hij : j ≤ i)
    (h : isSummarizedSequence summary_state i = true) :
    isSummarizedSequence summary_state j = true := by
  unfold isSummarizedSequence sequenceFromIndex U64.saturatingAdd at *
  split at h
  · simp only [Bool.and_eq_true, decide_eq_true_eq] at h ⊢
    omega
  · exact h

/-- The latest user message of the unsummarized history is the last user message, if the summary
does not stand for that. -/
theorem latestUser_unsummarized (hlast : IsLastUser context.messages i m)
    (hcut : isSummarizedSequence summary_state i = false) :
    latestUser ((unsummarized context summary_state).map Prod.snd) = some m := by
  have hmem : (i, m) ∈ unsummarized context summary_state :=
    mem_unsummarized.mpr ⟨hlast.at_index, by rw [hlast.role]; decide, hcut⟩
  obtain ⟨before, after, hsplit⟩ := append_of_mem hmem
  have hsorted := unsummarized_sorted context summary_state
  rw [hsplit, pairwise_append] at hsorted
  obtain ⟨-, hafter, -⟩ := hsorted
  rw [latestUser, hsplit, List.find?_eq_some_iff_append]
  refine ⟨by simp [hlast.role], (after.map Prod.snd).reverse, (before.map Prod.snd).reverse,
    by simp, ?_⟩
  -- what stands after it has a later position, so it is no user message
  intro n hn
  obtain ⟨⟨j, n⟩, hj, rfl⟩ := mem_map.mp (mem_reverse.mp hn)
  have hij : i < j := (pairwise_cons.mp hafter).1 _ hj
  have hjn : (j, n) ∈ unsummarized context summary_state := by
    rw [hsplit]
    exact mem_append_right _ (mem_cons_of_mem _ hj)
  simpa using hlast.last j n hij (mem_unsummarized.mp hjn).1

/-- The last user message reaches the model exactly when the summary does not stand for it. -/
theorem latest_user_kept_iff {session_id : Option String}
    {hybrid_query : String → Except MemoryError (List MemoryHybridQueryResult)} {i : ℕ}
    {m : Message} (hlast : IsLastUser context.messages i m)
    (h : rt.prepareProviderContext context (.ok summary_state)
      (rt.fetchRetrievedMemoryMessage session_id context hybrid_query) = .ok ctx') :
    m ∈ ctx'.messages ↔ isSummarizedSequence summary_state i = false := by
  obtain ⟨max_context_tokens, -, ⟨hfast, rfl⟩ | ⟨-, plan, front, -, hfront, hlatest, hmessages⟩⟩ :=
    prepareProviderContext_cases h
  · -- the fast path is taken without a summary only
    have hnone : summary_state = none := by
      simp only [fastPath, Bool.and_eq_true, Option.isNone_iff_eq_none] at hfast
      exact hfast.1.2
    subst hnone
    exact ⟨fun _ => rfl, fun _ => mem_of_getElem? hlast.at_index⟩
  rw [hmessages, mem_append]
  constructor
  · rintro (hm | hm)
    · have hrole := hfront m hm
      rw [hlast.role] at hrole
      simp at hrole
    · obtain ⟨⟨j, m'⟩, hkept, rfl⟩ := mem_map.mp hm
      have hj := mem_unsummarized.mp ((keptHistory_sublist rt _ _ plan).subset hkept)
      -- the same text may stand at an earlier place, which the summary stands for as well
      have hji : j ≤ i := by
        by_contra hlt
        exact hlast.last j m' (by omega) hj.1 hlast.role
      by_contra hcut
      rw [isSummarizedSequence_of_le hji (by simpa using hcut)] at hj
      simp at hj
  · intro hcut
    exact Or.inr (hlatest m (latestUser_unsummarized hlast hcut))

end AgentRuntime

/-- An assistant message that asks for one call, and the tool message that answers it. -/
def callAndAnswer (id name output : String) : List Message :=
  [{ role := .assistant, tool_calls := [⟨id, name, .object [], none⟩] },
    { role := .tool, content := some output, tool_call_id := some id }]

/-- The question of a user. -/
def question : Message := { role := .user, content := some "Any errors?" }

/-- One question, and three calls on the way to its answer. -/
def threeLogs : Context where
  provider := "openai"
  model := "gpt-4o"
  messages := question :: (callAndAnswer "c1" "grep" "no" ++ callAndAnswer "c2" "grep" "no" ++
    callAndAnswer "c3" "grep" "two")

namespace AgentRuntime

/-- The summary that the runtime writes of the first four messages above. -/
def threeLogsSummary : MemorySummaryState where
  epoch := 1
  upper_sequence := 4
  summary := "Recent condensed turns:\n- [1] user: Any errors?\n- [2] assistant: " ++
    "[tool calls: grep]\n- [3] tool: no\n- [4] assistant: [tool calls: grep]"

/-- The question is the last user message above. -/
theorem question_isLastUser : IsLastUser threeLogs.messages 0 question := by
  refine ⟨rfl, rfl, fun j n hj hn => ?_⟩
  have hall : ∀ n ∈ threeLogs.messages.drop 1, n.role ≠ .user := by decide
  refine hall n (mem_of_getElem? (i := j - 1) ?_)
  rw [List.getElem?_drop, show 1 + (j - 1) = j by omega]
  exact hn

/-- A user's question outlives a long tool loop only until the rolling summary covers it: from then
on the model is called without it. -/
theorem summarized_user_lost :
    (smallRuntime 120 true).rollingSummary threeLogs (.ok none) (.ok none) =
        .ok (some (0, threeLogsSummary)) ∧
      IsLastUser threeLogs.messages 0 question ∧
      ∃ ctx', (smallRuntime 120 true).prepareProviderContext threeLogs
        (.ok (some threeLogsSummary)) ((smallRuntime 120 true).fetchRetrievedMemoryMessage
          (some "runtime-alice") threeLogs fun _ => .ok []) = .ok ctx' ∧
        question ∉ ctx'.messages := by
  refine ⟨?_, question_isLastUser, ?_⟩
  · have hsome : some (0, threeLogsSummary) ∈
        ((smallRuntime 120 true).rollingSummary threeLogs (.ok none) (.ok none)).toOption := by
      decide +kernel
    exact Effect.mem_toOption.mp hsome
  · have hlost : ∃ ctx' ∈ ((smallRuntime 120 true).prepareProviderContext threeLogs
        (.ok (some threeLogsSummary)) ((smallRuntime 120 true).fetchRetrievedMemoryMessage
          (some "runtime-alice") threeLogs fun _ => .ok [])).toOption,
        question ∉ ctx'.messages := by decide +kernel
    exact hlost.imp fun ctx' h => ⟨Effect.mem_toOption.mp h.1, h.2⟩

/-- With room for every message the question is kept. -/
theorem question_kept :
    ∃ ctx', (smallRuntime 2000 true).prepareProviderContext threeLogs (.ok none)
        ((smallRuntime 2000 true).fetchRetrievedMemoryMessage (some "runtime-alice") threeLogs
          fun _ => .ok []) = .ok ctx' ∧ question ∈ ctx'.messages := by
  obtain ⟨ctx', hctx⟩ := Option.isSome_iff_exists.mp (by decide :
    ((smallRuntime 2000 true).prepareProviderContext threeLogs (.ok none)
      ((smallRuntime 2000 true).fetchRetrievedMemoryMessage (some "runtime-alice") threeLogs
        fun _ => .ok [])).toOption.isSome)
  have hok := Effect.mem_toOption.mp hctx
  exact ⟨ctx', hok, (latest_user_kept_iff question_isLastUser hok).mpr rfl⟩

/-! ## Calls and their answers -/

/-- `n` answers a call of `m` that has the given id. -/
def AnswersCall (m n : Message) (id : String) : Prop :=
  m.role = .assistant ∧ n.role = .tool ∧ n.tool_call_id = some id ∧ ∃ c ∈ m.tool_calls, c.id = id

/-- Calls and answers are paired: every call of an assistant message is answered by a later tool
message, and every tool message answers a call of an earlier assistant message. -/
structure Paired (messages : List Message) : Prop where
  answered : ∀ (a : ℕ) m, messages[a]? = some m → m.role = .assistant → ∀ c ∈ m.tool_calls,
    ∃ t n, messages[t]? = some n ∧ a < t ∧ AnswersCall m n c.id
  issued : ∀ (t : ℕ) n, messages[t]? = some n → n.role = .tool →
    ∃ a m id, messages[a]? = some m ∧ a < t ∧ AnswersCall m n id

/-- The same of messages with positions. -/
structure PairedOn (K : List (ℕ × Message)) : Prop where
  answered : ∀ a m, (a, m) ∈ K → m.role = .assistant → ∀ c ∈ m.tool_calls,
    ∃ t n, (t, n) ∈ K ∧ a < t ∧ AnswersCall m n c.id
  issued : ∀ t n, (t, n) ∈ K → n.role = .tool →
    ∃ a m id, (a, m) ∈ K ∧ a < t ∧ AnswersCall m n id

/-- Where a message that is no system message stands behind a front of system messages. -/
theorem getElem?_behind {front : List Message} {k : ℕ} (hfront : ∀ m ∈ front, m.role = .system)
    (hm : m.role ≠ .system) :
    (front ++ K.map Prod.snd)[k]? = some m ↔
      ∃ j i, k = front.length + j ∧ K[j]? = some (i, m) := by
  by_cases hk : k < front.length
  · rw [List.getElem?_append_left hk]
    constructor
    · intro h
      exact absurd (hfront m (mem_of_getElem? h)) hm
    · rintro ⟨j, i, hj, -⟩
      omega
  · rw [List.getElem?_append_right (by omega), List.getElem?_map]
    constructor
    · intro h
      obtain ⟨⟨i, m'⟩, hi, rfl⟩ := Option.map_eq_some_iff.mp h
      exact ⟨k - front.length, i, by omega, hi⟩
    · rintro ⟨j, i, rfl, hj⟩
      rw [Nat.add_sub_cancel_left, hj]
      rfl

/-- Along sorted positions, earlier in the list is at a smaller position. -/
theorem lt_iff_of_sorted (hK : K.Pairwise fun a b => a.1 < b.1) {j j' i i' : ℕ} {m m' : Message}
    (hj : K[j]? = some (i, m)) (hj' : K[j']? = some (i', m')) :
    j < j' ↔ i < i' := by
  have hmono : ∀ {j j' i i' : ℕ} {m m' : Message}, K[j]? = some (i, m) → K[j']? = some (i', m') →
      j < j' → i < i' := by
    intro j j' i i' m m' hj hj' hlt
    obtain ⟨hlen, he⟩ := List.getElem?_eq_some_iff.mp hj
    obtain ⟨hlen', he'⟩ := List.getElem?_eq_some_iff.mp hj'
    have := pairwise_iff_getElem.mp hK j j' hlen hlen' hlt
    rw [he, he'] at this
    exact this
  refine ⟨hmono hj hj', fun hlt => ?_⟩
  rcases lt_trichotomy j j' with h | rfl | h
  · exact h
  · rw [hj] at hj'
    have : i = i' := by simpa using congrArg Prod.fst (Option.some.inj hj')
    omega
  · have := hmono hj' hj h
    omega

/-- Pairing of a list behind system messages is pairing of its positions. -/
theorem paired_iff_pairedOn {front : List Message} (hfront : ∀ m ∈ front, m.role = .system)
    (hK : K.Pairwise fun a b => a.1 < b.1) :
    Paired (front ++ K.map Prod.snd) ↔ PairedOn K := by
  have hassistant : ∀ {m : Message}, m.role = .assistant → m.role ≠ .system := by
    intro m hm
    rw [hm]
    decide
  have htool : ∀ {m : Message}, m.role = .tool → m.role ≠ .system := by
    intro m hm
    rw [hm]
    decide
  -- calls and answers are not in front, so both sides speak of the same messages
  constructor
  · intro h
    refine ⟨fun a m ha hm c hc => ?_, fun t n ht hn => ?_⟩
    · obtain ⟨j, hj⟩ := mem_iff_getElem?.mp ha
      obtain ⟨k, n, hk, hlt, hans⟩ := h.answered (front.length + j) m
        ((getElem?_behind hfront (hassistant hm)).mpr ⟨j, a, rfl, hj⟩) hm c hc
      obtain ⟨j', t, rfl, hj'⟩ := (getElem?_behind hfront (htool hans.2.1)).mp hk
      exact ⟨t, n, mem_of_getElem? hj', (lt_iff_of_sorted hK hj hj').mp (by omega), hans⟩
    · obtain ⟨j, hj⟩ := mem_iff_getElem?.mp ht
      obtain ⟨k, m, id, hk, hlt, hans⟩ := h.issued (front.length + j) n
        ((getElem?_behind hfront (htool hn)).mpr ⟨j, t, rfl, hj⟩) hn
      obtain ⟨j', a, rfl, hj'⟩ := (getElem?_behind hfront (hassistant hans.1)).mp hk
      exact ⟨a, m, id, mem_of_getElem? hj', (lt_iff_of_sorted hK hj' hj).mp (by omega), hans⟩
  · intro h
    refine ⟨fun k m hk hm c hc => ?_, fun k n hk hn => ?_⟩
    · obtain ⟨j, a, rfl, hj⟩ := (getElem?_behind hfront (hassistant hm)).mp hk
      obtain ⟨t, n, ht, hlt, hans⟩ := h.answered a m (mem_of_getElem? hj) hm c hc
      obtain ⟨j', hj'⟩ := mem_iff_getElem?.mp ht
      have := (lt_iff_of_sorted hK hj hj').mpr hlt
      exact ⟨front.length + j', n,
        (getElem?_behind hfront (htool hans.2.1)).mpr ⟨j', t, rfl, hj'⟩, by omega, hans⟩
    · obtain ⟨j, t, rfl, hj⟩ := (getElem?_behind hfront (htool hn)).mp hk
      obtain ⟨a, m, id, ha, hlt, hans⟩ := h.issued t n (mem_of_getElem? hj) hn
      obtain ⟨j', hj'⟩ := mem_iff_getElem?.mp ha
      have := (lt_iff_of_sorted hK hj' hj).mpr hlt
      exact ⟨front.length + j', m, id,
        (getElem?_behind hfront (hassistant hans.1)).mpr ⟨j', a, rfl, hj'⟩, by omega, hans⟩

variable {rt : AgentRuntime} {context ctx' : Context} {summary_state : Option MemorySummaryState}
  {plan : ContextPlan}

/-- The provider context keeps the message at a position of the history. -/
def Keeps (rt : AgentRuntime) (context : Context) (summary_state : Option MemorySummaryState)
    (plan : ContextPlan) (i : ℕ) : Prop :=
  ∃ m, (i, m) ∈ rt.keptHistory context summary_state plan

/-- What is kept stands at its position of the context. -/
theorem mem_keptHistory (h : (i, m) ∈ rt.keptHistory context summary_state plan) :
    context.messages[i]? = some m :=
  (mem_unsummarized.mp ((keptHistory_sublist rt _ _ plan).subset h)).1

/-- A kept position keeps the message that stands there. -/
theorem Keeps.mem (h : Keeps rt context summary_state plan i) (hm : context.messages[i]? = some m) :
    (i, m) ∈ rt.keptHistory context summary_state plan := by
  obtain ⟨m', hm'⟩ := h
  have := mem_keptHistory hm'
  rw [hm] at this
  rw [Option.some.inj this]
  exact hm'

/-! ### Which messages have room -/

section

variable (rt : AgentRuntime) (context : Context)

/-- The tokens of the tool schemas, when the tokenizer is there. -/
def toolTokens : ℕ :=
  match rt.count_tokens with
  | some count => count (rt.tools_json context.tools)
  | none => 0

/-- The budget of the messages: the limit without the tools, the safety buffer, and the retrieved
snippets where they fit beside these. -/
def messageBudget (limit : ℕ) (snippets : Option Message) :
    ℕ :=
  let fixed := U64.saturatingAdd (rt.toolTokens context) rt.limits.context_budget.safety_buffer_tokens
  let retrieved := match snippets with
    | some m =>
      if U64.saturatingAdd fixed (rt.messageTokens m) ≤ limit then rt.messageTokens m else 0
    | none => 0
  limit - fixed - retrieved

/-- What the system messages that fit take of the budget. -/
def systemTokens (summary_state : Option MemorySummaryState) (budget : ℕ) : ℕ :=
  Greedy.spent budget 0 0 ((systemMessages context summary_state).reverse.map rt.messageTokens)

/-- The tokens of the history behind a position, the newest message first. -/
def newerTokens (i : ℕ) : List ℕ :=
  ((context.messages.drop (i + 1)).filter (·.role ≠ .system)).reverse.map rt.messageTokens

/-- The message at a position has room: the summary does not stand for its sequence number, the
system messages leave something of the budget, and it fits beside the newer messages that fit. -/
def HasRoom (summary_state : Option MemorySummaryState)
    (limit : ℕ) (snippets : Option Message) (i : ℕ) (m : Message) : Prop :=
  let budget := rt.messageBudget context limit snippets
  let system := rt.systemTokens context summary_state budget
  isSummarizedSequence summary_state i = false ∧ system < budget ∧
    U64.saturatingAdd
      (U64.saturatingAdd system (Greedy.spent budget system 0 (rt.newerTokens context i)))
      (rt.messageTokens m) ≤ budget

end

instance (rt : AgentRuntime) (context : Context) (summary_state : Option MemorySummaryState)
    (limit : ℕ) (snippets : Option Message) (i : ℕ) (m : Message) :
    Decidable (rt.HasRoom context summary_state limit snippets i m) :=
  inferInstanceAs (Decidable (_ ∧ _ ∧ _))

/-- Off the fast path, every call and its answer both have room, or neither has. -/
def PairsTreatedAlike (rt : AgentRuntime) (context : Context)
    (summary_state : Option MemorySummaryState)
    (fetched : Except RuntimeError (Option Message)) : Prop :=
  ∀ limit snippets, rt.resolveMaxContextTokens context = .ok limit →
    rt.fastPath context limit summary_state = false → fetched = .ok snippets →
    ∀ (a t : ℕ) m n id, context.messages[a]? = some m → context.messages[t]? = some n → a < t →
      AnswersCall m n id → (rt.HasRoom context summary_state limit snippets a m ↔
        rt.HasRoom context summary_state limit snippets t n)

/-- The budgets of a plan, in terms of sizes. -/
theorem planContext_budgets {limit : ℕ} {fetched : Except RuntimeError (Option Message)}
    (h : rt.planContext context limit summary_state fetched = .ok plan) :
    ∃ snippets, fetched = .ok snippets ∧
      plan.message_budget = rt.messageBudget context limit snippets ∧
      (0 < plan.message_budget →
        plan.system_tokens = rt.systemTokens context summary_state plan.message_budget) := by
  unfold planContext at h
  obtain ⟨tools, htools, h⟩ := Effect.except_bind_eq_ok.mp h
  simp only at h
  split_ifs at h
  obtain ⟨snippets, hsnippets, h⟩ := Effect.except_bind_eq_ok.mp h
  obtain ⟨⟨retrieved, retrieved_tokens⟩, hadmitted, h⟩ := Effect.except_bind_eq_ok.mp h
  obtain ⟨⟨system, system_tokens⟩, hsystem, h⟩ := Effect.except_bind_eq_ok.mp h
  simp only [pure, Except.pure, ok.injEq] at h
  subst h
  refine ⟨snippets, hsnippets, ?_, fun hroom => selectMessagesWithinBudget_used hroom hsystem⟩
  -- the tokenizer is there, for the schemas have been counted
  cases hcount : rt.count_tokens with
  | none => simp [estimateToolSchemaTokens, estimateTextTokens, hcount] at htools
  | some count =>
    obtain rfl : rt.toolTokens context = tools := by
      simpa [estimateToolSchemaTokens, estimateTextTokens, hcount, toolTokens] using htools
    unfold messageBudget
    cases snippets with
    | none =>
      obtain rfl : 0 = retrieved_tokens := congrArg Prod.snd (ok.inj hadmitted)
      rfl
    | some m =>
      have hsize : rt.messageTokens m = count (rt.message_json m) := by
        simp only [messageTokens, hcount]
      simp only [admitRetrieved, estimateMessageTokens, estimateTextTokens, hcount, bind,
        Except.bind, ← hsize] at hadmitted
      split_ifs at hadmitted with hfits
      · obtain rfl : rt.messageTokens m = retrieved_tokens :=
          congrArg Prod.snd (ok.inj hadmitted)
        simp only [hfits, if_true]
      · obtain rfl : 0 = retrieved_tokens := congrArg Prod.snd (ok.inj hadmitted)
        simp only [hfits, if_false]

/-- The unsummarized history around a message of it: behind it stands all that is no system
message. -/
theorem unsummarized_split (hm : context.messages[i]? = some m) (hrole : m.role ≠ .system)
    (hcut : isSummarizedSequence summary_state i = false) :
    ∃ older newer, unsummarized context summary_state = older ++ (i, m) :: newer ∧
      newer.map Prod.snd = (context.messages.drop (i + 1)).filter (·.role ≠ .system) := by
  obtain ⟨pre, post, hsplit⟩ := append_of_mem (Greedy.mem_indexed.mpr hm)
  have hsorted := Greedy.indexed_sorted context.messages
  rw [hsplit, pairwise_append] at hsorted
  obtain ⟨-, hpost, -⟩ := hsorted
  have hlater : ∀ p ∈ post, isSummarizedSequence summary_state p.1 = false := by
    intro p hp
    have hlt : i < p.1 := (pairwise_cons.mp hpost).1 p hp
    by_contra hsummarized
    rw [isSummarizedSequence_of_le hlt.le (by simpa using hsummarized)] at hcut
    simp at hcut
  refine ⟨pre.filter fun p => p.2.role ≠ .system && !isSummarizedSequence summary_state p.1,
    post.filter fun p => p.2.role ≠ .system, ?_, ?_⟩
  · rw [unsummarized, hsplit, filter_append, filter_cons_of_pos (by simp [hrole, hcut])]
    have hfilter : post.filter (fun p => p.2.role ≠ .system &&
        !isSummarizedSequence summary_state p.1) = post.filter fun p => p.2.role ≠ .system :=
      filter_congr fun p hp => by simp [hlater p hp]
    rw [← hfilter]
  · rw [← Greedy.map_snd_of_indexed_split hsplit, filter_map]
    rfl

/-- What is kept of the history are the messages that have room. -/
theorem keeps_iff_hasRoom {limit i : ℕ} {snippets : Option Message}
    (hsnippets : rt.planContext context limit summary_state (.ok snippets) = .ok plan)
    (hm : context.messages[i]? = some m) (hrole : m.role ≠ .system) :
    Keeps rt context summary_state plan i ↔
      rt.HasRoom context summary_state limit snippets i m := by
  obtain ⟨snippets', hok, hbudget, hsystem⟩ := planContext_budgets hsnippets
  cases hok
  have hkeeps : Keeps rt context summary_state plan i ↔
      (i, m) ∈ rt.keptHistory context summary_state plan :=
    ⟨fun h => h.mem hm, fun h => ⟨m, h⟩⟩
  unfold HasRoom
  simp only [← hbudget]
  rw [hkeeps]
  by_cases hcut : isSummarizedSequence summary_state i = false
  · obtain ⟨older, newer, hsplit, hnewer⟩ := unsummarized_split hm hrole hcut
    have hsorted := unsummarized_sorted context summary_state
    rw [hsplit, pairwise_append] at hsorted
    obtain ⟨-, hafter, hbefore⟩ := hsorted
    have hnot_newer : (i, m) ∉ newer.reverse := fun h =>
      lt_irrefl i ((pairwise_cons.mp hafter).1 _ (mem_reverse.mp h))
    have hnot_older : (i, m) ∉ older.reverse := fun h =>
      lt_irrefl i (hbefore _ (mem_reverse.mp h) _ mem_cons_self)
    have hsizes : newer.reverse.map (rt.messageTokens ∘ Prod.snd) = rt.newerTokens context i := by
      rw [newerTokens, ← hnewer, ← map_reverse, map_map]
    unfold keptHistory
    split_ifs with hfull
    · -- nothing is left for the history
      refine iff_of_false not_mem_nil fun ⟨_, hleft, _⟩ => ?_
      rw [← hsystem (by omega)] at hleft
      omega
    · rw [← hsystem (by omega), mem_reverse, hsplit, reverse_append, reverse_cons,
        append_assoc, singleton_append, Greedy.mem_take_iff hnot_newer hnot_older, hsizes]
      exact ⟨fun h => ⟨hcut, by omega, h⟩, fun h => h.2.2⟩
  · refine iff_of_false (fun h => ?_) fun h => hcut h.1
    exact hcut (mem_unsummarized.mp ((keptHistory_sublist rt _ _ plan).subset h)).2.2

/-- A call id stands in one assistant message, and in one tool message. -/
structure UniqueIds (messages : List Message) : Prop where
  call : ∀ (a a' : ℕ) m m' n n' id, messages[a]? = some m → messages[a']? = some m' →
    AnswersCall m n id → AnswersCall m' n' id → a = a'
  answer : ∀ (t t' : ℕ) m m' n n' id, messages[t]? = some n → messages[t']? = some n' →
    AnswersCall m n id → AnswersCall m' n' id → t = t'

/-- The kept part of a paired context is paired when every call and its answer are treated alike,
and, if call ids are unique, only then. -/
theorem keptHistory_paired (rt : AgentRuntime) (summary_state : Option MemorySummaryState)
    (plan : ContextPlan) (hpaired : Paired context.messages) :
    ((∀ (a t : ℕ) m n id, context.messages[a]? = some m → context.messages[t]? = some n → a < t →
        AnswersCall m n id →
        (Keeps rt context summary_state plan a ↔ Keeps rt context summary_state plan t)) →
      PairedOn (rt.keptHistory context summary_state plan)) ∧
    (UniqueIds context.messages → PairedOn (rt.keptHistory context summary_state plan) →
      ∀ (a t : ℕ) m n id, context.messages[a]? = some m → context.messages[t]? = some n → a < t →
        AnswersCall m n id →
        (Keeps rt context summary_state plan a ↔ Keeps rt context summary_state plan t)) := by
  constructor
  · intro halike
    refine ⟨fun a m ha hm c hc => ?_, fun t n ht hn => ?_⟩
    · have hat := mem_keptHistory ha
      obtain ⟨t, n, ht, hlt, hans⟩ := hpaired.answered a m hat hm c hc
      have hkeep := (halike a t m n c.id hat ht hlt hans).mp ⟨m, ha⟩
      exact ⟨t, n, hkeep.mem ht, hlt, hans⟩
    · have htt := mem_keptHistory ht
      obtain ⟨a, m, id, ha, hlt, hans⟩ := hpaired.issued t n htt hn
      have hkeep := (halike a t m n id ha htt hlt hans).mpr ⟨n, ht⟩
      exact ⟨a, m, id, hkeep.mem ha, hlt, hans⟩
  · -- a kept call has a kept answer, and by its id that is the one at `t`
    intro hunique hkept a t m n id ha ht hlt hans
    obtain ⟨hm, hn, hid, c, hc, rfl⟩ := hans
    constructor
    · intro hkeep
      obtain ⟨t', n', ht', -, hans'⟩ := hkept.answered a m (hkeep.mem ha) hm c hc
      have := hunique.answer t t' m m n n' c.id ht (mem_keptHistory ht') ⟨hm, hn, hid, c, hc, rfl⟩
        hans'
      subst this
      exact ⟨n', ht'⟩
    · intro hkeep
      obtain ⟨a', m', id', ha', -, hans'⟩ := hkept.issued t n (hkeep.mem ht) hn
      obtain rfl : c.id = id' := by simpa [hid] using hans'.2.2.1
      have := hunique.call a a' m m' n n c.id ha (mem_keptHistory ha')
        ⟨hm, hn, hid, c, hc, rfl⟩ hans'
      subst this
      exact ⟨m', ha'⟩

/-- Pairing survives context budgeting when every call and its answer both have room or both have
none, and, for contexts with unique call ids, only then. -/
theorem pairing_kept {session_id : Option String}
    {hybrid_query : String → Except MemoryError (List MemoryHybridQueryResult)}
    (hpaired : Paired context.messages)
    (h : rt.prepareProviderContext context (.ok summary_state)
      (rt.fetchRetrievedMemoryMessage session_id context hybrid_query) = .ok ctx') :
    (PairsTreatedAlike rt context summary_state
        (rt.fetchRetrievedMemoryMessage session_id context hybrid_query) →
      Paired ctx'.messages) ∧
    (UniqueIds context.messages → Paired ctx'.messages →
      PairsTreatedAlike rt context summary_state
        (rt.fetchRetrievedMemoryMessage session_id context hybrid_query)) := by
  obtain ⟨max_context_tokens, hmax,
      ⟨hfast, rfl⟩ | ⟨hslow, plan, front, hplan, hfront, -, hmessages⟩⟩ :=
    prepareProviderContext_cases h
  · -- on the fast path the context is passed on as it is
    refine ⟨fun _ => hpaired, fun _ _ limit snippets hlimit hslow => ?_⟩
    rw [hmax] at hlimit
    rw [ok.inj hlimit, hslow] at hfast
    simp at hfast
  · have hsorted := (unsummarized_sorted context summary_state).sublist
      (keptHistory_sublist rt context summary_state plan)
    obtain ⟨hkept, hkept'⟩ := keptHistory_paired rt summary_state plan hpaired
    obtain ⟨snippets, hsnippets, -⟩ := planContext_budgets hplan
    rw [hsnippets] at hplan ⊢
    -- a call and its answer are kept where they have room
    have hroom : ∀ {a t : ℕ} {m n : Message} {id : String}, context.messages[a]? = some m →
        context.messages[t]? = some n → AnswersCall m n id →
        ((Keeps rt context summary_state plan a ↔ Keeps rt context summary_state plan t) ↔
          (rt.HasRoom context summary_state max_context_tokens snippets a m ↔
            rt.HasRoom context summary_state max_context_tokens snippets t n)) := by
      intro a t m n id ha ht hans
      rw [keeps_iff_hasRoom hplan ha (by rw [hans.1]; decide),
        keeps_iff_hasRoom hplan ht (by rw [hans.2.1]; decide)]
    rw [hmessages, paired_iff_pairedOn hfront hsorted]
    refine ⟨fun halike => hkept fun a t m n id ha ht hlt hans => ?_,
      fun hunique hpairedOn limit snippets' hlimit _ hsnippets' a t m n id ha ht hlt hans => ?_⟩
    · exact (hroom ha ht hans).mpr
        (halike max_context_tokens snippets hmax hslow rfl a t m n id ha ht hlt hans)
    · rw [hmax] at hlimit
      cases hlimit
      cases hsnippets'
      exact (hroom ha ht hans).mp (hkept' hunique hpairedOn a t m n id ha ht hlt hans)

/-- One question, one call, and an answer that takes more room than the rest. -/
def longAnswer : Context where
  provider := "openai"
  model := "gpt-4o"
  messages := question :: callAndAnswer "c1" "grep" (String.join (List.replicate 80 "data "))

/-- Pairing looks at no more than one of two lists. -/
theorem Paired.append {l l' : List Message} (h : Paired l) (h' : Paired l') :
    Paired (l ++ l') := by
  refine ⟨fun a m ha hm c hc => ?_, fun t n ht hn => ?_⟩
  · rcases Nat.lt_or_ge a l.length with hlt | hge
    · rw [List.getElem?_append_left hlt] at ha
      obtain ⟨t, n, ht, hat, hans⟩ := h.answered a m ha hm c hc
      have htl : t < l.length := (List.getElem?_eq_some_iff.mp ht).1
      exact ⟨t, n, by rwa [List.getElem?_append_left htl], hat, hans⟩
    · rw [List.getElem?_append_right hge] at ha
      obtain ⟨t, n, ht, hat, hans⟩ := h'.answered _ m ha hm c hc
      refine ⟨l.length + t, n, ?_, by omega, hans⟩
      rwa [List.getElem?_append_right (by omega), Nat.add_sub_cancel_left]
  · rcases Nat.lt_or_ge t l.length with hlt | hge
    · rw [List.getElem?_append_left hlt] at ht
      obtain ⟨a, m, id, ha, hat, hans⟩ := h.issued t n ht hn
      exact ⟨a, m, id, by rwa [List.getElem?_append_left (hat.trans hlt)], hat, hans⟩
    · rw [List.getElem?_append_right hge] at ht
      obtain ⟨a, m, id, ha, hat, hans⟩ := h'.issued _ n ht hn
      refine ⟨l.length + a, m, id, ?_, by omega, hans⟩
      rwa [List.getElem?_append_right (by omega), Nat.add_sub_cancel_left]

/-- A question asks for no call. -/
theorem question_paired : Paired [question] := by
  refine ⟨fun a m ha hm => ?_, fun t n ht hn => ?_⟩
  · obtain rfl := mem_singleton.mp (mem_of_getElem? ha)
    simp [question] at hm
  · obtain rfl := mem_singleton.mp (mem_of_getElem? ht)
    simp [question] at hn

/-- A call and the tool message behind it. -/
theorem callAndAnswer_paired (id name output : String) :
    Paired (callAndAnswer id name output) := by
  refine ⟨fun a m ha hm c hc => ?_, fun t n ht hn => ?_⟩
  · match a, ha with
    | 0, ha =>
      cases ha
      obtain rfl := mem_singleton.mp hc
      exact ⟨1, _, rfl, Nat.one_pos, rfl, rfl, rfl, _, mem_singleton.mpr rfl, rfl⟩
    | 1, ha =>
      rw [← Option.some.inj ha] at hm
      simp at hm
    | k + 2, ha => simp [callAndAnswer] at ha
  · match t, ht with
    | 0, ht =>
      rw [← Option.some.inj ht] at hn
      simp at hn
    | 1, ht =>
      cases ht
      exact ⟨0, _, id, rfl, Nat.one_pos, rfl, rfl, rfl, _, mem_singleton.mpr rfl, rfl⟩
    | k + 2, ht => simp [callAndAnswer] at ht

/-- The call above is answered. -/
theorem longAnswer_paired : Paired longAnswer.messages :=
  question_paired.append (callAndAnswer_paired _ _ _)

/-- The three calls are answered. -/
theorem threeLogs_paired : Paired threeLogs.messages :=
  question_paired.append (((callAndAnswer_paired _ _ _).append (callAndAnswer_paired _ _ _)).append
    (callAndAnswer_paired _ _ _))

/-- A summary of the question and the first call with its answer. -/
def firstLogSummary : MemorySummaryState where
  epoch := 1
  upper_sequence := 3
  summary := "Recent condensed turns:\n- [3] tool: no"

/-- A summary that covers the first call and its answer, with room for the others: the first pair is
cut out, the other two are kept, and all that the model sees is paired. -/
theorem laterLogs_kept :
    ∃ ctx', (smallRuntime 2000 true).prepareProviderContext threeLogs (.ok (some firstLogSummary))
        ((smallRuntime 2000 true).fetchRetrievedMemoryMessage (some "runtime-alice") threeLogs
          fun _ => .ok []) = .ok ctx' ∧
      ctx'.messages.drop 1 = threeLogs.messages.drop 3 ∧ Paired ctx'.messages := by
  have hsome : ∃ ctx' ∈ ((smallRuntime 2000 true).prepareProviderContext threeLogs
      (.ok (some firstLogSummary)) ((smallRuntime 2000 true).fetchRetrievedMemoryMessage
        (some "runtime-alice") threeLogs fun _ => .ok [])).toOption,
      ctx'.messages.drop 1 = threeLogs.messages.drop 3 := by decide +kernel
  obtain ⟨ctx', hctx, hmessages⟩ := hsome
  have hok := Effect.mem_toOption.mp hctx
  refine ⟨ctx', hok, hmessages, (pairing_kept threeLogs_paired hok).1 ?_⟩
  intro limit snippets hlimit _ hsnippets a t m n id ha ht _ hans
  obtain rfl : 2000 = limit := ok.inj hlimit
  obtain rfl : none = snippets := ok.inj hsnippets
  -- each call and each answer with its id, by their sizes
  have hsizes : ∀ p ∈ Greedy.indexed threeLogs.messages, ∀ q ∈ Greedy.indexed threeLogs.messages,
      ∀ c ∈ p.2.tool_calls, q.2.tool_call_id = some c.id →
        ((smallRuntime 2000 true).HasRoom threeLogs (some firstLogSummary) 2000 none p.1 p.2 ↔
          (smallRuntime 2000 true).HasRoom threeLogs (some firstLogSummary) 2000 none q.1 q.2) := by
    decide +kernel
  obtain ⟨-, -, hid, c, hc, rfl⟩ := hans
  exact hsizes (a, m) (Greedy.mem_indexed.mpr ha) (t, n) (Greedy.mem_indexed.mpr ht) c hc hid

/-- In a small window the answer is passed over and the call is kept: the model sees a call without
a result. -/
theorem oversized_answer_dropped :
    Paired longAnswer.messages ∧
      ∃ ctx', (smallRuntime 60 false).prepareProviderContext longAnswer (.ok none)
        ((smallRuntime 60 false).fetchRetrievedMemoryMessage (some "runtime-alice") longAnswer
          fun _ => .ok []) = .ok ctx' ∧ ¬Paired ctx'.messages := by
  refine ⟨longAnswer_paired, ?_⟩
  have hdropped : ∃ ctx' ∈ ((smallRuntime 60 false).prepareProviderContext longAnswer (.ok none)
      ((smallRuntime 60 false).fetchRetrievedMemoryMessage (some "runtime-alice") longAnswer
        fun _ => .ok [])).toOption,
      ctx'.messages = longAnswer.messages.take 2 := by decide +kernel
  refine hdropped.imp fun ctx' h => ⟨Effect.mem_toOption.mp h.1, fun hpaired => ?_⟩
  rw [h.2] at hpaired
  obtain ⟨t, n, ht, -, -, hn, -⟩ := hpaired.answered 1 _ rfl rfl _ (mem_singleton.mpr rfl)
  have hall : ∀ n ∈ longAnswer.messages.take 2, n.role ≠ .tool := by decide
  exact hall n (mem_of_getElem? ht) hn

end AgentRuntime

end Oxydra
