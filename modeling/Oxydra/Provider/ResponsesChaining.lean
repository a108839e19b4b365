import Oxydra.Library.Interleaving
import Oxydra.Provider.Responses

/-!
# Chained requests

A `ResponsesProvider` keeps the id of the last response and the number of messages of the request
that it answers, each behind a lock of its own. `complete` and `stream` read both, skip as many
messages of their context as were counted, send the rest with the id, and write both again when the
response has arrived. If a chained request is refused, both are reset and the whole context is sent.

The server keeps a conversation for each response: the one of the response before it, the input of the
request and the output. `chaining_faithful_iff` says when the conversation that it sees is the context of
the request: what a chained request skips gives the items of the context of the request that the id
answers, and then those of the response. The count leaves the response out, so it is sent again by a
request whose context goes on where the one before it ended.
-/

namespace Oxydra

open Option Function Lts

variable {response : ResponsesApiResponse} {thread : ResponsesThread}

/-! ## Requests that share a provider -/

/-- Where a call of `complete` or `stream` is. A request that is being sent is determined by what it
was made with. -/
inductive ResponsesPhase where
  | called
  | idRead (previous_response_id : Option String)
  | sending (previous_response_id : Option String) (last_input_count : ℕ)
  | refused
  | idReset
  | answered (response : ResponsesApiResponse)
  | idStored
  | done
  deriving DecidableEq, Repr

/-- A call with a context that is valid, what the server answered, and where it is. -/
structure ResponsesThread where
  context : Context
  stream : Bool := false
  answer : Option ResponsesApiResponse := none
  phase : ResponsesPhase := .called

/-- The state of a `ResponsesProvider`, and the server: the conversation of each response, and the
conversations that it saw, with the contexts of their requests. -/
structure ResponsesState where
  previous_response_id : Option String := none
  last_input_count : ℕ := 0
  conversations : List (String × List ResponsesInputItem) := []
  seen : List (List ResponsesInputItem × Context) := []

/-- What happens to a call: it goes on by itself, the server answers or refuses its request, or what
is sent is lost. -/
inductive ResponsesAction where
  | run
  | answer (response : ResponsesApiResponse)
  | refuse (status : ℕ)
  | lose
  deriving DecidableEq, Repr

section System

variable (json : JsonText) (base64 : List UInt8 → String) (provider : String)

/-- The conversation that a request goes on with, if the server knows the id. -/
def ResponsesState.chain (g : ResponsesState) : Option String → Option (List ResponsesInputItem)
  | none => some []
  | some id => g.conversations.lookup id

/-- The server answers a request. The id of the response is a new one. -/
def ResponsesState.answer (g : ResponsesState) (context : Context) (request : ResponsesApiRequest)
    (response : ResponsesApiResponse) : Option ResponsesState := do
  let chain ← g.chain request.previous_response_id
  let conversation := chain ++ request.input
  let seen := g.seen ++ [(conversation, context)]
  match response.id with
  | none => return { g with seen }
  | some id =>
    if (g.conversations.lookup id).isSome then none
    else
      let stored := (id, conversation ++ response.output.map ResponsesOutputBlock.item)
      return { g with seen, conversations := stored :: g.conversations }

/-- The next step of a call of `complete` or `stream`. -/
def responsesStep (g : ResponsesState) (thread : ResponsesThread) :
    ResponsesAction → Option (ResponsesState × ResponsesThread)
  | .run =>
    match thread.phase with
    | .called => some (g, { thread with phase := .idRead g.previous_response_id })
    | .idRead previous => some (g, { thread with phase := .sending previous g.last_input_count })
    -- `reset_chaining_state`
    | .refused => some ({ g with previous_response_id := none }, { thread with phase := .idReset })
    | .idReset => some ({ g with last_input_count := 0 }, { thread with phase := .sending none 0 })
    | .answered response =>
      match normalizeResponsesResponse json provider response with
      | .error _ | .ok (_, none) => some (g, { thread with phase := .done })
      -- `update_chaining_state`
      | .ok (_, some id) =>
        some ({ g with previous_response_id := some id }, { thread with phase := .idStored })
    | .idStored =>
      some ({ g with last_input_count := thread.context.messages.length },
        { thread with phase := .done })
    | .sending _ _ | .done => none
  | .answer response =>
    match thread.phase with
    | .sending previous count =>
      let request := fromContextWithStream json base64 thread.context previous count thread.stream
      (g.answer thread.context request response).map fun g' =>
        (g', { thread with answer := some response, phase := .answered response })
    | _ => none
  | .refuse status =>
    match thread.phase with
    | .sending previous _ =>
      if previous.isSome ∧ 400 ≤ status ∧ status < 500 then
        some (g, { thread with phase := .refused })
      else some (g, { thread with phase := .done })
    | _ => none
  | .lose =>
    match thread.phase with
    | .sending _ _ | .answered _ => some (g, { thread with phase := .done })
    | _ => none

/-- All interleavings of calls on a new provider, each with a context of its own. -/
def responsesSystem (ι : Type*) [DecidableEq ι] :
    System (Threads ι ResponsesState ResponsesThread) (ι × ResponsesAction) :=
  interleave (fun s => s.shared = {} ∧
      ∀ i, (s.threads i).phase = .called ∧ (s.threads i).answer = none)
    (responsesStep json base64 provider)

/-! ## The conversations that the server sees -/

variable {ι : Type*}

section

variable (s : Threads ι ResponsesState ResponsesThread)

/-- Each conversation that the server saw has the items of the context of its request. -/
def SeenFaithful : Prop :=
  ∀ p ∈ s.shared.seen, p.1 = contextItems json base64 p.2.messages

/-- A response of the server, as the answer to a call. -/
def AnsweredWith (j : ι) (id : String)
    (response : ResponsesApiResponse) : Prop :=
  (s.threads j).answer = some response ∧ response.id = some id

/-- A chained request that is answered skips messages with the items of the context of the request
that its id answers, and of the response to it. -/
def SkipsAnswered (l : ι × ResponsesAction) : Prop :=
  ∀ response id count, l.2 = .answer response → (s.threads l.1).phase = .sending (some id) count →
    let messages := (s.threads l.1).context.messages
    ∃ j answer, AnsweredWith s j id answer ∧
      contextItems json base64 (messages.take (startIndex messages (some id) count)) =
        contextItems json base64 (s.threads j).context.messages ++
          answer.output.map ResponsesOutputBlock.item

end

end System

/-! ## What a step does -/

/-- A call that has no answer yet. -/
def ResponsesPhase.isOpen : ResponsesPhase → Bool
  | .called | .idRead _ | .sending _ _ | .refused | .idReset => true
  | .answered _ | .idStored | .done => false

section Steps

variable {json : JsonText} {base64 : List UInt8 → String} {provider : String}

/-- What a step does to the server and to the answer of its call: nothing, or the server answers. -/
inductive ResponsesEffect (json : JsonText) (base64 : List UInt8 → String) (g : ResponsesState)
    (thread : ResponsesThread) (act : ResponsesAction) (g' : ResponsesState)
    (thread' : ResponsesThread) : Prop
  | kept (hact : ∀ response, act ≠ .answer response)
    (hconversations : g'.conversations = g.conversations) (hseen : g'.seen = g.seen)
    (hcontext : thread'.context = thread.context) (hanswer : thread'.answer = thread.answer)
    (hopen : thread'.phase.isOpen → thread.phase.isOpen)
  | answered (response : ResponsesApiResponse) (previous : Option String) (count : ℕ)
    (chain : List ResponsesInputItem) (hact : act = .answer response)
    (hphase : thread.phase = .sending previous count) (hchain : g.chain previous = some chain)
    (hfresh : ∀ id ∈ response.id, g.conversations.lookup id = none)
    (hseen : g'.seen = g.seen ++ [(chain ++ (fromContextWithStream json base64 thread.context previous
      count thread.stream).input, thread.context)])
    (hconversations : g'.conversations = response.id.toList.map (fun id =>
      (id, chain ++ (fromContextWithStream json base64 thread.context previous count
        thread.stream).input ++ response.output.map ResponsesOutputBlock.item)) ++ g.conversations)
    (hthread : thread' = { thread with answer := some response, phase := .answered response })

/-- What the server does with a request that it answers. -/
theorem answer_effect {g g' : ResponsesState} {context : Context} {request : ResponsesApiRequest}
    (h : g.answer context request response = some g') :
    ∃ chain, g.chain request.previous_response_id = some chain ∧
      (∀ id ∈ response.id, g.conversations.lookup id = none) ∧
      g'.seen = g.seen ++ [(chain ++ request.input, context)] ∧
      g'.conversations = response.id.toList.map (fun id =>
        (id, chain ++ request.input ++ response.output.map ResponsesOutputBlock.item)) ++
          g.conversations := by
  unfold ResponsesState.answer at h
  obtain ⟨chain, hchain, h⟩ := bind_eq_some_iff.mp h
  refine ⟨chain, hchain, ?_⟩
  cases hid : response.id with
  | none =>
    rw [hid] at h
    cases h
    exact ⟨by simp, rfl, rfl⟩
  | some id =>
    rw [hid] at h
    dsimp only at h
    split_ifs at h with hknown
    cases h
    refine ⟨fun id' hid' => ?_, rfl, rfl⟩
    cases hid'
    exact not_isSome_iff_eq_none.mp hknown

theorem responses_effect {g g' : ResponsesState} {thread thread' : ResponsesThread}
    {act : ResponsesAction}
    (h : responsesStep json base64 provider g thread act = some (g', thread')) :
    ResponsesEffect json base64 g thread act g' thread' := by
  cases act with
  | run =>
    unfold responsesStep at h
    cases hphase : thread.phase with
    | called | idRead _ | refused | idReset =>
      rw [hphase] at h
      cases h
      exact .kept (by simp) rfl rfl rfl rfl fun _ => hphase ▸ rfl
    | answered response =>
      rw [hphase] at h
      dsimp only at h
      split at h <;> cases h <;>
        exact .kept (by simp) rfl rfl rfl rfl (by simp [ResponsesPhase.isOpen])
    | idStored =>
      rw [hphase] at h
      cases h
      exact .kept (by simp) rfl rfl rfl rfl (by simp [ResponsesPhase.isOpen])
    | sending _ _ | done =>
      rw [hphase] at h
      cases h
  | answer response =>
    unfold responsesStep at h
    cases hphase : thread.phase with
    | sending previous count =>
      rw [hphase] at h
      obtain ⟨after, hafter, heq⟩ := map_eq_some_iff.mp h
      cases heq
      obtain ⟨chain, hchain, hfresh, hseen, hconversations⟩ := answer_effect hafter
      exact .answered response previous count chain rfl hphase hchain hfresh hseen hconversations rfl
    | _ =>
      rw [hphase] at h
      cases h
  | refuse status =>
    unfold responsesStep at h
    cases hphase : thread.phase with
    | sending previous count =>
      rw [hphase] at h
      dsimp only at h
      split_ifs at h <;> cases h <;> exact .kept (by simp) rfl rfl rfl rfl fun _ => hphase ▸ rfl
    | _ =>
      rw [hphase] at h
      cases h
  | lose =>
    unfold responsesStep at h
    dsimp only at h
    cases hphase : thread.phase with
    | sending previous count | answered response =>
      rw [hphase] at h
      cases h
      exact .kept (by simp) rfl rfl rfl rfl (by simp [ResponsesPhase.isOpen])
    | _ =>
      rw [hphase] at h
      cases h

end Steps

/-! ## The conversations that are kept -/

section Run

variable {ι : Type*} {json : JsonText} {base64 : List UInt8 → String} {provider : String}
  {s t : Threads ι ResponsesState ResponsesThread} {i : ι} {act : ResponsesAction}

/-- What holds in a run: the server keeps, for each response, the context of the request that it
answers and the output, and it saw the contexts of all requests. -/
structure ChainingSound (json : JsonText) (base64 : List UInt8 → String)
    (s : Threads ι ResponsesState ResponsesThread) : Prop where
  kept : ∀ id conversation, s.shared.conversations.lookup id = some conversation →
    ∃ j answer, AnsweredWith s j id answer ∧ conversation =
      contextItems json base64 (s.threads j).context.messages ++
        answer.output.map ResponsesOutputBlock.item
  known : ∀ j id answer, AnsweredWith s j id answer → (s.shared.conversations.lookup id).isSome
  unique : ∀ j k id answer answer', AnsweredWith s j id answer → AnsweredWith s k id answer' → j = k
  unanswered : ∀ j, (s.threads j).phase.isOpen → (s.threads j).answer = none
  seen : SeenFaithful json base64 s

/-- The server sees the context of a request exactly if the request skips what was answered. -/
theorem seen_iff_skipsAnswered (h : ChainingSound json base64 s) {previous : Option String}
    {count : ℕ} {chain : List ResponsesInputItem}
    (hphase : (s.threads i).phase = .sending previous count)
    (hchain : s.shared.chain previous = some chain) :
    chain ++ (fromContextWithStream json base64 (s.threads i).context previous count
        (s.threads i).stream).input = contextItems json base64 (s.threads i).context.messages ↔
      SkipsAnswered json base64 s (i, .answer response) := by
  cases previous with
  | none =>
    cases hchain
    rw [List.nil_append, fromContext_input_none]
    refine iff_of_true rfl fun response id count' _ hphase' => ?_
    rw [hphase] at hphase'
    cases hphase'
  | some id =>
    obtain ⟨j, answer, hanswer, hkept⟩ := h.kept id chain hchain
    have hinput := fromContext_input json base64 (s.threads i).context (some id) count
      (s.threads i).stream
    rw [← hinput, List.append_cancel_right_eq, hkept]
    constructor
    · rintro hskipped response' id' count' - hphase'
      rw [hphase] at hphase'
      cases hphase'
      exact ⟨j, answer, hanswer, hskipped.symm⟩
    · intro hskips
      obtain ⟨k, answer', hanswer', hskipped⟩ := hskips response id count rfl hphase
      obtain rfl := h.unique j k id answer answer' hanswer hanswer'
      obtain rfl := some.inj (hanswer.1.symm.trans hanswer'.1)
      exact hskipped.symm

variable [DecidableEq ι]

/-- A step of the system, on the call that takes it. -/
theorem responsesSystem_step (h : (responsesSystem json base64 provider ι).step s (i, act) t) :
    ∃ thread, t.threads = update s.threads i thread ∧
      ResponsesEffect json base64 s.shared (s.threads i) act t.shared thread := by
  obtain ⟨g, thread, hstep, rfl⟩ := interleave_step h
  exact ⟨thread, rfl, responses_effect hstep⟩

/-- An answer of the server is seen as it should exactly if the request skips what was answered. -/
theorem seenFaithful_iff (h : ChainingSound json base64 s)
    (hst : (responsesSystem json base64 provider ι).step s (i, act) t) :
    SeenFaithful json base64 t ↔ SkipsAnswered json base64 s (i, act) := by
  obtain ⟨thread, -, he⟩ := responsesSystem_step hst
  cases he with
  | kept hact hconversations hseen hcontext hanswer hopen =>
    refine iff_of_true ?_ fun response id count heq => absurd heq (hact response)
    intro p hp
    rw [hseen] at hp
    exact h.seen p hp
  | answered response previous count chain hact hphase hchain hfresh hseen hconversations hthread =>
    subst hact
    rw [← seen_iff_skipsAnswered h hphase hchain]
    constructor
    · intro hfaithful
      exact hfaithful _ (hseen ▸ List.mem_append_right _ (List.mem_singleton_self _))
    · intro hequal p hp
      rw [hseen, List.mem_append, List.mem_singleton] at hp
      rcases hp with hp | rfl
      · exact h.seen p hp
      · exact hequal

/-- The answers of the calls after an answer of the server to one of them. -/
theorem answeredWith_update (hthreads : t.threads = update s.threads i thread)
    (hanswer : thread.answer = some response) {j : ι} {id : String} {answer : ResponsesApiResponse}
    :
    AnsweredWith t j id answer ↔
      (j = i ∧ answer = response ∧ response.id = some id) ∨ (j ≠ i ∧ AnsweredWith s j id answer) := by
  unfold AnsweredWith
  rw [hthreads]
  by_cases hj : j = i
  · subst hj
    rw [update_self, hanswer, some.injEq]
    constructor
    · rintro ⟨rfl, hid⟩
      exact .inl ⟨rfl, rfl, hid⟩
    · rintro (⟨-, rfl, hid⟩ | ⟨hne, -⟩)
      · exact ⟨rfl, hid⟩
      · exact absurd rfl hne
  · rw [update_of_ne hj]
    simp [hj]

/-- A step that the server has no part in leaves its answers alone. -/
theorem answeredWith_kept (hthreads : t.threads = update s.threads i thread)
    (hanswer : thread.answer = (s.threads i).answer) {j : ι} {id : String}
    {answer : ResponsesApiResponse} : AnsweredWith t j id answer ↔ AnsweredWith s j id answer := by
  unfold AnsweredWith
  rw [hthreads]
  by_cases hj : j = i
  · subst hj
    rw [update_self, hanswer]
  · rw [update_of_ne hj]

/-- The contexts of the calls do not change. -/
theorem context_update (hthreads : t.threads = update s.threads i thread)
    (hcontext : thread.context = (s.threads i).context) (j : ι) :
    (t.threads j).context = (s.threads j).context := by
  rw [hthreads]
  by_cases hj : j = i
  · subst hj
    rw [update_self, hcontext]
  · rw [update_of_ne hj]

/-- Every step in which the skipped messages are what was answered keeps the conversations sound. -/
theorem ChainingSound.step (h : ChainingSound json base64 s)
    (hskips : SkipsAnswered json base64 s (i, act))
    (hst : (responsesSystem json base64 provider ι).step s (i, act) t) :
    ChainingSound json base64 t := by
  have hfaithful := (seenFaithful_iff h hst).mpr hskips
  obtain ⟨thread, hthreads, he⟩ := responsesSystem_step hst
  cases he with
  | kept hact hconversations hseen hcontext hanswer hopen =>
    have hcontexts := context_update hthreads hcontext
    have hback : ∀ {j id answer}, AnsweredWith t j id answer ↔ AnsweredWith s j id answer :=
      answeredWith_kept hthreads hanswer
    refine ⟨fun id conversation hlookup => ?_, fun j id answer hj => ?_, fun j k id a a' hj hk => ?_,
      fun j hj => ?_, hfaithful⟩
    · rw [hconversations] at hlookup
      obtain ⟨j, answer, hj, hkept⟩ := h.kept id conversation hlookup
      exact ⟨j, answer, hback.mpr hj, by rw [hkept, hcontexts]⟩
    · rw [hconversations]
      exact h.known j id answer (hback.mp hj)
    · exact h.unique j k id a a' (hback.mp hj) (hback.mp hk)
    · rw [hthreads] at hj ⊢
      by_cases hji : j = i
      · subst hji
        rw [update_self] at hj ⊢
        rw [hanswer]
        exact h.unanswered j (hopen hj)
      · rw [update_of_ne hji] at hj ⊢
        exact h.unanswered j hj
  | answered response previous count chain hact hphase hchain hfresh hseen hconversations hthread =>
    subst hact
    have hequal := (seen_iff_skipsAnswered h hphase hchain).mpr hskips
    have hnew : thread.answer = some response := by rw [hthread]
    have hcontexts := context_update hthreads (by rw [hthread])
    have hback : ∀ {j id answer}, AnsweredWith t j id answer ↔
        (j = i ∧ answer = response ∧ response.id = some id) ∨ (j ≠ i ∧ AnsweredWith s j id answer) :=
      answeredWith_update hthreads hnew
    -- the thread of an old answer is another one, since this one had none
    have hold : ∀ {j id answer}, AnsweredWith s j id answer → AnsweredWith t j id answer := by
      intro j id answer hj
      refine hback.mpr (.inr ⟨?_, hj⟩)
      rintro rfl
      have hnone := h.unanswered j (by rw [hphase]; rfl)
      rw [hj.1] at hnone
      cases hnone
    have hlookup : ∀ id, t.shared.conversations.lookup id =
        if response.id = some id then
          some (contextItems json base64 (s.threads i).context.messages ++
            response.output.map ResponsesOutputBlock.item)
        else s.shared.conversations.lookup id := by
      intro id
      rw [hconversations, hequal]
      cases hid : response.id with
      | none => simp
      | some new =>
        rw [toList_some, List.map_singleton, List.singleton_append, Fields.lookup_cons]
        by_cases hne : id = new
        · subst hne
          simp
        · rw [if_neg hne, if_neg fun heq => hne (some.inj heq).symm]
    -- the id of the response was never given
    have hnever : ∀ {j id answer}, response.id = some id → ¬AnsweredWith s j id answer := by
      intro j id answer hid hj
      have hknown := h.known j id answer hj
      rw [hfresh id hid] at hknown
      cases hknown
    refine ⟨fun id conversation hkeep => ?_, fun j id answer hj => ?_, fun j k id a a' hj hk => ?_,
      fun j hj => ?_, hfaithful⟩
    · rw [hlookup] at hkeep
      split_ifs at hkeep with hid
      · refine ⟨i, response, hback.mpr (.inl ⟨rfl, rfl, hid⟩), ?_⟩
        rw [hcontexts]
        exact (some.inj hkeep).symm
      · obtain ⟨j, answer, hj, hkept⟩ := h.kept id conversation hkeep
        exact ⟨j, answer, hold hj, by rw [hkept, hcontexts]⟩
    · rw [hlookup]
      split_ifs with hid
      · rfl
      · rcases hback.mp hj with ⟨-, -, hid'⟩ | ⟨-, hj⟩
        · exact absurd hid' hid
        · exact h.known j id answer hj
    · rcases hback.mp hj with ⟨rfl, -, hid⟩ | ⟨-, hj⟩ <;>
        rcases hback.mp hk with ⟨rfl, -, hid'⟩ | ⟨-, hk⟩
      · rfl
      · exact absurd hk (hnever hid)
      · exact absurd hj (hnever hid')
      · exact h.unique j k id a a' hj hk
    · rw [hthreads] at hj ⊢
      by_cases hji : j = i
      · subst hji
        rw [update_self, hthread] at hj
        cases hj
      · rw [update_of_ne hji] at hj ⊢
        exact h.unanswered j hj

/-- In a run in which each chained request skips what was answered, the server sees the contexts. -/
theorem chaining_sound
    (h : (responsesSystem json base64 provider ι).ReachWithin (SkipsAnswered json base64) s) :
    ChainingSound json base64 s := by
  refine h.invariant (fun s hs => ?_) fun s l t hs hg hst => hs.step hg hst
  obtain ⟨hshared, hthreads⟩ := hs
  have hnone : ∀ {j id answer}, ¬AnsweredWith s j id answer := by
    rintro j id answer ⟨hj, -⟩
    rw [(hthreads j).2] at hj
    cases hj
  refine ⟨fun id conversation hlookup => ?_, fun j id answer hj => absurd hj hnone,
    fun j k id a a' hj => absurd hj hnone, fun j _ => (hthreads j).2, fun p hp => ?_⟩
  · rw [hshared] at hlookup
    cases hlookup
  · rw [hshared] at hp
    cases hp

/-- As long as each chained request that is answered skips messages with the items of the context
that its id answers and of that answer, the server has seen the contexts of all requests. The first
request that does not is seen as something else. -/
theorem chaining_faithful_iff
    (h : (responsesSystem json base64 provider ι).ReachWithin (SkipsAnswered json base64) s) :
    SeenFaithful json base64 s ∧
      ∀ l t, (responsesSystem json base64 provider ι).step s l t →
        (SeenFaithful json base64 t ↔ SkipsAnswered json base64 s l) :=
  ⟨(chaining_sound h).seen, fun _ _ hst => seenFaithful_iff (chaining_sound h) hst⟩

end Run

section Examples

/-- A message of the user. -/
def userMessage (text : String) : Message := { role := .user, content := some text }

/-- The answer to the first request. -/
def helloResponse : ResponsesApiResponse where
  id := some "resp_1"
  output := [.message "assistant" ["Hello"]]

/-- The message of the answer, as `complete` returns it. -/
def helloReply : Option Message :=
  (normalizeResponsesResponse textOnlyJson "openai-responses" helloResponse).toOption.map
    fun normalized => normalized.1.message

/-- A conversation: the context of its first request, and the one of its second, which goes on with
the answer to the first. -/
def helloContexts (i : Fin 2) : Context where
  provider := "openai-responses"
  model := "gpt-4o-mini"
  messages := if i = 0 then [userMessage "Hi"]
    else [userMessage "Hi"] ++ helloReply.toList ++ [userMessage "Bye"]

/-- The two requests, before the first is made. -/
def helloStart : Threads (Fin 2) ResponsesState ResponsesThread :=
  ⟨{}, fun i => { context := helloContexts i }⟩

/-- The first request is made and answered, and the state is written; then the second is answered. -/
def helloRun : List (Fin 2 × ResponsesAction) :=
  [(0, .run), (0, .run), (0, .answer helloResponse), (0, .run), (0, .run), (1, .run), (1, .run),
    (1, .answer { id := some "resp_2", output := [.message "assistant" ["Bye"]] })]

/-- The server sees the answer to the first request twice. -/
theorem helloRun_duplicates :
    ∃ s, (responsesSystem textOnlyJson (fun _ => "") "openai-responses" (Fin 2)).Reach s ∧
      ¬SeenFaithful textOnlyJson (fun _ => "") s := by
  have hinit : (responsesSystem textOnlyJson (fun _ => "") "openai-responses" (Fin 2)).Reach
      helloStart := .init ⟨rfl, fun _ => ⟨rfl, rfl⟩⟩
  have hseen : ((exec (fun _ _ => True) (threadStep (responsesStep textOnlyJson (fun _ => "")
      "openai-responses")) helloStart helloRun).map fun s => s.shared.seen.map fun p =>
        (p.1.length, (contextItems textOnlyJson (fun _ => "") p.2.messages).length)) =
      some [(1, 1), (4, 3)] := by
    decide
  obtain ⟨s, hs, hlengths⟩ := map_eq_some_iff.mp hseen
  refine ⟨s, reachWithin_exec hinit hs, fun hfaithful => ?_⟩
  have hmem : ((4, 3) : ℕ × ℕ) ∈ s.shared.seen.map fun p =>
      (p.1.length, (contextItems textOnlyJson (fun _ => "") p.2.messages).length) := by
    rw [hlengths]
    simp
  obtain ⟨p, hp, hlength⟩ := List.mem_map.mp hmem
  rw [hfaithful p hp, Prod.mk.injEq] at hlength
  omega

/-- Whether a chained request skips what was answered, by looking at the answers of two calls. -/
instance (s : Threads (Fin 2) ResponsesState ResponsesThread) (l : Fin 2 × ResponsesAction) :
    Decidable (SkipsAnswered textOnlyJson (fun _ => "") s l) :=
  match hact : l.2, hphase : (s.threads l.1).phase with
  | .answer response, .sending (some id) count =>
    let messages := (s.threads l.1).context.messages
    decidable_of_iff (∃ j, ∃ answer ∈ (s.threads j).answer, answer.id = some id ∧
      contextItems textOnlyJson (fun _ => "") (messages.take (startIndex messages (some id) count)) =
        contextItems textOnlyJson (fun _ => "") (s.threads j).context.messages ++
          answer.output.map ResponsesOutputBlock.item) (by
      constructor
      · rintro ⟨j, answer, hanswer, hid, hitems⟩ _ id' count' _ hsending
        rw [hphase] at hsending
        cases hsending
        exact ⟨j, answer, ⟨hanswer, hid⟩, hitems⟩
      · intro h
        obtain ⟨j, answer, ⟨hanswer, hid⟩, hitems⟩ := h response id count hact hphase
        exact ⟨j, answer, hanswer, hid, hitems⟩)
  | .answer _, .sending none _ => isTrue fun _ _ _ _ h => by rw [hphase] at h; cases h
  | .answer _, .called | .answer _, .idRead _ | .answer _, .refused | .answer _, .idReset
  | .answer _, .answered _ | .answer _, .idStored | .answer _, .done =>
    isTrue fun _ _ _ _ h => by rw [hphase] at h; cases h
  | .run, _ | .refuse _, _ | .lose, _ => isTrue fun _ _ _ h => by rw [hact] at h; cases h

/-- A first request with a system message, which is no item, and a second one without it. -/
def briefContexts (i : Fin 2) : Context where
  provider := "openai-responses"
  model := "gpt-4o-mini"
  messages := if i = 0 then [{ role := .system, content := some "Be brief." }, userMessage "Hi"]
    else [userMessage "Hi"] ++ helloReply.toList ++ [userMessage "Bye"]

/-- A chained request that skips as many messages as were counted, the question and the answer: the
server sees both requests as they were made. -/
theorem chainedRun_faithful : ∃ s : Threads (Fin 2) ResponsesState ResponsesThread,
    (responsesSystem textOnlyJson (fun _ => "") "openai-responses" (Fin 2)).ReachWithin
      (SkipsAnswered textOnlyJson (fun _ => "")) s ∧
    (s.threads 1).phase = .answered { id := some "resp_2", output := [.message "assistant" ["Bye"]] } ∧
    s.shared.seen.map (fun p => p.1.length) = [1, 3] ∧
    SeenFaithful textOnlyJson (fun _ => "") s := by
  have hrun : ((exec (SkipsAnswered textOnlyJson (fun _ => "")) (threadStep (responsesStep textOnlyJson
      (fun _ => "") "openai-responses")) ⟨{}, fun i => { context := briefContexts i }⟩ helloRun).map
        fun s => ((s.threads 1).phase, s.shared.seen.map fun p => p.1.length)) =
      some (.answered { id := some "resp_2", output := [.message "assistant" ["Bye"]] }, [1, 3]) := by
    decide +kernel
  obtain ⟨s, hs, hend⟩ := map_eq_some_iff.mp hrun
  obtain ⟨hphase, hlengths⟩ := Prod.mk.inj hend
  have hinit : (responsesSystem textOnlyJson (fun _ => "") "openai-responses" (Fin 2)).ReachWithin
      (SkipsAnswered textOnlyJson (fun _ => "")) ⟨{}, fun i => { context := briefContexts i }⟩ :=
    .init ⟨rfl, fun _ => ⟨rfl, rfl⟩⟩
  have hreach := reachWithin_exec hinit hs
  exact ⟨s, hreach, hphase, hlengths, (chaining_faithful_iff hreach).1⟩

end Examples

end Oxydra
