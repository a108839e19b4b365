import Mathlib.Algebra.BigOperators.Group.Finset.Piecewise
import Mathlib.Algebra.Order.BigOperators.Group.Finset
import Oxydra.Library.Kept
import Oxydra.Provider.ResponsesProgress
import Oxydra.Runtime.ToolCallAssembly

/-!
# What a stream of a response emits

The event that completes a response repeats the text of all messages or none, and all calls or none.
`sentItems_emitsOnce_iff`: where the deltas of an item are all of it or there are none, each output
is emitted once exactly where all messages are streamed or none is, and all calls or none, with the
id and the name of a streamed call known at its last delta.
-/

namespace Oxydra

open List

/-! ## Outputs -/

/-- The text of a response. -/
def ResponsesApiResponse.text (response : ResponsesApiResponse) : String :=
  String.join (response.output.flatMap ResponsesOutputBlock.texts)

/-- The text of a block. -/
def ResponsesOutputBlock.text : ResponsesOutputBlock → String
  | .message _ content => String.join content
  | .functionCall _ _ _ => ""

/-- The text at a place of the output. -/
def ResponsesApiResponse.textOf (response : ResponsesApiResponse) (i : ℕ) : String :=
  (response.output[i]?.map ResponsesOutputBlock.text).getD ""

/-- The call at a place of the output. -/
def ResponsesApiResponse.callAt (json : JsonText) (response : ResponsesApiResponse) (i : ℕ) :
    Option ToolCall :=
  response.output[i]?.bind (ResponsesOutputBlock.toolCall json)

open ResponsesProgress in
/-- The deltas of an item of the output are all of its text or its arguments, or there are none. -/
structure ResponsesProgress.AddsUp (events : List ResponsesProgress)
    (response : ResponsesApiResponse) : Prop where
  text : ∀ i, textAt events i = [] ∨ ∃ role content,
    response.output[i]? = some (.message role content) ∧
      String.join (textAt events i) = String.join content
  arguments : ∀ i, argumentsAt events i = [] ∨ ∃ call_id name arguments,
    response.output[i]? = some (.functionCall call_id name arguments) ∧
      String.join (argumentsAt events i) = arguments

/-- The call of an entry, with its arguments read as those of a block are. -/
def ToolCallAccumulatorEntry.call (json : JsonText) (entry : ToolCallAccumulatorEntry) :
    Option ToolCall := do
  let id ← entry.id
  let name ← entry.name
  (ResponsesOutputBlock.functionCall id name entry.arguments).toolCall json

section Emits

open ResponsesProgress

variable (json : JsonText) (events : List ResponsesProgress) (response : ResponsesApiResponse)
  (items : List StreamItem)

/-- Each call of a response has an index of its own. The deltas of its arguments have it, and under
it the call is assembled, and nothing is under any other index. -/
structure AssembledAt (index : ℕ → ℕ) : Prop where
  own : (argumentItems events).map index <+: (deltasOf items).map ToolCallDelta.index
  injective : ∀ i j, (response.callAt json i).isSome → (response.callAt json j).isSome →
    index i = index j → i = j
  calls : ∀ i call, response.callAt json i = some call →
    ((accumulate (deltasOf items)).lookup (index i)).bind (ToolCallAccumulatorEntry.call json) =
      some call
  only : ∀ n ∈ Fields.keys (accumulate (deltasOf items)),
    ∃ i, (response.callAt json i).isSome ∧ index i = n

/-- The items of a stream have the text of the response, and each of its calls once. -/
structure EmitsOnce : Prop where
  text : String.join (textsOf items) = response.text
  calls : ∃ index, AssembledAt json events response items index

/-- Only empty text deltas are sent, or deltas of each message that has a text, and these give one
text in their order and in the order of the messages. -/
def TextWhole : Prop :=
  (∀ delta ∈ texts events, delta = "") ∨
    (∀ i, response.textOf i ≠ "" → textAt events i ≠ []) ∧
      String.join (texts events) =
        String.join ((List.range response.output.length).map fun i => String.join (textAt events i))

/-- No delta of any arguments is sent, or some of those of each call, and its id and its name with
the last of them or before. -/
def CallsWhole : Prop :=
  argumentItems events = [] ∨
    ∀ i call, response.callAt json i = some call → argumentsAt events i ≠ [] ∧
      lastId (upToArguments events i) i = some call.id ∧
      lastName (upToArguments events i) i = some call.name

/-- The items of a stream of these events that the response ends. -/
def sentItems (provider : String) : List StreamItem :=
  (streamResponsesEvents json provider
    (events.map ResponsesProgress.event ++ [.completed response])).filterMap Except.toOption

end Emits

/-! ## The completed response -/

section Completed

open ResponsesProgress

variable (json : JsonText) (provider : String) (response : ResponsesApiResponse)

/-- What the event that completes the response sends. -/
def completedSent (acc : ResponsesToolCallAccumulator) : List StreamItem :=
  match normalizeResponsesResponse json provider response with
  | .error _ => []
  | .ok (response, some _) => completedItems json response acc
  | .ok (response, none) => completedItems json response acc ++
      [.connectionLost "Responses stream ended before response.completed"]

theorem sentItems_eq (events : List ResponsesProgress) :
    sentItems json events response provider =
      (run {} events).1 ++ completedSent json provider response (run {} events).2 := by
  have hok (items : List StreamItem) :
      (items.map fun item => (.ok item : ProviderItem)).filterMap Except.toOption = items := by
    rw [filterMap_map]
    exact filterMap_some
  unfold sentItems streamResponsesEvents completedSent
  rw [process_append, processResponsesEvents, parseResponsesStreamEvent]
  cases normalizeResponsesResponse json provider response with
  | error error =>
    dsimp only
    rw [if_pos rfl, filterMap_append, hok]
    rfl
  | ok normalized =>
    obtain ⟨normalized, id⟩ := normalized
    cases id with
    | some id =>
      dsimp only
      rw [if_pos rfl, filterMap_append, hok, hok]
    | none =>
      dsimp only
      rw [processResponsesEvents, if_neg Bool.false_ne_true, append_nil,
        filterMap_append, filterMap_append, hok, hok, append_assoc]
      rfl

/-- The calls of a response. -/
def ResponsesApiResponse.calls (json : JsonText) (response : ResponsesApiResponse) :
    List ToolCall :=
  response.output.filterMap (ResponsesOutputBlock.toolCall json)

theorem textsOf_completedItems (normalized : Response) (acc : ResponsesToolCallAccumulator) :
    textsOf (completedItems json normalized acc) =
      if acc.streamed_text_deltas then [] else normalized.message.content.toList := by
  have hcalls : textsOf (normalized.tool_calls.mapIdx fun idx call =>
      .toolCallDelta (wholeCallDelta json idx call)) = [] :=
    filterMap_eq_nil_iff.mpr fun item hmem => by
      obtain ⟨idx, hidx, rfl⟩ := mem_mapIdx.mp hmem
      rfl
  have hcontent : textsOf (normalized.message.content.toList.map .text) =
      normalized.message.content.toList := by
    cases normalized.message.content <;> rfl
  have hrest : textsOf (normalized.usage.toList.map .usageUpdate ++
      normalized.finish_reason.toList.map .finishReason) = [] := by
    cases normalized.usage <;> cases normalized.finish_reason <;> rfl
  unfold completedItems
  rw [append_assoc, textsOf_append, textsOf_append, hrest, append_nil]
  split_ifs
  · rfl
  · exact hcalls
  · rw [hcontent]
    exact append_nil _
  · rw [hcontent, hcalls, append_nil]

theorem deltasOf_completedItems (normalized : Response) (acc : ResponsesToolCallAccumulator) :
    deltasOf (completedItems json normalized acc) =
      if acc.streamed_argument_deltas then []
      else normalized.tool_calls.mapIdx (wholeCallDelta json) := by
  have hcalls (calls : List ToolCall) (f : ℕ → ToolCall → ToolCallDelta) :
      deltasOf (calls.mapIdx fun idx call => .toolCallDelta (f idx call)) = calls.mapIdx f := by
    induction calls generalizing f with
    | nil => rfl
    | cons call calls ih =>
      rw [mapIdx_cons, mapIdx_cons, ← ih]
      rfl
  have hcontent : deltasOf (normalized.message.content.toList.map .text) = [] := by
    cases normalized.message.content <;> rfl
  have hrest : deltasOf (normalized.usage.toList.map .usageUpdate ++
      normalized.finish_reason.toList.map .finishReason) = [] := by
    cases normalized.usage <;> cases normalized.finish_reason <;> rfl
  unfold completedItems
  rw [append_assoc, deltasOf_append, deltasOf_append, hrest, append_nil]
  split_ifs
  · rfl
  · exact hcalls _ _
  · rw [hcontent]
    rfl
  · rw [hcontent, hcalls, nil_append]

/-- The text of the completed response is sent where none was streamed, and all its calls where no
argument was. -/
theorem completedSent_spec (acc : ResponsesToolCallAccumulator) :
    String.join (textsOf (completedSent json provider response acc)) =
        (if acc.streamed_text_deltas then "" else response.text) ∧
      deltasOf (completedSent json provider response acc) =
        if acc.streamed_argument_deltas then []
        else (response.calls json).mapIdx (wholeCallDelta json) := by
  have hlost (items : List StreamItem) (message : String) :
      textsOf (items ++ [.connectionLost message]) = textsOf items ∧
        deltasOf (items ++ [.connectionLost message]) = deltasOf items := by
    rw [textsOf_append, deltasOf_append]
    exact ⟨append_nil _, append_nil _⟩
  by_cases hempty : response.output = []
  · have hnone : completedSent json provider response acc = [] := by
      unfold completedSent normalizeResponsesResponse
      rw [if_pos hempty]
    have htext : response.text = "" := by
      rw [ResponsesApiResponse.text, hempty]
      rfl
    have hcalls : response.calls json = [] := by
      rw [ResponsesApiResponse.calls, hempty]
      rfl
    rw [hnone, htext, hcalls]
    split_ifs <;> exact ⟨rfl, rfl⟩
  · obtain ⟨normalized, hnormalized, hcontent, hcalls⟩ : ∃ normalized : Response,
        normalizeResponsesResponse json provider response = .ok (normalized, response.id) ∧
          String.join normalized.message.content.toList = response.text ∧
          normalized.tool_calls = response.calls json := by
      refine ⟨_, if_neg hempty, ?_, rfl⟩
      show String.join (Option.toList (if response.output.flatMap ResponsesOutputBlock.texts = []
        then none else some (String.join (response.output.flatMap ResponsesOutputBlock.texts)))) = _
      unfold ResponsesApiResponse.text
      split_ifs with hnone
      · rw [hnone]
        rfl
      · simp [String.join]
    have hspec : String.join (textsOf (completedItems json normalized acc)) =
          (if acc.streamed_text_deltas then "" else response.text) ∧
        deltasOf (completedItems json normalized acc) =
          if acc.streamed_argument_deltas then []
          else (response.calls json).mapIdx (wholeCallDelta json) := by
      rw [textsOf_completedItems, deltasOf_completedItems, hcalls, ← hcontent]
      refine ⟨?_, rfl⟩
      split_ifs <;> rfl
    unfold completedSent
    rw [hnormalized]
    cases response.id with
    | some id => exact hspec
    | none =>
      rw [(hlost _ _).1, (hlost _ _).2]
      exact hspec

end Completed

/-! ## Texts -/

theorem join_filter_ne (texts : List String) :
    String.join (texts.filter (· ≠ "")) = String.join texts := by
  induction texts with
  | nil => rfl
  | cons text texts ih =>
    rw [filter_cons, String.join_cons, ← ih]
    by_cases hempty : text = ""
    · rw [if_neg (by simpa using hempty), hempty, String.empty_append]
    · rw [if_pos (by simpa using hempty), String.join_cons]

/-- The text of a response is that of its messages, in their order. -/
theorem ResponsesApiResponse.text_eq (response : ResponsesApiResponse) :
    response.text = String.join ((List.range response.output.length).map response.textOf) := by
  have hblock (block : ResponsesOutputBlock) : String.join block.texts = block.text := by
    cases block with
    | message role content => exact join_filter_ne content
    | functionCall call_id name arguments => rfl
  have hjoin (blocks : List ResponsesOutputBlock) :
      String.join (blocks.flatMap ResponsesOutputBlock.texts) =
        String.join (blocks.map ResponsesOutputBlock.text) := by
    induction blocks with
    | nil => rfl
    | cons block blocks ih =>
      rw [flatMap_cons, String.join_append, ih, hblock, map_cons, String.join_cons]
  have hrange : response.output.map ResponsesOutputBlock.text =
      (List.range response.output.length).map response.textOf := by
    refine ext_getElem (by simp) fun i hi hi' => ?_
    have hlt : i < response.output.length := by simpa using hi
    simp [ResponsesApiResponse.textOf, hlt]
  rw [ResponsesApiResponse.text, hjoin, hrange]

namespace ResponsesProgress

variable {events : List ResponsesProgress} {response : ResponsesApiResponse}

/-- The deltas of all messages are as long as those of each of them together. -/
theorem length_texts {n : ℕ} (h : ∀ i, n ≤ i → textAt events i = []) :
    (String.join (texts events)).length =
      ∑ i ∈ Finset.range n, (String.join (textAt events i)).length := by
  induction events with
  | nil => simp [texts, textAt]
  | cons event events ih =>
    cases event with
    | text output_index delta =>
      have hat (i : ℕ) : textAt (text output_index delta :: events) i =
          (if output_index = i then [delta] else []) ++ textAt events i := by
        by_cases hi : output_index = i <;> simp [textAt, hi]
      have hlt : output_index < n := by
        by_contra hge
        have hnone := h output_index (by omega)
        rw [hat, if_pos rfl] at hnone
        exact cons_ne_nil _ _ hnone
      have htail := ih fun i hi => by
        have hnone := h i hi
        rw [hat] at hnone
        exact (append_eq_nil_iff.mp hnone).2
      have hlength (i : ℕ) : (String.join (textAt (text output_index delta :: events) i)).length =
          (if output_index = i then delta.length else 0) +
            (String.join (textAt events i)).length := by
        rw [hat, String.join_append, String.length_append]
        split_ifs
        · rw [String.join_cons, String.join_nil, String.append_empty]
        · rfl
      have hcons : texts (text output_index delta :: events) = delta :: texts events := rfl
      simp only [hlength]
      rw [Finset.sum_add_distrib, Finset.sum_ite_eq, if_pos (Finset.mem_range.mpr hlt), hcons,
        String.join_cons, String.length_append, htail]
    | _ => exact ih h

/-- A message with deltas has them as its text. -/
theorem AddsUp.join_textAt (h : AddsUp events response) {i : ℕ} (hi : textAt events i ≠ []) :
    i < response.output.length ∧ String.join (textAt events i) = response.textOf i := by
  obtain ⟨role, content, hblock, hjoin⟩ := (h.text i).resolve_left hi
  have htext : response.textOf i = String.join content := by
    rw [ResponsesApiResponse.textOf, hblock]
    rfl
  exact ⟨(List.getElem?_eq_some_iff.mp hblock).1, hjoin.trans htext.symm⟩

/-- Where the deltas of some messages give the text of the response, they are of all messages. -/
theorem AddsUp.all_streamed (h : AddsUp events response)
    (hjoin : String.join (texts events) = response.text) (i : ℕ) (hi : response.textOf i ≠ "") :
    textAt events i ≠ [] := by
  have hlt : i < response.output.length := by
    by_contra hge
    rw [ResponsesApiResponse.textOf, List.getElem?_eq_none (by omega)] at hi
    exact hi rfl
  have hout : ∀ j, response.output.length ≤ j → textAt events j = [] := by
    intro j hj
    by_contra hne
    have hlt := (h.join_textAt hne).1
    omega
  have hle : ∀ j ∈ Finset.range response.output.length,
      (String.join (textAt events j)).length ≤ (response.textOf j).length := by
    intro j _
    by_cases hne : textAt events j = []
    · rw [hne]
      exact Nat.zero_le _
    · rw [(h.join_textAt hne).2]
  have hsum : ∑ j ∈ Finset.range response.output.length, (String.join (textAt events j)).length =
      ∑ j ∈ Finset.range response.output.length, (response.textOf j).length := by
    rw [← length_texts hout, hjoin, response.text_eq, String.length_join, map_map]
    rfl
  have heq := (Finset.sum_eq_sum_iff_of_le hle).mp hsum i (Finset.mem_range.mpr hlt)
  intro hnone
  rw [hnone] at heq
  exact hi (String.length_eq_zero_iff.mp heq.symm)

/-- Where all messages are streamed, their deltas give the text of the response in their order. -/
theorem AddsUp.join_ordered (h : AddsUp events response)
    (hall : ∀ i, response.textOf i ≠ "" → textAt events i ≠ []) :
    String.join ((List.range response.output.length).map fun i => String.join (textAt events i)) =
      response.text := by
  have hsame (i : ℕ) : String.join (textAt events i) = response.textOf i := by
    by_cases hi : textAt events i = []
    · have hempty : response.textOf i = "" := by
        by_contra hne
        exact hall i hne hi
      rw [hi, hempty]
      rfl
    · exact (h.join_textAt hi).2
  rw [response.text_eq, map_congr_left fun i _ => hsame i]

/-- The text of the response is sent exactly where all messages are streamed or none is. -/
theorem AddsUp.text_iff (h : AddsUp events response) (json : JsonText) (provider : String) :
    String.join (textsOf (sentItems json events response provider)) = response.text ↔
      TextWhole events response := by
  have hrecords := run_streamRecords events
  have hsent : String.join (textsOf (run {} events).1) = String.join (texts events) := by
    rw [hrecords.sent, join_filter_ne]
  rw [sentItems_eq, textsOf_append, String.join_append, hsent,
    (completedSent_spec json provider response _).1, hrecords.text_flag]
  by_cases hnone : ∀ delta ∈ texts events, delta = ""
  · -- nothing was streamed, and the completed response has the text
    have hflag : (texts events).any (· ≠ "") = false := by simpa using hnone
    have hempty : String.join (texts events) = "" := by
      rw [← join_filter_ne, filter_eq_nil_iff.mpr (by simpa using hnone)]
      rfl
    rw [hflag, if_neg Bool.false_ne_true, hempty, String.empty_append]
    exact ⟨fun _ => .inl hnone, fun _ => rfl⟩
  · have hflag : (texts events).any (· ≠ "") = true := by
      simpa using hnone
    rw [hflag, if_pos rfl, String.append_empty]
    constructor
    · intro hjoin
      have hall := h.all_streamed hjoin
      exact .inr ⟨hall, hjoin.trans (h.join_ordered hall).symm⟩
    · intro hwhole
      obtain ⟨hall, hordered⟩ := hwhole.resolve_left hnone
      exact hordered.trans (h.join_ordered hall)

/-! ## Calls -/

variable {json : JsonText}

/-- The calls whose arguments are streamed are calls of the response. -/
theorem AddsUp.callAt_isSome (h : AddsUp events response) {i : ℕ} (hi : i ∈ argumentItems events) :
    (response.callAt json i).isSome := by
  obtain ⟨call_id, name, arguments, hblock, -⟩ :=
    (h.arguments i).resolve_left ((mem_argumentItems events i).mp hi)
  rw [ResponsesApiResponse.callAt, hblock]
  rfl

/-- What is assembled for a streamed call is the call, exactly where its id and its name are. -/
theorem AddsUp.assembled_call_iff (h : AddsUp events response) {i : ℕ} {call : ToolCall}
    (hcall : response.callAt json i = some call) (hi : i ∈ argumentItems events) :
    (assembled events i).call json = some call ↔
      lastId (upToArguments events i) i = some call.id ∧
        lastName (upToArguments events i) i = some call.name := by
  obtain ⟨call_id, name, arguments, hblock, hjoin⟩ :=
    (h.arguments i).resolve_left ((mem_argumentItems events i).mp hi)
  rw [ResponsesApiResponse.callAt, hblock] at hcall
  cases hcall
  unfold ToolCallAccumulatorEntry.call assembled
  rw [hjoin]
  cases lastId (upToArguments events i) i with
  | none => simp
  | some id =>
    cases lastName (upToArguments events i) i with
    | none => simp
    | some name' => simp [ResponsesOutputBlock.toolCall]

section

variable {acc : ResponsesToolCallAccumulator} {items : List StreamItem}

/-- Something is under the ordinals of the calls that are streamed. -/
theorem CallRecords.mem_keys (h : CallRecords events acc (deltasOf items)) {n : ℕ} :
    n ∈ Fields.keys (accumulate (deltasOf items)) ↔
      ∃ i ∈ argumentItems events, acc.ordinalOf i = n := by
  have hindices : n ∈ (deltasOf items).map ToolCallDelta.index ↔
      n ∈ (argumentItems events).map acc.ordinalOf := by rw [h.indices]
  rw [mem_keys_accumulate, ← mem_map, hindices, mem_map]

/-- Under the ordinal of a streamed call it is assembled. -/
theorem CallRecords.lookup (h : CallRecords events acc (deltasOf items)) {i : ℕ}
    (hi : i ∈ argumentItems events) :
    (accumulate (deltasOf items)).lookup (acc.ordinalOf i) = some (assembled events i) := by
  obtain ⟨delta, hdelta, hindex⟩ := (mem_keys_accumulate _ _).mp (h.mem_keys.mpr ⟨i, hi, rfl⟩)
  have hne : deltasAt (deltasOf items) (acc.ordinalOf i) ≠ [] :=
    ne_nil_of_mem (mem_filter.mpr ⟨hdelta, decide_eq_true hindex⟩)
  rw [lookup_accumulate, if_neg hne, h.assembles]

/-- If all calls are streamed in whole, their ordinals are their indices. -/
theorem CallRecords.assembledAt (h : CallRecords events acc (deltasOf items))
    (hadds : AddsUp events response)
    (hall : ∀ i call, response.callAt json i = some call → argumentsAt events i ≠ [] ∧
      lastId (upToArguments events i) i = some call.id ∧
      lastName (upToArguments events i) i = some call.name) :
    AssembledAt json events response items acc.ordinalOf where
  own := h.indices ▸ prefix_refl _
  injective i j hi hj hij := by
    have hordinal {i : ℕ} (hi : (response.callAt json i).isSome) :
        (acc.entry i).ordinal = some (acc.ordinalOf i) := by
      obtain ⟨call, hcall⟩ := Option.isSome_iff_exists.mp hi
      obtain ⟨ordinal, hordinal⟩ := Option.isSome_iff_exists.mp
        (h.known i ((mem_argumentItems events i).mpr (hall i call hcall).1))
      rw [ResponsesToolCallAccumulator.ordinalOf, hordinal]
      rfl
    exact h.distinct.inj i j _ (hordinal hi) (hij ▸ hordinal hj)
  calls i call hcall := by
    obtain ⟨hdeltas, hknown⟩ := hall i call hcall
    have hi := (mem_argumentItems events i).mpr hdeltas
    rw [h.lookup hi]
    exact (hadds.assembled_call_iff hcall hi).mpr hknown
  only n hn := by
    obtain ⟨i, hi, hordinal⟩ := h.mem_keys.mp hn
    exact ⟨i, hadds.callAt_isSome hi, hordinal⟩

/-- If each call has an index, and only streamed ones have deltas, then all are streamed in whole.
-/
theorem CallRecords.whole (h : CallRecords events acc (deltasOf items))
    (hadds : AddsUp events response) {index : ℕ → ℕ}
    (hindex : AssembledAt json events response items index) (i : ℕ) (call : ToolCall)
    (hcall : response.callAt json i = some call) :
    argumentsAt events i ≠ [] ∧ lastId (upToArguments events i) i = some call.id ∧
      lastName (upToArguments events i) i = some call.name := by
  have hown : ∀ j ∈ argumentItems events, index j = acc.ordinalOf j := by
    have hfront := hindex.own
    rw [h.indices] at hfront
    have heq := hfront.eq_of_length (by rw [length_map, length_map])
    exact map_inj_left.mp heq
  obtain ⟨entry, hentry, hassembled⟩ := Option.bind_eq_some_iff.mp (hindex.calls i call hcall)
  have hkey : index i ∈ Fields.keys (accumulate (deltasOf items)) := by
    by_contra hnone
    rw [Fields.lookup_eq_none hnone] at hentry
    exact nomatch hentry
  -- the index is the ordinal of a streamed call, which is this one
  obtain ⟨j, hj, hordinal⟩ := h.mem_keys.mp hkey
  have hji : j = i := hindex.injective j i (hadds.callAt_isSome hj) (by rw [hcall]; rfl)
    ((hown j hj).trans hordinal)
  rw [hji] at hj
  rw [hown i hj, h.lookup hj] at hentry
  rw [← Option.some.inj hentry] at hassembled
  exact ⟨(mem_argumentItems events i).mp hj, (hadds.assembled_call_iff hcall hj).mp hassembled⟩

end

/-- Under an index stands the whole call that was sent with it. -/
theorem lookup_wholeCalls (json : JsonText) (calls : List ToolCall) (n : ℕ) :
    (accumulate (calls.mapIdx (wholeCallDelta json))).lookup n =
      calls[n]?.map fun call => ToolCallAccumulatorEntry.merge {} (wholeCallDelta json n call) := by
  induction calls using List.reverseRecOn generalizing n with
  | nil => rfl
  | append_singleton calls call ih =>
    have hindex : (wholeCallDelta json calls.length call).index = calls.length := rfl
    rw [mapIdx_concat, accumulate_concat, ToolCallAccumulator.merge, hindex,
      Fields.lookup_insert, ih, ih, List.getElem?_eq_none (Nat.le_refl _)]
    by_cases hn : n = calls.length
    · rw [if_pos hn, hn, List.getElem?_concat_length]
      rfl
    · rw [if_neg hn, List.getElem?_append]
      split_ifs with hlt
      · rfl
      · rw [List.getElem?_eq_none (by omega), List.getElem?_eq_none (by simp; omega)]

end ResponsesProgress

/-- The arguments of the calls are printed as JSON texts that are read as them again. -/
def ResponsesApiResponse.PrintsBack (json : JsonText) (response : ResponsesApiResponse) : Prop :=
  ∀ call ∈ response.calls json, json.parse (json.print call.arguments) = .ok call.arguments

namespace ResponsesProgress

variable {events : List ResponsesProgress} {response : ResponsesApiResponse} {json : JsonText}

/-- A call that is sent whole is read as it is. -/
theorem call_wholeCallDelta (hprints : response.PrintsBack json) {call : ToolCall}
    (hcall : call ∈ response.calls json) (n : ℕ) :
    (ToolCallAccumulatorEntry.merge {} (wholeCallDelta json n call)).call json = some call := by
  have hmetadata : call.metadata = none := by
    obtain ⟨block, -, hblock⟩ := mem_filterMap.mp hcall
    cases block with
    | message role content => exact nomatch hblock
    | functionCall call_id name arguments => exact Option.some.inj hblock ▸ rfl
  have hread : json.parse ("" ++ json.print call.arguments) = .ok call.arguments := by
    rw [String.empty_append]
    exact hprints call hcall
  obtain ⟨id, name, arguments, metadata⟩ := call
  obtain rfl : metadata = none := hmetadata
  show some (ToolCall.mk id name ((json.parse ("" ++ json.print arguments)).toOption.getD _) none) =
    some _
  rw [hread]
  rfl

/-- If all calls are sent whole, their places among the calls are their indices. -/
theorem assembledAt_wholeCalls (hprints : response.PrintsBack json) {items : List StreamItem}
    (hdeltas : deltasOf items = (response.calls json).mapIdx (wholeCallDelta json))
    (hnone : argumentItems events = []) :
    AssembledAt json events response items
      (response.output.keptBefore (ResponsesOutputBlock.toolCall json)) where
  own := by
    rw [hnone]
    exact nil_prefix
  injective i j hi hj hij := by
    obtain ⟨call, hcall⟩ := Option.isSome_iff_exists.mp hi
    obtain ⟨call', hcall'⟩ := Option.isSome_iff_exists.mp hj
    exact keptBefore_inj hcall hcall' hij
  calls i call hcall := by
    have hplace : (response.calls json)[response.output.keptBefore
        (ResponsesOutputBlock.toolCall json) i]? = some call := List.getElem?_keptBefore hcall
    rw [hdeltas, lookup_wholeCalls, hplace]
    exact call_wholeCallDelta hprints (mem_of_getElem? hplace) _
  only n hn := by
    rw [hdeltas] at hn
    obtain ⟨delta, hdelta, hindex⟩ := (mem_keys_accumulate _ _).mp hn
    obtain ⟨idx, hidx, rfl⟩ := mem_mapIdx.mp hdelta
    exact exists_keptBefore (hindex ▸ hidx)

/-- Each call of the response is sent once exactly where all calls are streamed, with their ids and
names known at their last deltas, or none is. -/
theorem AddsUp.calls_iff (h : AddsUp events response) (hprints : response.PrintsBack json)
    (provider : String) :
    (∃ index, AssembledAt json events response (sentItems json events response provider) index) ↔
      CallsWhole json events response := by
  have hflag := (run_streamRecords events).argument_flag
  have hsent : deltasOf (sentItems json events response provider) =
      deltasOf (run {} events).1 ++
        if (run {} events).2.streamed_argument_deltas then []
        else (response.calls json).mapIdx (wholeCallDelta json) := by
    rw [sentItems_eq, deltasOf_append, (completedSent_spec json provider response _).2]
  have hrecords := run_callRecords events
  by_cases hnone : argumentItems events = []
  · have hstreamed : deltasOf (run {} events).1 = [] := by
      have hindices := hrecords.indices
      rw [hnone] at hindices
      exact map_eq_nil_iff.mp hindices
    rw [hnone] at hflag
    rw [hstreamed, hflag] at hsent
    exact ⟨fun _ => .inl hnone, fun _ => ⟨_, assembledAt_wholeCalls hprints hsent hnone⟩⟩
  · have hset : (run {} events).2.streamed_argument_deltas = true := by
      obtain ⟨i, hi⟩ := exists_mem_of_ne_nil _ hnone
      rw [hflag]
      exact any_eq_true.mpr ⟨i, hi, rfl⟩
    rw [hset, if_pos rfl, append_nil] at hsent
    rw [← hsent] at hrecords
    constructor
    · rintro ⟨index, hindex⟩
      exact .inr (hrecords.whole h hindex)
    · intro hwhole
      exact ⟨_, hrecords.assembledAt h (hwhole.resolve_left hnone)⟩

end ResponsesProgress

open ResponsesProgress in
/-- Each output of a response is emitted once exactly where all messages are streamed or none is,
and all calls or none. -/
theorem sentItems_emitsOnce_iff (json : JsonText) (provider : String)
    (events : List ResponsesProgress) (response : ResponsesApiResponse)
    (hadds : AddsUp events response) (hprints : response.PrintsBack json) :
    EmitsOnce json events response (sentItems json events response provider) ↔
      TextWhole events response ∧ CallsWhole json events response := by
  rw [← hadds.text_iff json provider, ← hadds.calls_iff hprints provider]
  exact ⟨fun h => ⟨h.text, h.calls⟩, fun h => ⟨h.1, h.2⟩⟩

section Example

open ResponsesProgress

/-- A response with a message and two calls, whose deltas come mixed. -/
theorem twoCalls_emitsOnce :
    let events : List ResponsesProgress :=
      [text 0 "H", added 1 (some "call_a") (some "search"), arguments 1 "\x7b",
        added 2 (some "call_b") (some "fetch"), text 0 "i", arguments 2 "\x7b\x7d",
        arguments 1 "\x7d"]
    let response : ResponsesApiResponse :=
      { id := some "resp_1"
        output := [.message "assistant" ["Hi"], .functionCall "call_a" "search" "\x7b\x7d",
          .functionCall "call_b" "fetch" "\x7b\x7d"] }
    EmitsOnce emptyObjectJson events response
      (sentItems emptyObjectJson events response "test") := by
  intro events response
  have hadds : AddsUp events response := by
    refine ⟨fun i => ?_, fun i => ?_⟩
    · match i with
      | 0 => exact .inr ⟨_, _, rfl, by decide⟩
      | 1 | 2 => exact .inl rfl
      | i + 3 => exact .inl rfl
    · match i with
      | 0 => exact .inl rfl
      | 1 => exact .inr ⟨_, _, _, rfl, by decide⟩
      | 2 => exact .inr ⟨_, _, _, rfl, by decide⟩
      | i + 3 => exact .inl rfl
  have hprints : response.PrintsBack emptyObjectJson := by
    intro call hcall
    rcases mem_cons.mp hcall with rfl | hcall
    · decide
    · obtain rfl := mem_singleton.mp hcall
      decide
  refine (sentItems_emitsOnce_iff emptyObjectJson "test" events response hadds hprints).mpr
    ⟨.inr ⟨fun i htext => ?_, by decide⟩, .inr fun i call hcall => ?_⟩
  · match i with
    | 0 => decide
    | 1 | 2 => exact absurd rfl htext
    | i + 3 => exact absurd rfl htext
  · match i with
    | 0 => exact nomatch hcall
    | 1 | 2 =>
      cases hcall
      decide
    | i + 3 => exact nomatch hcall

/-- A call whose arguments are not streamed is lost beside one whose are. -/
theorem oneOfTwoCalls_not_emitsOnce :
    let events : List ResponsesProgress :=
      [added 0 (some "call_a") (some "search"), arguments 0 "\x7b\x7d"]
    let response : ResponsesApiResponse :=
      { id := some "resp_1"
        output := [.functionCall "call_a" "search" "\x7b\x7d",
          .functionCall "call_b" "fetch" "\x7b\x7d"] }
    AddsUp events response ∧ response.PrintsBack emptyObjectJson ∧
      ¬EmitsOnce emptyObjectJson events response
        (sentItems emptyObjectJson events response "test") := by
  intro events response
  have hadds : AddsUp events response := by
    refine ⟨fun i => .inl rfl, fun i => ?_⟩
    cases i with
    | zero => exact .inr ⟨_, _, _, rfl, by decide⟩
    | succ i => exact .inl rfl
  have hprints : response.PrintsBack emptyObjectJson := by
    intro call hcall
    rcases mem_cons.mp hcall with rfl | hcall
    · decide
    · obtain rfl := mem_singleton.mp hcall
      decide
  refine ⟨hadds, hprints, fun h => ?_⟩
  rcases (hadds.calls_iff hprints "test").mp h.calls with hnone | hall
  · exact absurd hnone (by decide)
  · exact (hall 1 _ rfl).1 rfl

end Example

end Oxydra
