import Oxydra.Provider.Responses

/-!
# Events of the Responses API

`parse_responses_stream_event` of `crates/provider/src/responses.rs` makes stream items of the
events of a response, and `process_responses_events` sends them. A `ResponsesToolCallAccumulator`
numbers the items of the output as they come, and keeps whether any text and any arguments were
streamed: the event that completes the response repeats its text unless a text delta came before it,
and its calls unless a delta of arguments did.
-/

namespace Oxydra

/-! ## Events -/

/-- An event of a stream, with what its data says. -/
inductive ResponsesEvent where
  | outputTextDelta (delta : String)
  | functionCallArgumentsDelta (output_index : ℕ) (delta : String)
  | outputItemAdded (output_index : ℕ) (call_id name : Option String)
  | completed (response : ResponsesApiResponse)
  | failed (error : Option String)
  /-- Data of one of these kinds that `serde_json` does not read. -/
  | malformed (kind error : String)
  | other
  deriving DecidableEq, Repr

inductive ResponsesEventAction where
  | items (items : List StreamItem)
  | completed (response_id : String) (items : List StreamItem)
  | error (error : ProviderError)
  deriving DecidableEq, Repr

structure ToolCallState where
  id : Option String := none
  name : Option String := none
  arguments : String := ""
  ordinal : Option ℕ := none
  deriving DecidableEq, Repr

structure ResponsesToolCallAccumulator where
  output_index_to_call : List (ℕ × ToolCallState) := []
  next_ordinal : ℕ := 0
  streamed_argument_deltas : Bool := false
  streamed_text_deltas : Bool := false
  deriving DecidableEq, Repr

namespace ResponsesToolCallAccumulator

section

variable (acc : ResponsesToolCallAccumulator) (output_index : ℕ)

/-- The entry of an item, with `or_default`. -/
def entry : ToolCallState :=
  (acc.output_index_to_call.lookup output_index).getD {}

/-- The accumulator with another entry of an item. -/
def setEntry (entry : ToolCallState) :
    ResponsesToolCallAccumulator :=
  { acc with output_index_to_call := Fields.insert output_index entry acc.output_index_to_call }

/-- What `register_output_item` and `append_arguments` begin with: the next ordinal for an entry
that has none. -/
def assignOrdinal :
    ResponsesToolCallAccumulator :=
  if (acc.entry output_index).ordinal = none then
    let next := acc.next_ordinal
    { acc with next_ordinal := next + 1 }.setEntry output_index
      { acc.entry output_index with ordinal := some next }
  else acc

/-- `register_output_item`. -/
def registerOutputItem (call_id name : Option String) : ResponsesToolCallAccumulator :=
  let acc := acc.assignOrdinal output_index
  let entry := acc.entry output_index
  acc.setEntry output_index { entry with id := call_id.or entry.id, name := name.or entry.name }

/-- `append_arguments`. The entry has an ordinal, so there always is an item. -/
def appendArguments (delta : String) :
    Option StreamItem × ResponsesToolCallAccumulator :=
  let acc := { acc.assignOrdinal output_index with streamed_argument_deltas := true }
  let entry := acc.entry output_index
  let entry := { entry with arguments := entry.arguments ++ delta }
  (entry.ordinal.map fun ordinal => .toolCallDelta {
      index := ordinal
      id := entry.id
      name := entry.name
      arguments := if delta = "" then none else some delta },
    acc.setEntry output_index entry)

end

end ResponsesToolCallAccumulator

section Parse

variable (json : JsonText) (provider : String)

/-- The delta of a whole call. -/
def wholeCallDelta (idx : ℕ) (tool_call : ToolCall) : ToolCallDelta where
  index := idx
  id := some tool_call.id
  name := some tool_call.name
  arguments := some (json.print tool_call.arguments)

/-- The items of a completed response: what was not streamed, the usage and the reason. -/
def completedItems (response : Response) (acc : ResponsesToolCallAccumulator) : List StreamItem :=
  (if acc.streamed_text_deltas then [] else response.message.content.toList.map .text) ++
    (if acc.streamed_argument_deltas then []
      else response.tool_calls.mapIdx fun idx call =>
        .toolCallDelta (wholeCallDelta json idx call)) ++
    response.usage.toList.map .usageUpdate ++
    response.finish_reason.toList.map .finishReason

/-- `parse_responses_stream_event`. -/
def parseResponsesStreamEvent (acc : ResponsesToolCallAccumulator) :
    ResponsesEvent → Except ProviderError ResponsesEventAction × ResponsesToolCallAccumulator
  | .outputTextDelta delta =>
    if delta = "" then (.ok (.items []), acc)
    else (.ok (.items [.text delta]), { acc with streamed_text_deltas := true })
  | .functionCallArgumentsDelta output_index delta =>
    let (item, acc) := acc.appendArguments output_index delta
    (.ok (.items item.toList), acc)
  | .outputItemAdded output_index call_id name =>
    (.ok (.items []), acc.registerOutputItem output_index call_id name)
  | .completed response =>
    match normalizeResponsesResponse json provider response with
    | .error error => (.error error, acc)
    | .ok (response, some response_id) =>
      (.ok (.completed response_id (completedItems json response acc)), acc)
    | .ok (response, none) => (.ok (.items (completedItems json response acc)), acc)
  | .failed error =>
    (.ok (.error (.requestFailed provider (error.getD "Responses API failed"))), acc)
  | .malformed kind error =>
    (.error (.responseParse provider ("failed to parse " ++ kind ++ ": " ++ error)), acc)
  | .other => (.ok (.items []), acc)

/-- `process_responses_events`: what is sent, and whether the stream was finished. -/
def processResponsesEvents (acc : ResponsesToolCallAccumulator) :
    List ResponsesEvent → List ProviderItem × Bool
  | [] => ([], false)
  | event :: events =>
    match parseResponsesStreamEvent json provider acc event with
    | (.error error, _) => ([.error error], true)
    | (.ok (.items items), acc) =>
      let (sent, stream_finished) := processResponsesEvents acc events
      (items.map .ok ++ sent, stream_finished)
    | (.ok (.completed _ items), _) => (items.map .ok, true)
    | (.ok (.error error), _) => ([.error error], true)

/-- What `stream` sends of these events. -/
def streamResponsesEvents (events : List ResponsesEvent) : List ProviderItem :=
  let (sent, stream_finished) := processResponsesEvents json provider {} events
  if stream_finished then sent
  else sent ++ [.ok (.connectionLost "Responses stream ended before response.completed")]

end Parse

/-! ## Ordinals -/

namespace ResponsesToolCallAccumulator

/-- The ordinal of an item, or the one that it would get. -/
def ordinalOf (acc : ResponsesToolCallAccumulator) (i : ℕ) : ℕ :=
  (acc.entry i).ordinal.getD acc.next_ordinal

/-- The ordinals are below the next one, and different items have different ones. -/
structure Distinct (acc : ResponsesToolCallAccumulator) : Prop where
  lt : ∀ i ordinal, (acc.entry i).ordinal = some ordinal → ordinal < acc.next_ordinal
  inj : ∀ i j ordinal, (acc.entry i).ordinal = some ordinal →
    (acc.entry j).ordinal = some ordinal → i = j

/-- What an event of an item does: it has its ordinal then, and the others keep their entries. -/
structure Touches (acc acc' : ResponsesToolCallAccumulator) (i : ℕ) : Prop where
  ordinal : (acc'.entry i).ordinal = some (acc.ordinalOf i)
  others : ∀ j, j ≠ i → acc'.entry j = acc.entry j
  next : acc'.next_ordinal =
    if (acc.entry i).ordinal = none then acc.next_ordinal + 1 else acc.next_ordinal

variable {acc acc' : ResponsesToolCallAccumulator} {i j : ℕ}

section

variable (acc : ResponsesToolCallAccumulator)

theorem entry_setEntry (i j : ℕ) (entry : ToolCallState) :
    (acc.setEntry i entry).entry j = if j = i then entry else acc.entry j := by
  unfold ResponsesToolCallAccumulator.entry setEntry
  rw [Fields.lookup_insert]
  split_ifs <;> rfl

/-- An entry is given its ordinal, and nothing else is changed. -/
theorem entry_assignOrdinal (i j : ℕ) :
    (acc.assignOrdinal i).entry j =
      if j = i then { acc.entry i with ordinal := some (acc.ordinalOf i) } else acc.entry j := by
  unfold assignOrdinal ordinalOf
  cases hordinal : (acc.entry i).ordinal with
  | none => exact entry_setEntry _ i j _
  | some ordinal =>
    rw [if_neg (Option.some_ne_none ordinal), Option.getD_some, ← hordinal]
    split_ifs with hj
    · rw [hj]
    · rfl

theorem next_assignOrdinal (i : ℕ) :
    (acc.assignOrdinal i).next_ordinal =
      if (acc.entry i).ordinal = none then acc.next_ordinal + 1 else acc.next_ordinal := by
  unfold assignOrdinal
  split_ifs <;> rfl

/-- The entry that `register_output_item` leaves. -/
theorem entry_registerOutputItem (i j : ℕ)
    (call_id name : Option String) :
    (acc.registerOutputItem i call_id name).entry j =
      if j = i then
        { acc.entry i with
          id := call_id.or (acc.entry i).id
          name := name.or (acc.entry i).name
          ordinal := some (acc.ordinalOf i) }
      else acc.entry j := by
  unfold registerOutputItem
  rw [entry_setEntry, entry_assignOrdinal, entry_assignOrdinal, if_pos rfl]
  split_ifs <;> rfl

theorem touches_registerOutputItem (i : ℕ)
    (call_id name : Option String) : Touches acc (acc.registerOutputItem i call_id name) i where
  ordinal := by rw [entry_registerOutputItem, if_pos rfl]
  others j hj := by rw [entry_registerOutputItem, if_neg hj]
  next := next_assignOrdinal acc i

/-- The entry that `append_arguments` leaves. -/
theorem entry_appendArguments (i j : ℕ) (delta : String) :
    (acc.appendArguments i delta).2.entry j =
      if j = i then
        { acc.entry i with
          arguments := (acc.entry i).arguments ++ delta
          ordinal := some (acc.ordinalOf i) }
      else acc.entry j := by
  have hassign (j : ℕ) : ({ acc.assignOrdinal i with streamed_argument_deltas := true }).entry j =
      (acc.assignOrdinal i).entry j := rfl
  unfold appendArguments
  rw [entry_setEntry, hassign, hassign, entry_assignOrdinal, entry_assignOrdinal, if_pos rfl]
  split_ifs <;> rfl

theorem touches_appendArguments (i : ℕ) (delta : String) :
    Touches acc (acc.appendArguments i delta).2 i where
  ordinal := by rw [entry_appendArguments, if_pos rfl]
  others j hj := by rw [entry_appendArguments, if_neg hj]
  next := next_assignOrdinal acc i

/-- The item of `append_arguments`: a delta with the ordinal, the id and the name of the entry. -/
theorem appendArguments_item (i : ℕ) (delta : String) :
    (acc.appendArguments i delta).1 = some (.toolCallDelta {
      index := acc.ordinalOf i
      id := (acc.entry i).id
      name := (acc.entry i).name
      arguments := if delta = "" then none else some delta }) := by
  have hassign : ({ acc.assignOrdinal i with streamed_argument_deltas := true }).entry i =
      (acc.assignOrdinal i).entry i := rfl
  unfold appendArguments
  dsimp only
  rw [hassign, entry_assignOrdinal, if_pos rfl]
  rfl

theorem flags_assignOrdinal (i : ℕ) :
    (acc.assignOrdinal i).streamed_text_deltas = acc.streamed_text_deltas ∧
      (acc.assignOrdinal i).streamed_argument_deltas = acc.streamed_argument_deltas := by
  unfold assignOrdinal
  split_ifs <;> exact ⟨rfl, rfl⟩

end

namespace Touches

/-- An ordinal that was given stays. -/
theorem ordinalOf_eq (h : Touches acc acc' i) (hj : j = i ∨ (acc.entry j).ordinal.isSome) :
    acc'.ordinalOf j = acc.ordinalOf j := by
  unfold ordinalOf
  by_cases hown : j = i
  · rw [hown, h.ordinal]
    rfl
  · obtain ⟨ordinal, hordinal⟩ := Option.isSome_iff_exists.mp (hj.resolve_left hown)
    rw [h.others j hown, hordinal]
    rfl

theorem next_le (h : Touches acc acc' i) : acc.next_ordinal ≤ acc'.next_ordinal := by
  rw [h.next]
  split_ifs
  · exact Nat.le_succ _
  · exact Nat.le_refl _

theorem ordinalOf_lt (h : Touches acc acc' i) (hd : Distinct acc) :
    acc.ordinalOf i < acc'.next_ordinal := by
  rw [h.next]
  unfold ordinalOf
  cases hordinal : (acc.entry i).ordinal with
  | none => exact Nat.lt_succ_self _
  | some ordinal => exact hd.lt i ordinal hordinal

/-- The ordinal of an item is not that of another. -/
theorem ordinalOf_ne (hd : Distinct acc) (hj : j ≠ i) {ordinal : ℕ}
    (hordinal : (acc.entry j).ordinal = some ordinal) : ordinal ≠ acc.ordinalOf i := by
  unfold ordinalOf
  cases howner : (acc.entry i).ordinal with
  | none => exact Nat.ne_of_lt (hd.lt j ordinal hordinal)
  | some other =>
    rintro rfl
    exact hj (hd.inj j i ordinal hordinal howner)

/-- What another item has, or would get, is not the ordinal of the item. -/
theorem ordinalOf_ne_other (h : Touches acc acc' i) (hd : Distinct acc) (hj : j ≠ i) :
    acc'.ordinalOf j ≠ acc.ordinalOf i := by
  have hlt := h.ordinalOf_lt hd
  unfold ordinalOf at hlt ⊢
  rw [h.others j hj]
  cases hordinal : (acc.entry j).ordinal with
  | none => exact Nat.ne_of_gt hlt
  | some ordinal => exact ordinalOf_ne hd hj hordinal

theorem distinct (h : Touches acc acc' i) (hd : Distinct acc) : Distinct acc' where
  lt j ordinal hordinal := by
    by_cases hown : j = i
    · rw [hown, h.ordinal] at hordinal
      rw [← Option.some.inj hordinal]
      exact h.ordinalOf_lt hd
    · rw [h.others j hown] at hordinal
      exact Nat.lt_of_lt_of_le (hd.lt j ordinal hordinal) h.next_le
  inj j k ordinal hj hk := by
    by_cases hji : j = i
    · by_cases hki : k = i
      · rw [hji, hki]
      · rw [hji, h.ordinal] at hj
        rw [h.others k hki] at hk
        exact absurd (Option.some.inj hj).symm (ordinalOf_ne hd hki hk)
    · rw [h.others j hji] at hj
      by_cases hki : k = i
      · rw [hki, h.ordinal] at hk
        exact absurd (Option.some.inj hk).symm (ordinalOf_ne hd hji hj)
      · rw [h.others k hki] at hk
        exact hd.inj j k ordinal hj hk

end Touches

end ResponsesToolCallAccumulator

end Oxydra
