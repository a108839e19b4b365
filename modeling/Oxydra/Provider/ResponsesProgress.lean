import Mathlib.Data.List.DropRight
import Oxydra.Provider.ResponsesEvents

/-!
# Streams before the response is complete

The API sends deltas of the items of a response and says when an item is added. `run_callRecords`
and `run_streamRecords` say what a stream of the Responses API has sent of them, and what its
accumulator knows: text deltas are sent as they are, each delta of arguments has the ordinal of its
call and the id and the name that are known then, and the runtime assembles under the ordinal what
was known at the last one.
-/

namespace Oxydra

open List

/-! ## What is sent before -/

/-- What the API sends before a response is complete: deltas of the item at a place of its output,
and that an item was added there. -/
inductive ResponsesProgress where
  | text (output_index : ℕ) (delta : String)
  | arguments (output_index : ℕ) (delta : String)
  | added (output_index : ℕ) (call_id name : Option String)
  | other
  deriving DecidableEq, Repr

namespace ResponsesProgress

/-- What is read of it. The place of a text delta is not. -/
def event : ResponsesProgress → ResponsesEvent
  | text _ delta => .outputTextDelta delta
  | arguments output_index delta => .functionCallArgumentsDelta output_index delta
  | added output_index call_id name => .outputItemAdded output_index call_id name
  | other => .other

section

variable (events : List ResponsesProgress)

/-- All text deltas. -/
def texts : List String :=
  events.filterMap fun
    | text _ delta => some delta
    | _ => none

/-- The text deltas of a message. -/
def textAt (i : ℕ) : List String :=
  events.filterMap fun
    | text output_index delta => if output_index = i then some delta else none
    | _ => none

/-- The calls that have deltas of their arguments, one for each delta. -/
def argumentItems : List ℕ :=
  events.filterMap fun
    | arguments output_index _ => some output_index
    | _ => none

/-- The deltas of the arguments of a call. -/
def argumentsAt (i : ℕ) : List String :=
  events.filterMap fun
    | arguments output_index delta => if output_index = i then some delta else none
    | _ => none

/-- The ids and names with which an item was added. -/
def addedAt (i : ℕ) : List (Option String × Option String) :=
  events.filterMap fun
    | added output_index call_id name => if output_index = i then some (call_id, name) else none
    | _ => none

/-- The last id with which an item was added. -/
def lastId (i : ℕ) : Option String :=
  ((addedAt events i).filterMap Prod.fst).getLast?

/-- The last name with which an item was added. -/
def lastName (i : ℕ) : Option String :=
  ((addedAt events i).filterMap Prod.snd).getLast?

end

/-- Whether this is a delta of the arguments of a call. -/
def isArgumentsOf (i : ℕ) : ResponsesProgress → Bool
  | arguments output_index _ => output_index = i
  | _ => false

/-- The events up to the last delta of the arguments of a call. -/
def upToArguments (events : List ResponsesProgress) (i : ℕ) : List ResponsesProgress :=
  events.rdropWhile fun event => !isArgumentsOf i event

end ResponsesProgress

/-- The texts among the items of a stream. -/
def textsOf (items : List StreamItem) : List String :=
  items.filterMap fun
    | .text delta => some delta
    | _ => none

namespace ResponsesProgress

/-! ## One more event -/

section

variable (events : List ResponsesProgress) (event : ResponsesProgress) (i : ℕ)

/-- The entry of a call: what was known at the last delta of its arguments, and all its deltas. -/
def assembled : ToolCallAccumulatorEntry where
  id := lastId (upToArguments events i) i
  name := lastName (upToArguments events i) i
  arguments := String.join (argumentsAt events i)

/-- One more event. -/
theorem upToArguments_concat : upToArguments (events ++ [event]) i =
    if isArgumentsOf i event then events ++ [event] else upToArguments events i := by
  unfold upToArguments
  cases hevent : isArgumentsOf i event with
  | true => exact rdropWhile_concat_neg _ _ _ (by simp [hevent])
  | false => exact rdropWhile_concat_pos _ _ _ (by simp [hevent])

/-- Only a delta of a call's arguments changes what is assembled for it. -/
theorem assembled_concat_of_not (h : isArgumentsOf i event = false) :
    assembled (events ++ [event]) i = assembled events i := by
  have harguments : argumentsAt [event] i = [] := by
    cases event with
    | arguments output_index delta =>
      exact filterMap_cons_none (if_neg (of_decide_eq_false h))
    | _ => rfl
  unfold assembled argumentsAt at *
  rw [upToArguments_concat, h, filterMap_append, harguments, append_nil]
  rfl

/-- An item with arguments. -/
theorem mem_argumentItems : i ∈ argumentItems events ↔ argumentsAt events i ≠ [] := by
  unfold argumentItems argumentsAt
  rw [ne_eq, filterMap_eq_nil_iff, mem_filterMap]
  push Not
  constructor
  · rintro ⟨event, hmem, hevent⟩
    refine ⟨event, hmem, ?_⟩
    cases event with
    | arguments output_index delta => simpa using hevent
    | _ => exact nomatch hevent
  · rintro ⟨event, hmem, hevent⟩
    refine ⟨event, hmem, ?_⟩
    cases event with
    | arguments output_index delta => simpa using hevent
    | _ => exact absurd rfl hevent

/-- An id, or a name, that was known at the last delta is known later, if it is not replaced. -/
theorem getLast?_addedAt_or (f : Option String × Option String → Option String) :
    ((addedAt events i).filterMap f).getLast?.or
        ((addedAt (upToArguments events i) i).filterMap f).getLast? =
      ((addedAt events i).filterMap f).getLast? := by
  cases hlast : ((addedAt events i).filterMap f).getLast? with
  | some value => rfl
  | none =>
    have hsub : ((addedAt (upToArguments events i) i).filterMap f).Sublist
        ((addedAt events i).filterMap f) :=
      ((List.rdropWhile_prefix _ events).sublist.filterMap _).filterMap f
    rw [List.getLast?_eq_none_iff.mp hlast, sublist_nil] at hsub
    rw [hsub]
    rfl

/-- A delta with the id and the name that are known is put behind the others of its call. -/
theorem assembled_merge (ordinal : ℕ) (delta : String) :
    (assembled events i).merge {
        index := ordinal
        id := lastId events i
        name := lastName events i
        arguments := if delta = "" then none else some delta } =
      assembled (events ++ [arguments i delta]) i := by
  have hupTo : upToArguments (events ++ [arguments i delta]) i = events ++ [arguments i delta] := by
    have hown : isArgumentsOf i (arguments i delta) = true := decide_eq_true rfl
    rw [upToArguments_concat, if_pos hown]
  have hadded : addedAt (events ++ [arguments i delta]) i = addedAt events i := by
    simp [addedAt]
  have harguments : argumentsAt (events ++ [arguments i delta]) i =
      argumentsAt events i ++ [delta] := by
    simp [argumentsAt]
  have hdelta : (if delta = "" then none else some delta).getD "" = delta := by
    split_ifs with hempty
    · rw [hempty]
      rfl
    · rfl
  have hid := getLast?_addedAt_or events i Prod.fst
  have hname := getLast?_addedAt_or events i Prod.snd
  unfold assembled ToolCallAccumulatorEntry.merge lastId lastName
  rw [hupTo, hadded, harguments, hid, hname, hdelta, String.join_append]
  simp [String.join]

end

/-! ## Runs -/

/-- The items of an event. -/
def emitted (acc : ResponsesToolCallAccumulator) : ResponsesProgress → List StreamItem
  | text _ delta => if delta = "" then [] else [.text delta]
  | arguments output_index delta => (acc.appendArguments output_index delta).1.toList
  | added _ _ _ | other => []

/-- The accumulator after an event. -/
def next (acc : ResponsesToolCallAccumulator) : ResponsesProgress → ResponsesToolCallAccumulator
  | text _ delta => if delta = "" then acc else { acc with streamed_text_deltas := true }
  | arguments output_index delta => (acc.appendArguments output_index delta).2
  | added output_index call_id name => acc.registerOutputItem output_index call_id name
  | other => acc

/-- The items of events one after the other, and the accumulator after them. -/
def run (acc : ResponsesToolCallAccumulator) :
    List ResponsesProgress → List StreamItem × ResponsesToolCallAccumulator
  | [] => ([], acc)
  | event :: events =>
    (emitted acc event ++ (run (next acc event) events).1, (run (next acc event) events).2)

/-- One more event. -/
theorem run_concat (acc : ResponsesToolCallAccumulator) (events : List ResponsesProgress)
    (event : ResponsesProgress) :
    run acc (events ++ [event]) =
      ((run acc events).1 ++ emitted (run acc events).2 event, next (run acc events).2 event) := by
  induction events generalizing acc with
  | nil => simp [run]
  | cons first events ih => rw [cons_append, run, ih, run, append_assoc]

/-- What the parser makes of an event. -/
theorem parse_event (json : JsonText) (provider : String) (acc : ResponsesToolCallAccumulator)
    (event : ResponsesProgress) :
    parseResponsesStreamEvent json provider acc event.event =
      (.ok (.items (emitted acc event)), next acc event) := by
  cases event with
  | text output_index delta =>
    unfold ResponsesProgress.event parseResponsesStreamEvent emitted next
    dsimp only
    split_ifs <;> rfl
  | _ => rfl

/-- What is sent of a stream is the run of what comes before the last event, and then what is made
of that. -/
theorem process_append (json : JsonText) (provider : String) (acc : ResponsesToolCallAccumulator)
    (events : List ResponsesProgress) (rest : List ResponsesEvent) :
    processResponsesEvents json provider acc (events.map ResponsesProgress.event ++ rest) =
      ((run acc events).1.map .ok ++
          (processResponsesEvents json provider (run acc events).2 rest).1,
        (processResponsesEvents json provider (run acc events).2 rest).2) := by
  induction events generalizing acc with
  | nil => rfl
  | cons event events ih =>
    rw [map_cons, cons_append, processResponsesEvents, parse_event]
    dsimp only
    rw [ih, run, map_append, append_assoc]

/-- What is known of the calls: the entries have the last ids and names, each delta has the ordinal
of its call, and under it the runtime assembles the call. -/
structure CallRecords (events : List ResponsesProgress) (acc : ResponsesToolCallAccumulator)
    (deltas : List ToolCallDelta) : Prop where
  distinct : acc.Distinct
  id : ∀ i, (acc.entry i).id = lastId events i
  name : ∀ i, (acc.entry i).name = lastName events i
  known : ∀ i ∈ argumentItems events, (acc.entry i).ordinal.isSome
  indices : deltas.map ToolCallDelta.index = (argumentItems events).map acc.ordinalOf
  assembles : ∀ i, entryOf (deltasAt deltas (acc.ordinalOf i)) = assembled events i

section

open ResponsesToolCallAccumulator

variable {events : List ResponsesProgress} {acc acc' : ResponsesToolCallAccumulator}
  {deltas : List ToolCallDelta} {i : ℕ}

/-- An index was given before. -/
theorem CallRecords.index_lt (h : CallRecords events acc deltas) {delta : ToolCallDelta}
    (hdelta : delta ∈ deltas) : delta.index < acc.next_ordinal := by
  have hindex : delta.index ∈ (argumentItems events).map acc.ordinalOf := by
    rw [← h.indices]
    exact mem_map_of_mem hdelta
  obtain ⟨i, hi, hordinal⟩ := mem_map.mp hindex
  obtain ⟨ordinal, hsome⟩ := Option.isSome_iff_exists.mp (h.known i hi)
  rw [← hordinal, ordinalOf, hsome]
  exact h.distinct.lt i ordinal hsome

/-- Nothing has been sent under an ordinal that was not given. -/
theorem CallRecords.deltasAt_eq_nil (h : CallRecords events acc deltas) {ordinal : ℕ}
    (hle : acc.next_ordinal ≤ ordinal) : deltasAt deltas ordinal = [] := by
  refine filter_eq_nil_iff.mpr fun delta hdelta => ?_
  have hlt := h.index_lt hdelta
  rw [decide_eq_true_eq]
  omega

/-- An event of an item leaves what was sent of the others. -/
theorem CallRecords.deltasAt_touch (h : CallRecords events acc deltas) (ht : Touches acc acc' i)
    {j : ℕ} (hj : j ≠ i) :
    deltasAt deltas (acc'.ordinalOf j) = deltasAt deltas (acc.ordinalOf j) := by
  unfold ordinalOf
  rw [ht.others j hj]
  cases hordinal : (acc.entry j).ordinal with
  | some ordinal => rfl
  | none =>
    rw [Option.getD_none, Option.getD_none, h.deltasAt_eq_nil ht.next_le,
      h.deltasAt_eq_nil (Nat.le_refl _)]

/-- An event of an item, with the deltas that are sent of it. -/
theorem CallRecords.touch (h : CallRecords events acc deltas) (ht : Touches acc acc' i)
    (event : ResponsesProgress) (sent : List ToolCallDelta)
    (hsent : ∀ delta ∈ sent, delta.index = acc.ordinalOf i)
    (hid : ∀ i, (acc'.entry i).id = lastId (events ++ [event]) i)
    (hname : ∀ i, (acc'.entry i).name = lastName (events ++ [event]) i)
    (hitems : argumentItems [event] = sent.map fun _ => i)
    (hothers : ∀ j, j ≠ i → isArgumentsOf j event = false)
    (hown : sent.foldl ToolCallAccumulatorEntry.merge (assembled events i) =
      assembled (events ++ [event]) i) :
    CallRecords (events ++ [event]) acc' (deltas ++ sent) := by
  have hall : argumentItems (events ++ [event]) =
      argumentItems events ++ sent.map fun _ => i := by
    rw [← hitems]
    exact filterMap_append
  have hstay : ∀ j ∈ argumentItems events, acc'.ordinalOf j = acc.ordinalOf j := fun j hj =>
    ht.ordinalOf_eq (.inr (h.known j hj))
  have howner : acc'.ordinalOf i = acc.ordinalOf i := ht.ordinalOf_eq (.inl rfl)
  refine ⟨ht.distinct h.distinct, hid, hname, fun j hj => ?known, ?indices, fun j => ?assembles⟩
  case known =>
    by_cases hji : j = i
    · rw [hji, ht.ordinal]
      rfl
    · rw [hall, mem_append] at hj
      have hbefore : j ∈ argumentItems events := hj.resolve_right fun hj => by
        obtain ⟨-, -, heq⟩ := mem_map.mp hj
        exact hji heq.symm
      rw [ht.others j hji]
      exact h.known j hbefore
  case indices =>
    rw [hall, map_append, map_append, h.indices, map_map]
    congr 1
    · exact map_congr_left fun j hj => (hstay j hj).symm
    · exact map_congr_left fun delta hdelta => (hsent delta hdelta).trans howner.symm
  case assembles =>
    have hat (ordinal : ℕ) : deltasAt (deltas ++ sent) ordinal =
        deltasAt deltas ordinal ++ deltasAt sent ordinal := filter_append ..
    by_cases hji : j = i
    · have hfilter : deltasAt sent (acc.ordinalOf i) = sent :=
        filter_eq_self.mpr fun delta hdelta => decide_eq_true (hsent delta hdelta)
      rw [hji, howner, hat, hfilter, entryOf, foldl_append, ← hown, ← h.assembles i]
      rfl
    · have hnone : deltasAt sent (acc'.ordinalOf j) = [] := by
        refine filter_eq_nil_iff.mpr fun delta hdelta => ?_
        rw [decide_eq_true_eq, hsent delta hdelta]
        exact (ht.ordinalOf_ne_other h.distinct hji).symm
      rw [hat, hnone, append_nil, h.deltasAt_touch ht hji, h.assembles j,
        assembled_concat_of_not events event j (hothers j hji)]

section

variable (events : List ResponsesProgress) (event : ResponsesProgress) (i : ℕ)

/-- The last id, or name, after one more event. -/
theorem getLast?_addedAt_concat (f : Option String × Option String → Option String) :
    ((addedAt (events ++ [event]) i).filterMap f).getLast? =
      ((addedAt [event] i).findSome? f).or ((addedAt events i).filterMap f).getLast? := by
  have hone : ((addedAt [event] i).filterMap f).getLast? = (addedAt [event] i).findSome? f := by
    unfold addedAt
    cases event with
    | added output_index call_id name =>
      by_cases hi : output_index = i
      · cases hvalue : f (call_id, name) <;> simp [hi, hvalue]
      · simp [hi]
    | _ => rfl
  have happend : addedAt (events ++ [event]) i = addedAt events i ++ addedAt [event] i :=
    filterMap_append
  rw [happend, filterMap_append, List.getLast?_append, hone]

/-- A later id replaces it. -/
theorem lastId_concat :
    lastId (events ++ [event]) i =
      ((addedAt [event] i).findSome? Prod.fst).or (lastId events i) :=
  getLast?_addedAt_concat events event i Prod.fst

/-- A later name replaces it. -/
theorem lastName_concat :
    lastName (events ++ [event]) i =
      ((addedAt [event] i).findSome? Prod.snd).or (lastName events i) :=
  getLast?_addedAt_concat events event i Prod.snd

end

/-- An event that is of no call. -/
theorem CallRecords.keep (h : CallRecords events acc deltas) (event : ResponsesProgress)
    (hadded : ∀ i, addedAt [event] i = []) (hitems : argumentItems [event] = [])
    (hentry : acc'.entry = acc.entry) (hnext : acc'.next_ordinal = acc.next_ordinal) :
    CallRecords (events ++ [event]) acc' deltas := by
  have hall : argumentItems (events ++ [event]) = argumentItems events := by
    unfold argumentItems at *
    rw [filterMap_append, hitems, append_nil]
  have hordinals : acc'.ordinalOf = acc.ordinalOf := by
    funext i
    rw [ordinalOf, ordinalOf, hentry, hnext]
  refine ⟨⟨?_, ?_⟩, fun i => ?_, fun i => ?_, ?_, ?_, fun i => ?_⟩
  · rw [hentry, hnext]
    exact h.distinct.lt
  · rw [hentry]
    exact h.distinct.inj
  · rw [hentry, h.id, lastId_concat, hadded]
    rfl
  · rw [hentry, h.name, lastName_concat, hadded]
    rfl
  · rw [hall, hentry]
    exact h.known
  · rw [hall, hordinals]
    exact h.indices
  · have hnot : isArgumentsOf i event = false := by
      cases event with
      | arguments output_index delta => exact nomatch hitems
      | _ => rfl
    rw [hordinals, h.assembles, assembled_concat_of_not events event i hnot]

/-- One event. -/
theorem CallRecords.step (h : CallRecords events acc deltas) (event : ResponsesProgress) :
    CallRecords (events ++ [event]) (next acc event) (deltas ++ deltasOf (emitted acc event)) := by
  cases event with
  | text output_index delta =>
    have hnone : deltasOf (emitted acc (text output_index delta)) = [] := by
      unfold emitted
      dsimp only
      split_ifs <;> rfl
    have hkept : (next acc (text output_index delta)).entry = acc.entry ∧
        (next acc (text output_index delta)).next_ordinal = acc.next_ordinal := by
      unfold next
      dsimp only
      split_ifs <;> exact ⟨rfl, rfl⟩
    rw [hnone, append_nil]
    exact h.keep _ (fun _ => rfl) rfl hkept.1 hkept.2
  | other =>
    have hnone : deltasOf (emitted acc other) = [] := rfl
    rw [hnone, append_nil]
    exact h.keep _ (fun _ => rfl) rfl rfl rfl
  -- an item that is added gives an id and a name, and no delta
  | added i call_id name =>
    have hadded (j : ℕ) : addedAt [added i call_id name] j =
        if i = j then [(call_id, name)] else [] := by
      by_cases hij : i = j <;> simp [addedAt, hij]
    refine h.touch (touches_registerOutputItem acc i call_id name) _ [] nofun (fun j => ?_)
      (fun j => ?_) rfl (fun _ _ => rfl) (assembled_concat_of_not events _ i rfl).symm
    · show ((acc.registerOutputItem i call_id name).entry j).id = _
      rw [entry_registerOutputItem, lastId_concat, hadded, ← h.id]
      by_cases hji : j = i
      · rw [if_pos hji, if_pos hji.symm, hji, List.findSome?_singleton]
      · rw [if_neg hji, if_neg (Ne.symm hji)]
        rfl
    · show ((acc.registerOutputItem i call_id name).entry j).name = _
      rw [entry_registerOutputItem, lastName_concat, hadded, ← h.name]
      by_cases hji : j = i
      · rw [if_pos hji, if_pos hji.symm, hji, List.findSome?_singleton]
      · rw [if_neg hji, if_neg (Ne.symm hji)]
        rfl
  -- its delta has the id and the name that were given last
  | arguments i delta =>
    have hsent : deltasOf (emitted acc (arguments i delta)) = [{
        index := acc.ordinalOf i
        id := lastId events i
        name := lastName events i
        arguments := if delta = "" then none else some delta }] := by
      rw [emitted, appendArguments_item, h.id, h.name]
      rfl
    rw [hsent]
    refine h.touch (touches_appendArguments acc i delta) _ _ (fun d hd => ?_) (fun j => ?_)
      (fun j => ?_) rfl (fun j hj => decide_eq_false (Ne.symm hj))
      (assembled_merge events i (acc.ordinalOf i) delta)
    · rw [mem_singleton.mp hd]
    · have hnone : addedAt [arguments i delta] j = [] := rfl
      show ((acc.appendArguments i delta).2.entry j).id = _
      rw [entry_appendArguments, lastId_concat, hnone, ← h.id]
      split_ifs with hji
      · rw [hji]
        rfl
      · rfl
    · have hnone : addedAt [arguments i delta] j = [] := rfl
      show ((acc.appendArguments i delta).2.entry j).name = _
      rw [entry_appendArguments, lastName_concat, hnone, ← h.name]
      split_ifs with hji
      · rw [hji]
        rfl
      · rfl

/-- The deltas in order. -/
theorem deltasOf_append (items items' : List StreamItem) :
    deltasOf (items ++ items') = deltasOf items ++ deltasOf items' :=
  filterMap_append

/-- What is known of the calls after a run. -/
theorem run_callRecords (events : List ResponsesProgress) :
    CallRecords events (run {} events).2 (deltasOf (run {} events).1) := by
  induction events using List.reverseRecOn with
  | nil => exact ⟨⟨nofun, nofun⟩, fun _ => rfl, fun _ => rfl, nofun, rfl, fun _ => rfl⟩
  | append_singleton events event ih =>
    rw [run_concat, deltasOf_append]
    exact ih.step event

section

variable (acc : ResponsesToolCallAccumulator) (event : ResponsesProgress)

/-- Whether a text was streamed. -/
theorem text_flag_next :
    (next acc event).streamed_text_deltas =
      (acc.streamed_text_deltas || (texts [event]).any (· ≠ "")) := by
  cases event with
  | text output_index delta =>
    have hone : texts [text output_index delta] = [delta] := rfl
    rw [next, hone]
    split_ifs with hempty <;> simp [hempty]
  | arguments output_index delta =>
    exact (flags_assignOrdinal acc output_index).1.trans (Bool.or_false _).symm
  | added output_index call_id name =>
    exact (flags_assignOrdinal acc output_index).1.trans (Bool.or_false _).symm
  | other => exact (Bool.or_false _).symm

/-- Whether arguments were streamed. -/
theorem argument_flag_next :
    (next acc event).streamed_argument_deltas =
      (acc.streamed_argument_deltas || (argumentItems [event]).any fun _ => true) := by
  cases event with
  | text output_index delta =>
    have hone : argumentItems [text output_index delta] = [] := rfl
    rw [next, hone]
    split_ifs <;> simp
  | arguments output_index delta => exact (Bool.or_true _).symm
  | added output_index call_id name =>
    exact (flags_assignOrdinal acc output_index).2.trans (Bool.or_false _).symm
  | other => exact (Bool.or_false _).symm

/-- The text deltas of an event are sent as they are, but for an empty one. -/
theorem textsOf_emitted :
    textsOf (emitted acc event) = (texts [event]).filter (· ≠ "") := by
  cases event with
  | text output_index delta =>
    have hone : texts [text output_index delta] = [delta] := rfl
    rw [emitted, hone]
    split_ifs with hempty
    · simp [hempty, textsOf]
    · simp [hempty, textsOf]
  | arguments output_index delta =>
    rw [emitted, appendArguments_item]
    rfl
  | _ => rfl

end

/-- What is known of the texts and of the flags. -/
structure StreamRecords (events : List ResponsesProgress) (acc : ResponsesToolCallAccumulator)
    (items : List StreamItem) : Prop where
  sent : textsOf items = (texts events).filter (· ≠ "")
  text_flag : acc.streamed_text_deltas = (texts events).any (· ≠ "")
  argument_flag : acc.streamed_argument_deltas = (argumentItems events).any fun _ => true

/-- The texts in order. -/
theorem textsOf_append (items items' : List StreamItem) :
    textsOf (items ++ items') = textsOf items ++ textsOf items' :=
  filterMap_append

/-- What is known of the texts and of the flags after a run. -/
theorem run_streamRecords (events : List ResponsesProgress) :
    StreamRecords events (run {} events).2 (run {} events).1 := by
  induction events using List.reverseRecOn with
  | nil => exact ⟨rfl, rfl, rfl⟩
  | append_singleton events event ih =>
    have htexts : texts (events ++ [event]) = texts events ++ texts [event] :=
      filterMap_append
    have hitems : argumentItems (events ++ [event]) =
        argumentItems events ++ argumentItems [event] := filterMap_append
    rw [run_concat]
    refine ⟨?_, ?_, ?_⟩
    · rw [textsOf_append, ih.sent, textsOf_emitted, htexts, filter_append]
    · rw [text_flag_next, ih.text_flag, htexts, any_append]
    · rw [argument_flag_next, ih.argument_flag, hitems, any_append]

end

end ResponsesProgress

end Oxydra
