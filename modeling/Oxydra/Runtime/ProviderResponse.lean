import Oxydra.Library.TextSearch
import Oxydra.Types.JsonReader

/-!
# Assembling a streamed response

`stream_response` of `crates/runtime/src/provider_response.rs` reads the items of a provider stream
until it ends, an error arrives or the connection is lost, and makes one response of them: the text
deltas one after the other, and the tool calls that a `ToolCallAccumulator` builds of the deltas of
each index.

The reading and printing of JSON texts is a parameter. What is sent to a listener is left out, and so
are the cancellation and the timeout of a turn, with which no response is assembled.
-/

namespace Oxydra

open List Text

/-- `serde_json` on texts: `from_str`, with the text of its error; `to_string`; and the values that a
`StreamDeserializer` reads up to its first error. -/
structure JsonText where
  parse : String → Except String Value
  print : Value → String
  values : String → List Value

/-- Messages with a text only need no JSON. -/
def textOnlyJson : JsonText := ⟨fun _ => .error "", fun _ => "", fun _ => []⟩

/-- A reader of JSON as `serde_json` reads it. -/
def readerJson : JsonText where
  parse s := match Json.parse s.toList with
    | some v => .ok v
    | none => .error "invalid JSON"
  print _ := ""
  values _ := []

/-- An item of a `ProviderStream`. -/
abbrev ProviderItem := Except ProviderError StreamItem

/-! ## Tool calls -/

structure ToolCallAccumulatorEntry where
  id : Option String := none
  name : Option String := none
  arguments : String := ""
  metadata : Option Value := none
  deriving DecidableEq, Repr

/-- `ToolCallAccumulator`: the entries in the order of their indices. -/
abbrev ToolCallAccumulator := List (ℕ × ToolCallAccumulatorEntry)

/-- What `merge` does to the entry of the delta's index. -/
def ToolCallAccumulatorEntry.merge (entry : ToolCallAccumulatorEntry) (delta : ToolCallDelta) :
    ToolCallAccumulatorEntry where
  id := delta.id.or entry.id
  name := delta.name.or entry.name
  arguments := entry.arguments ++ delta.arguments.getD ""
  metadata := entry.metadata.or delta.metadata

/-- `ToolCallAccumulator::merge`. -/
def ToolCallAccumulator.merge (calls : ToolCallAccumulator) (delta : ToolCallDelta) :
    ToolCallAccumulator :=
  Fields.insert delta.index (((calls.lookup delta.index).getD {}).merge delta) calls

/-- `INVALID_TOOL_ARGS_RAW_KEY`. -/
def invalidToolArgsRawKey : String := "__oxydra_invalid_tool_args_raw"

/-- `INVALID_TOOL_ARGS_ERROR_KEY`. -/
def invalidToolArgsErrorKey : String := "__oxydra_invalid_tool_args_error"

section Build

variable (json : JsonText)

/-- `try_extract_concatenated_json_objects`. -/
def tryExtractConcatenatedJsonObjects (raw : String) : Option (List Value) :=
  let trimmed := trim raw
  if trimmed.toList.head? = some '{' then
    let objects := json.values trimmed
    if objects.length ≤ 1 then none else some objects
  else none

/-- The calls of an entry with an id and a name. -/
def entryCalls (id name : String) (entry : ToolCallAccumulatorEntry) : List ToolCall :=
  let arguments := if trim entry.arguments = "" then "\x7b\x7d" else entry.arguments
  match json.parse arguments with
  | .ok parsed_arguments => [⟨id, name, parsed_arguments, entry.metadata⟩]
  | .error error =>
    match tryExtractConcatenatedJsonObjects json arguments with
    | some objects =>
      objects.mapIdx fun i object => ⟨id ++ "_" ++ toString i, name, object, entry.metadata⟩
    | none =>
      let payload := Fields.insert invalidToolArgsErrorKey (.string error)
        [(invalidToolArgsRawKey, .string arguments)]
      [⟨id, name, .object payload, entry.metadata⟩]

/-- `ToolCallAccumulator::build`. -/
def ToolCallAccumulator.build (provider : String) :
    ToolCallAccumulator → Except ProviderError (List ToolCall)
  | [] => .ok []
  | (index, entry) :: rest => do
    let id ← (entry.id.elim (.error (.responseParse provider
      ("streamed tool-call at index " ++ toString index ++ " is missing id"))) .ok)
    let name ← (entry.name.elim (.error (.responseParse provider
      ("streamed tool-call at index " ++ toString index ++ " is missing function name"))) .ok)
    let calls ← ToolCallAccumulator.build provider rest
    return entryCalls json id name entry ++ calls

end Build

/-! ## Responses -/

/-- `merge_usage`. -/
def mergeUsage (existing : Option UsageUpdate) (update : UsageUpdate) : UsageUpdate :=
  let merged := existing.getD {}
  { prompt_tokens := update.prompt_tokens.or merged.prompt_tokens
    completion_tokens := update.completion_tokens.or merged.completion_tokens
    total_tokens := update.total_tokens.or merged.total_tokens }

/-- The variables of the loop of `stream_response`. -/
structure Collected where
  text_buffer : String := ""
  tool_calls : ToolCallAccumulator := []
  finish_reason : Option String := none
  usage : Option UsageUpdate := none
  deriving DecidableEq, Repr

/-- What an item that does not end the loop adds. -/
def Collected.add (s : Collected) : StreamItem → Collected
  | .text text => { s with text_buffer := s.text_buffer ++ text }
  | .toolCallDelta delta => { s with tool_calls := s.tool_calls.merge delta }
  | .finishReason reason => { s with finish_reason := some reason }
  | .usageUpdate update => { s with usage := some (mergeUsage s.usage update) }
  | .connectionLost _ | .reasoningDelta _ | .progress _ | .media _ | .policyEvent _ => s

/-- `StreamCollectError`, without the cancellation and the timeout. -/
inductive StreamCollectError where
  | provider (error : ProviderError)
  | connectionLost (message : String)
  deriving DecidableEq, Repr

/-- The loop of `stream_response`. -/
def collectStream (s : Collected) : List ProviderItem → Except StreamCollectError Collected
  | [] => .ok s
  | .error error :: _ => .error (.provider error)
  | .ok (.connectionLost message) :: _ => .error (.connectionLost message)
  | .ok item :: items => collectStream (s.add item) items

/-- `stream_response`, of a stream with these items. -/
def streamResponse (json : JsonText) (provider : String) (items : List ProviderItem) :
    Except StreamCollectError Response := do
  let s ← collectStream {} items
  let tool_calls ← (s.tool_calls.build json provider).mapError .provider
  let content := if s.text_buffer = "" then none else some s.text_buffer
  return {
    message := { role := .assistant, content, tool_calls }
    tool_calls
    finish_reason := s.finish_reason
    usage := s.usage }

/-! ## What is accumulated -/

/-- The deltas of an index, in their order. -/
def deltasAt (deltas : List ToolCallDelta) (index : ℕ) : List ToolCallDelta :=
  deltas.filter fun delta => delta.index = index

theorem deltasAt_cons (delta : ToolCallDelta) (deltas : List ToolCallDelta) (index : ℕ) :
    deltasAt (delta :: deltas) index =
      (if delta.index = index then [delta] else []) ++ deltasAt deltas index := by
  unfold deltasAt
  rw [filter_cons]
  by_cases h : delta.index = index <;> simp [h]

section

variable (deltas : List ToolCallDelta)

/-- The entry that deltas of one index make. -/
def entryOf : ToolCallAccumulatorEntry :=
  deltas.foldl ToolCallAccumulatorEntry.merge {}

/-- The accumulator after some deltas. -/
def accumulate : ToolCallAccumulator :=
  deltas.foldl ToolCallAccumulator.merge []

theorem accumulate_concat (delta : ToolCallDelta) :
    accumulate (deltas ++ [delta]) = (accumulate deltas).merge delta := by
  simp [accumulate]

theorem entryOf_concat (delta : ToolCallDelta) :
    entryOf (deltas ++ [delta]) = (entryOf deltas).merge delta := by
  simp [entryOf]

/-- Under an index stands what its own deltas make. -/
theorem lookup_accumulate (index : ℕ) :
    (accumulate deltas).lookup index =
      if deltasAt deltas index = [] then none else some (entryOf (deltasAt deltas index)) := by
  induction deltas using List.reverseRecOn generalizing index with
  | nil => rfl
  | append_singleton deltas delta ih =>
    rw [accumulate_concat, ToolCallAccumulator.merge, Fields.lookup_insert, ih, ih]
    by_cases hindex : index = delta.index
    · subst hindex
      have hat : deltasAt (deltas ++ [delta]) delta.index =
          deltasAt deltas delta.index ++ [delta] := by
        simp [deltasAt]
      have hmade : (if deltasAt deltas delta.index = [] then none
          else some (entryOf (deltasAt deltas delta.index))).getD {} =
            entryOf (deltasAt deltas delta.index) := by
        split_ifs with hnone
        · rw [hnone]
          rfl
        · rfl
      rw [if_pos rfl, hat, hmade, if_neg (append_ne_nil_of_right_ne_nil _ (by simp)),
        entryOf_concat]
    · have hat : deltasAt (deltas ++ [delta]) index = deltasAt deltas index := by
        simp [deltasAt, Ne.symm hindex]
      rw [if_neg hindex, hat]

theorem mem_keys_accumulate (index : ℕ) :
    index ∈ Fields.keys (accumulate deltas) ↔ ∃ delta ∈ deltas, delta.index = index := by
  induction deltas using List.reverseRecOn with
  | nil => simp [accumulate, Fields.keys]
  | append_singleton deltas delta ih =>
    rw [accumulate_concat, ToolCallAccumulator.merge, Fields.mem_keys_insert, ih]
    constructor
    · rintro (rfl | ⟨delta', hmem, rfl⟩)
      · exact ⟨delta, by simp, rfl⟩
      · exact ⟨delta', by simp [hmem], rfl⟩
    · rintro ⟨delta', hmem, rfl⟩
      rw [mem_append, mem_singleton] at hmem
      rcases hmem with hmem | rfl
      · exact .inr ⟨delta', hmem, rfl⟩
      · exact .inl rfl

/-- The indices stand in order. -/
theorem pairwise_accumulate :
    (Fields.keys (accumulate deltas)).Pairwise (· < ·) := by
  induction deltas using List.reverseRecOn with
  | nil => exact .nil
  | append_singleton deltas delta ih =>
    rw [accumulate_concat]
    exact Fields.pairwise_insert ih

/-- The accumulator is determined by the deltas of each index. -/
theorem accumulate_eq :
    accumulate deltas =
      (Fields.keys (accumulate deltas)).map fun index => (index, entryOf (deltasAt deltas index)) := by
  have hnodup : (Fields.keys (accumulate deltas)).Nodup :=
    (pairwise_accumulate deltas).imp ne_of_lt
  conv_lhs => rw [Fields.eq_map_lookup {} hnodup]
  refine map_congr_left fun index hmem => ?_
  obtain ⟨delta, hdelta, hindex⟩ := (mem_keys_accumulate deltas index).mp hmem
  have hne : deltasAt deltas index ≠ [] :=
    ne_nil_of_mem (mem_filter.mpr ⟨hdelta, by simpa using hindex⟩)
  rw [lookup_accumulate, if_neg hne]
  rfl

/-- The id of an entry is the last one that was given. -/
theorem entryOf_id :
    (entryOf deltas).id = (deltas.filterMap ToolCallDelta.id).getLast? := by
  induction deltas using List.reverseRecOn with
  | nil => rfl
  | append_singleton deltas delta ih =>
    rw [entryOf_concat, ToolCallAccumulatorEntry.merge, ih, filterMap_append]
    cases hid : delta.id <;> simp [hid]

/-- The name of an entry is the last one that was given. -/
theorem entryOf_name :
    (entryOf deltas).name = (deltas.filterMap ToolCallDelta.name).getLast? := by
  induction deltas using List.reverseRecOn with
  | nil => rfl
  | append_singleton deltas delta ih =>
    rw [entryOf_concat, ToolCallAccumulatorEntry.merge, ih, filterMap_append]
    cases hname : delta.name <;> simp [hname]

/-- The arguments of an entry are all that were given, one after the other. -/
theorem entryOf_arguments :
    (entryOf deltas).arguments.toList =
      deltas.flatMap fun delta => (delta.arguments.getD "").toList := by
  induction deltas using List.reverseRecOn with
  | nil => rfl
  | append_singleton deltas delta ih =>
    rw [entryOf_concat, ToolCallAccumulatorEntry.merge, String.toList_append, ih]
    simp

/-- The metadata of an entry is the first that was given. -/
theorem entryOf_metadata :
    (entryOf deltas).metadata = (deltas.filterMap ToolCallDelta.metadata).head? := by
  induction deltas using List.reverseRecOn with
  | nil => rfl
  | append_singleton deltas delta ih =>
    rw [entryOf_concat, ToolCallAccumulatorEntry.merge, ih, filterMap_append]
    cases hmetadata : delta.metadata <;> simp [hmetadata]

end

/-- Entries with an id and a name are all built. -/
theorem build_eq_ok (json : JsonText) (provider : String) {calls : ToolCallAccumulator}
    (h : ∀ c ∈ calls, c.2.id.isSome ∧ c.2.name.isSome) :
    calls.build json provider =
      .ok (calls.flatMap fun c => entryCalls json (c.2.id.getD "") (c.2.name.getD "") c.2) := by
  induction calls with
  | nil => rfl
  | cons call calls ih =>
    obtain ⟨index, entry⟩ := call
    obtain ⟨hhead, htail⟩ := forall_mem_cons.mp h
    obtain ⟨id, hid⟩ := Option.isSome_iff_exists.mp hhead.1
    obtain ⟨name, hname⟩ := Option.isSome_iff_exists.mp hhead.2
    rw [ToolCallAccumulator.build, ih htail, flatMap_cons]
    dsimp only at hid hname ⊢
    rw [hid, hname]
    rfl

/-- The deltas among the items of a stream. -/
def deltasOf (items : List StreamItem) : List ToolCallDelta :=
  items.filterMap fun item =>
    match item with
    | .toolCallDelta delta => some delta
    | _ => none

/-- The calls of a response are built of the deltas of the stream. -/
theorem tool_calls_foldl_add (items : List StreamItem) (s : Collected) :
    (items.foldl Collected.add s).tool_calls =
      (deltasOf items).foldl ToolCallAccumulator.merge s.tool_calls := by
  induction items generalizing s with
  | nil => rfl
  | cons item items ih =>
    rw [foldl_cons, ih]
    cases item <;> rfl

/-! ## What a reader of a stream sees -/

/-- How a stream ends for a reader that stops at an error or a lost connection. -/
inductive StreamEnd where
  | closed
  | failed (error : ProviderError)
  | lost (message : String)
  deriving DecidableEq, Repr

/-- The items that a reader sees, and how the stream ends for it. -/
def readStream : List ProviderItem → List StreamItem × StreamEnd
  | [] => ([], .closed)
  | .error error :: _ => ([], .failed error)
  | .ok (.connectionLost message) :: _ => ([], .lost message)
  | .ok item :: items => (item :: (readStream items).1, (readStream items).2)

/-- An item of a stream that was seen is no loss of the connection. -/
theorem readStream_cons {item : StreamItem} (h : ∀ message, item ≠ .connectionLost message)
    (items : List ProviderItem) :
    readStream (.ok item :: items) = (item :: (readStream items).1, (readStream items).2) := by
  cases item with
  | connectionLost message => exact absurd rfl (h message)
  | _ => rfl

/-- A reader sees all items of a stream whose connection holds. -/
theorem readStream_map_ok {items : List StreamItem}
    (h : ∀ item ∈ items, ∀ message, item ≠ .connectionLost message) :
    readStream (items.map .ok) = (items, .closed) := by
  induction items with
  | nil => rfl
  | cons item items ih =>
    obtain ⟨hitem, hitems⟩ := forall_mem_cons.mp h
    rw [map_cons, readStream_cons hitem, ih hitems]

theorem collectStream_cons {item : StreamItem} (h : ∀ message, item ≠ .connectionLost message)
    (s : Collected) (items : List ProviderItem) :
    collectStream s (.ok item :: items) = collectStream (s.add item) items := by
  cases item with
  | connectionLost message => exact absurd rfl (h message)
  | _ => rfl

/-- What is collected is what a reader sees. -/
theorem collectStream_eq (s : Collected) (items : List ProviderItem) :
    collectStream s items =
      match (readStream items).2 with
      | .closed => .ok ((readStream items).1.foldl Collected.add s)
      | .failed error => .error (.provider error)
      | .lost message => .error (.connectionLost message) := by
  induction items generalizing s with
  | nil => rfl
  | cons item items ih =>
    cases item with
    | error error => rfl
    | ok item =>
      by_cases h : ∃ message, item = .connectionLost message
      · obtain ⟨message, rfl⟩ := h
        rfl
      · rw [collectStream_cons (not_exists.mp h), readStream_cons (not_exists.mp h), ih]
        rfl

/-- The response that is assembled is one of what a reader sees. -/
theorem streamResponse_congr {json : JsonText} {provider : String} {items items' : List ProviderItem}
    (h : readStream items = readStream items') :
    streamResponse json provider items = streamResponse json provider items' := by
  unfold streamResponse
  rw [collectStream_eq, collectStream_eq, h]

end Oxydra
