import Mathlib.Algebra.Order.BigOperators.Group.List
import Mathlib.Data.List.Chain
import Oxydra.Library.TextLaws
import Oxydra.Runtime.ProviderResponse

/-!
# Tool calls of a Gemini stream

Gemini sends each function call whole, in a part of some payload of the stream.
`normalize_gemini_stream_chunk` of `crates/provider/src/gemini.rs` makes a delta of it, with an index
that counts the calls of its payload. `normalize_gemini_response` makes tool calls of the parts of one
response.

The index starts again at 0 with each payload, and the runtime puts the deltas of one index together.
So the calls of several payloads that have the same place in their payloads become one entry, with the
name of the last one, the signature of the first one that has one, and all arguments in one text,
which are taken apart again where they are objects. `geminiStream_faithful_iff` says when the calls
are the calls of the response all the same.
-/

namespace Oxydra

open List Text

variable {entry : ToolCallAccumulatorEntry} {first n : ℕ}

/-! ## Responses -/

structure GeminiFunctionCall where
  name : String
  args : Value
  deriving DecidableEq, Repr

structure GeminiInlineData where
  mime_type : String
  data : String
  deriving DecidableEq, Repr

/-- `GeminiPart`, without the function responses, which only requests have. -/
structure GeminiPart where
  text : Option String := none
  function_call : Option GeminiFunctionCall := none
  thought_signature : Option String := none
  inline_data : Option GeminiInlineData := none
  deriving DecidableEq, Repr

/-- `GeminiCandidate`, with the parts of its content. -/
structure GeminiCandidate where
  content : Option (List GeminiPart) := none
  finish_reason : Option String := none
  deriving DecidableEq, Repr

/-- `GeminiGenerateContentResponse`, with the counts of its usage metadata. -/
structure GeminiGenerateContentResponse where
  candidates : List GeminiCandidate := []
  usage_metadata : Option UsageUpdate := none
  deriving DecidableEq, Repr

/-- A tool call without its id. -/
structure CallContent where
  name : String
  arguments : Value
  metadata : Option Value
  deriving DecidableEq, Repr

/-- What a tool call is but for its id. -/
def ToolCall.content (call : ToolCall) : CallContent := ⟨call.name, call.arguments, call.metadata⟩

/-- `json!({ "thought_signature": sig })`. -/
def thoughtSignature (sig : String) : Value := .object [("thought_signature", .string sig)]

/-- The function call of a part, with the signature of the part. -/
def GeminiPart.call (part : GeminiPart) : Option CallContent :=
  part.function_call.map fun fc =>
    ⟨fc.name, fc.args, part.thought_signature.map thoughtSignature⟩

/-- The text of a part, unless it is empty. -/
def GeminiPart.visibleText (part : GeminiPart) : Option String := part.text.filter (· ≠ "")

/-- The variables of the loop of `normalize_gemini_response`. -/
structure GeminiParts where
  text_chunks : List String := []
  tool_calls : List ToolCall := []
  attachments : List InlineMedia := []
  deriving DecidableEq, Repr

section Normalize

variable (newId : ℕ → String) (decode : String → Except String (List UInt8)) (provider : String)

/-- The loop of `normalize_gemini_response`. The `n`th call gets the `n`th new id. -/
def collectParts (s : GeminiParts) : List GeminiPart → Except ProviderError GeminiParts
  | [] => .ok s
  | part :: parts => do
    let text_chunks := s.text_chunks ++ part.visibleText.toList
    let tool_calls := s.tool_calls ++ part.call.toList.map fun call =>
      ⟨newId s.tool_calls.length, call.name, call.arguments, call.metadata⟩
    match part.inline_data with
    | none => collectParts ⟨text_chunks, tool_calls, s.attachments⟩ parts
    | some inline_data =>
      match decode inline_data.data with
      | .error error => .error (.responseParse provider
          ("failed to decode Gemini inlineData attachment: " ++ error))
      | .ok data =>
        let media := ⟨inline_data.mime_type, data⟩
        collectParts ⟨text_chunks, tool_calls, s.attachments ++ [media]⟩ parts

/-- `normalize_gemini_response`. -/
def normalizeGeminiResponse (response : GeminiGenerateContentResponse) :
    Except ProviderError Response :=
  match response.candidates with
  | [] => .error (.responseParse provider "Gemini response did not contain any candidates")
  | candidate :: _ => do
    let s ← collectParts newId decode provider {} (candidate.content.getD [])
    let content := if s.text_chunks = [] then none else some (String.join s.text_chunks)
    return {
      message :=
        { role := .assistant, content, tool_calls := s.tool_calls, attachments := s.attachments }
      tool_calls := s.tool_calls
      finish_reason := candidate.finish_reason
      usage := response.usage_metadata }

end Normalize

section Stream

variable (json : JsonText) (newId : ℕ → String)

/-- The delta of a call. -/
def callDelta (tool_call_index : ℕ) (call : CallContent) : ToolCallDelta where
  index := tool_call_index
  id := some (newId tool_call_index)
  name := some call.name
  arguments := some (json.print call.arguments)
  metadata := call.metadata

/-- The items of the parts of a candidate, and the index of the next call. -/
def streamParts (tool_call_index : ℕ) : List GeminiPart → List StreamItem × ℕ
  | [] => ([], tool_call_index)
  | part :: parts =>
    let texts := part.visibleText.toList.map StreamItem.text
    let calls := part.call.toList.map fun call =>
      StreamItem.toolCallDelta (callDelta json newId tool_call_index call)
    let rest := streamParts (tool_call_index + part.call.toList.length) parts
    (texts ++ calls ++ rest.1, rest.2)

/-- The items of the candidates. -/
def streamCandidates (tool_call_index : ℕ) : List GeminiCandidate → List StreamItem
  | [] => []
  | candidate :: candidates =>
    let parts := streamParts json newId tool_call_index (candidate.content.getD [])
    let reason := (candidate.finish_reason.filter (· ≠ "")).toList.map StreamItem.finishReason
    parts.1 ++ reason ++ streamCandidates parts.2 candidates

/-- `normalize_gemini_stream_chunk`. -/
def normalizeGeminiStreamChunk (chunk : GeminiGenerateContentResponse) : List StreamItem :=
  streamCandidates json newId 0 chunk.candidates ++
    chunk.usage_metadata.toList.map StreamItem.usageUpdate

end Stream

/-- The items of the payloads of a stream. The ids of a payload are new ones. -/
def geminiStream (json : JsonText) (newId : ℕ → ℕ → String)
    (chunks : List GeminiGenerateContentResponse) : List StreamItem :=
  (chunks.mapIdx fun i chunk => normalizeGeminiStreamChunk json (newId i) chunk).flatten

/-- The parts of a response or a payload. -/
def GeminiGenerateContentResponse.parts (r : GeminiGenerateContentResponse) : List GeminiPart :=
  r.candidates.flatMap fun candidate => candidate.content.getD []

/-- The function calls of parts. -/
def functionCalls (parts : List GeminiPart) : List CallContent := parts.filterMap GeminiPart.call

/-! ## The calls in one response and in a stream -/

/-- The tool calls of a response are the function calls of its parts. -/
theorem collectParts_calls {newId : ℕ → String} {decode : String → Except String (List UInt8)}
    {provider : String} {parts : List GeminiPart} {s t : GeminiParts}
    (h : collectParts newId decode provider s parts = .ok t) :
    t.tool_calls.map ToolCall.content =
      s.tool_calls.map ToolCall.content ++ functionCalls parts := by
  induction parts generalizing s with
  | nil =>
    cases h
    simp [functionCalls]
  | cons part parts ih =>
    have hcalls : functionCalls (part :: parts) = part.call.toList ++ functionCalls parts := by
      cases hcall : part.call <;> simp [functionCalls, hcall]
    have hmap : (part.call.toList.map fun call => (⟨newId s.tool_calls.length, call.name,
        call.arguments, call.metadata⟩ : ToolCall)).map ToolCall.content = part.call.toList := by
      cases part.call <;> rfl
    rw [hcalls, ← append_assoc]
    unfold collectParts at h
    cases hinline : part.inline_data with
    | none =>
      rw [hinline] at h
      rw [ih h, map_append, hmap]
    | some inline_data =>
      rw [hinline] at h
      dsimp only at h
      cases hdecode : decode inline_data.data with
      | error error => simp [hdecode] at h
      | ok data =>
        rw [hdecode] at h
        rw [ih h, map_append, hmap]

/-- The tool calls of `normalize_gemini_response` are the function calls of the first candidate. -/
theorem normalizeGeminiResponse_calls {newId : ℕ → String}
    {decode : String → Except String (List UInt8)} {provider : String}
    {candidate : GeminiCandidate} {response : Response} {usage : Option UsageUpdate}
    (h : normalizeGeminiResponse newId decode provider ⟨[candidate], usage⟩ = .ok response) :
    response.tool_calls.map ToolCall.content = functionCalls (candidate.content.getD []) := by
  unfold normalizeGeminiResponse at h
  dsimp only at h
  cases hparts : collectParts newId decode provider {} (candidate.content.getD []) with
  | error error => simp [hparts, bind, Except.bind] at h
  | ok s =>
    rw [hparts] at h
    cases h
    exact collectParts_calls hparts

section Deltas

variable {json : JsonText} {newId : ℕ → String}

/-- The deltas of calls, with the indices from one on. -/
def callDeltas (json : JsonText) (newId : ℕ → String) : ℕ → List CallContent → List ToolCallDelta
  | _, [] => []
  | first, call :: calls =>
    callDelta json newId first call :: callDeltas json newId (first + 1) calls

theorem callDeltas_append (first : ℕ) (calls calls' : List CallContent) :
    callDeltas json newId first (calls ++ calls') =
      callDeltas json newId first calls ++ callDeltas json newId (first + calls.length) calls' := by
  induction calls generalizing first with
  | nil => rfl
  | cons call calls ih =>
    rw [cons_append, callDeltas, ih, length_cons, callDeltas, cons_append,
      Nat.add_right_comm, Nat.add_assoc]

theorem deltasOf_append (items items' : List StreamItem) :
    deltasOf (items ++ items') = deltasOf items ++ deltasOf items' := filterMap_append

theorem deltasOf_map {α : Type*} {f : α → StreamItem} {l : List α}
    (h : ∀ x delta, f x ≠ .toolCallDelta delta) : deltasOf (l.map f) = [] := by
  unfold deltasOf
  refine filterMap_eq_nil_iff.mpr fun item hitem => ?_
  obtain ⟨x, -, rfl⟩ := mem_map.mp hitem
  cases hx : f x with
  | toolCallDelta delta => exact absurd hx (h x delta)
  | _ => rfl

/-- The deltas of parts are those of their calls. -/
theorem deltasOf_streamParts (json : JsonText) (newId : ℕ → String) (first : ℕ)
    (parts : List GeminiPart) :
    deltasOf (streamParts json newId first parts).1 =
        callDeltas json newId first (functionCalls parts) ∧
      (streamParts json newId first parts).2 = first + (functionCalls parts).length := by
  induction parts generalizing first with
  | nil => exact ⟨rfl, rfl⟩
  | cons part parts ih =>
    have hcalls : functionCalls (part :: parts) = part.call.toList ++ functionCalls parts := by
      cases hcall : part.call <;> simp [functionCalls, hcall]
    have hdelta : deltasOf (part.call.toList.map fun call =>
        StreamItem.toolCallDelta (callDelta json newId first call)) =
          callDeltas json newId first part.call.toList := by
      cases part.call <;> rfl
    obtain ⟨hdeltas, hnext⟩ := ih (first + part.call.toList.length)
    rw [streamParts, hcalls, callDeltas_append, length_append, deltasOf_append,
      deltasOf_append, deltasOf_map (by simp), hdelta, hdeltas, hnext]
    exact ⟨rfl, Nat.add_assoc _ _ _⟩

theorem deltasOf_streamCandidates (first : ℕ) (candidates : List GeminiCandidate) :
    deltasOf (streamCandidates json newId first candidates) = callDeltas json newId first
      (functionCalls (candidates.flatMap fun candidate => candidate.content.getD [])) := by
  induction candidates generalizing first with
  | nil => rfl
  | cons candidate candidates ih =>
    obtain ⟨hdeltas, hnext⟩ := deltasOf_streamParts json newId first
      (candidate.content.getD [])
    rw [streamCandidates, deltasOf_append, deltasOf_append, deltasOf_map (by simp), hdeltas, hnext,
      ih, append_nil, flatMap_cons, functionCalls, functionCalls, functionCalls,
      filterMap_append, callDeltas_append]

/-- The deltas of a payload are those of its calls, counted from 0. -/
theorem deltasOf_chunk (chunk : GeminiGenerateContentResponse) :
    deltasOf (normalizeGeminiStreamChunk json newId chunk) =
      callDeltas json newId 0 (functionCalls chunk.parts) := by
  rw [normalizeGeminiStreamChunk, deltasOf_append, deltasOf_streamCandidates,
    deltasOf_map (by simp), append_nil]
  rfl

/-- The indices before the first one are not used. -/
theorem deltasAt_callDeltas_lt {index first : ℕ} (h : index < first) (calls : List CallContent) :
    deltasAt (callDeltas json newId first calls) index = [] := by
  induction calls generalizing first with
  | nil => rfl
  | cons call calls ih =>
    have hne : (callDelta json newId first call).index ≠ index := (Nat.ne_of_lt h).symm
    rw [callDeltas, deltasAt_cons, if_neg hne, ih (Nat.lt_succ_of_lt h), append_nil]

/-- Of the deltas of a payload, one has an index, if the payload has so many calls. -/
theorem deltasAt_callDeltas (json : JsonText) (newId : ℕ → String) (first k : ℕ)
    (calls : List CallContent) :
    deltasAt (callDeltas json newId first calls) (first + k) =
      calls[k]?.toList.map (callDelta json newId (first + k)) := by
  induction calls generalizing first k with
  | nil => rfl
  | cons call calls ih =>
    rw [callDeltas, deltasAt_cons]
    cases k with
    | zero =>
      rw [if_pos (show (callDelta json newId first call).index = first + 0 from rfl),
        deltasAt_callDeltas_lt (show first + 0 < first + 1 by omega)]
      rfl
    | succ k =>
      have hne : (callDelta json newId first call).index ≠ first + (k + 1) := by
        show first ≠ first + (k + 1)
        omega
      rw [if_neg hne, nil_append, show first + (k + 1) = first + 1 + k by omega, ih]
      rfl

end Deltas

/-! ## The calls of one index -/

/-- The calls at one place of their payloads. -/
def callsAt (payloads : List (List CallContent)) (i : ℕ) : List CallContent :=
  payloads.filterMap fun calls => calls[i]?

/-- The number of calls of the payload that has most of them. -/
def mostCalls (payloads : List (List CallContent)) : ℕ :=
  (payloads.map List.length).foldr max 0

/-- The deltas of an index are those of the calls at its place, with some ids. -/
theorem deltasAt_payloads (json : JsonText) (newId : ℕ → ℕ → String)
    (payloads : List (List CallContent)) (i : ℕ) :
    ∃ pairs : List ((ℕ → String) × CallContent), pairs.map Prod.snd = callsAt payloads i ∧
      deltasAt (payloads.mapIdx fun p calls => callDeltas json (newId p) 0 calls).flatten i =
        pairs.map fun pair => callDelta json pair.1 i pair.2 := by
  induction payloads generalizing newId with
  | nil => exact ⟨[], rfl, rfl⟩
  | cons calls payloads ih =>
    obtain ⟨pairs, hcalls, hdeltas⟩ := ih fun p => newId (p + 1)
    have hhead := deltasAt_callDeltas json (newId 0) 0 i calls
    rw [Nat.zero_add] at hhead
    refine ⟨calls[i]?.toList.map (newId 0, ·) ++ pairs, ?_, ?_⟩
    · rw [map_append, hcalls, callsAt, callsAt, filterMap_cons]
      cases calls[i]? <;> simp
    · rw [mapIdx_cons, flatten_cons, deltasAt, filter_append]
      show deltasAt _ i ++ deltasAt _ i = _
      rw [hhead, hdeltas, map_append, map_map]
      rfl

/-- What `print` makes of values, one after the other. -/
def printAll (json : JsonText) (vs : List Value) : List Char :=
  vs.flatMap fun v => (json.print v).toList

/-- The entry of an index: the name of the last call, the arguments of all, and the first signature
that there is. -/
theorem entryOf_payloads (json : JsonText) (newId : ℕ → ℕ → String)
    (payloads : List (List CallContent)) (i : ℕ) :
    let entry := entryOf
      (deltasAt (payloads.mapIdx fun p calls => callDeltas json (newId p) 0 calls).flatten i)
    entry.id.isSome = ((callsAt payloads i).getLast?).isSome ∧
      entry.name = ((callsAt payloads i).map CallContent.name).getLast? ∧
      entry.arguments.toList = printAll json ((callsAt payloads i).map CallContent.arguments) ∧
      entry.metadata = ((callsAt payloads i).filterMap CallContent.metadata).head? := by
  obtain ⟨pairs, hcalls, hdeltas⟩ := deltasAt_payloads json newId payloads i
  dsimp only
  rw [hdeltas, entryOf_id, entryOf_name, entryOf_arguments, entryOf_metadata, ← hcalls]
  refine ⟨?_, ?_, ?_, ?_⟩
  · have hids : (pairs.map fun pair => callDelta json pair.1 i pair.2).filterMap
        ToolCallDelta.id = pairs.map fun pair => pair.1 i := by
      rw [filterMap_map]
      exact congrFun filterMap_eq_map pairs
    rw [hids, List.getLast?_map, List.getLast?_map, Option.isSome_map, Option.isSome_map]
  · have hnames : (pairs.map fun pair => callDelta json pair.1 i pair.2).filterMap
        ToolCallDelta.name = pairs.map fun pair => pair.2.name := by
      rw [filterMap_map]
      exact congrFun filterMap_eq_map pairs
    rw [hnames, map_map]
    rfl
  · unfold printAll
    rw [flatMap_map, map_map, flatMap_map]
    rfl
  · rw [filterMap_map, filterMap_map]
    rfl

/-! ## What is built of an entry -/

/-- A value whose text does not say where it ends. -/
def Value.isBare : Value → Bool
  | .null | .bool _ | .number _ => true
  | .string _ | .array _ | .object _ => false

/-- An object. -/
def Value.isObject : Value → Bool
  | .object _ => true
  | _ => false

/-- The first value is an object, and no two bare values stand side by side. -/
def ComeApart (vs : List Value) : Prop :=
  (∃ v ∈ vs.head?, v.isObject) ∧ vs.IsChain fun a b => ¬(a.isBare ∧ b.isBare)

/-- What is relied on of `serde_json` for some values: their texts are read back, and several of them
one after the other are no JSON text. A stream of values is read as it was written when the values
come apart, and as fewer values when they do not. -/
structure JsonText.ReadsBack (json : JsonText) (vs : List Value) : Prop where
  visible : ∀ v ∈ vs, Visible (json.print v).toList ∧ json.print v ≠ ""
  starts : ∀ v ∈ vs, (json.print v).toList.head? = some '{' ↔ v.isObject
  parsed : ∀ v ∈ vs, json.parse (json.print v) = .ok v
  trailing : 2 ≤ vs.length → (∃ v ∈ vs.head?, v.isObject) →
    ∃ error, json.parse (String.ofList (printAll json vs)) = .error error
  values : 2 ≤ vs.length → ComeApart vs →
    json.values (String.ofList (printAll json vs)) = vs
  fewer : 2 ≤ vs.length → (∃ v ∈ vs.head?, v.isObject) → ¬ComeApart vs →
    (json.values (String.ofList (printAll json vs))).length < vs.length

section Entries

variable {json : JsonText} {vs : List Value}

/-- The texts of values have no white space at their ends. -/
theorem visible_printAll (h : json.ReadsBack vs) (hne : vs ≠ []) :
    Visible (printAll json vs) ∧ printAll json vs ≠ [] ∧
      ((printAll json vs).head? = some '{' ↔ ∃ v ∈ vs.head?, v.isObject) := by
  obtain ⟨v, rest, rfl⟩ := exists_cons_of_ne_nil hne
  have hfirst := h.visible v mem_cons_self
  have hchars : (json.print v).toList ≠ [] := by simpa using hfirst.2
  have hcons : printAll json (v :: rest) = (json.print v).toList ++ printAll json rest :=
    flatMap_cons
  refine ⟨⟨?_, ?_⟩, ?_, ?_⟩
  · rw [hcons, List.head?_append_of_ne_nil _ hchars]
    exact hfirst.1.1
  · obtain ⟨front, last, hconcat⟩ : ∃ front last, v :: rest = front ++ [last] :=
      ⟨_, _, (dropLast_append_getLast (cons_ne_nil v rest)).symm⟩
    have hlast := h.visible last (by rw [hconcat]; simp)
    have hlastChars : (json.print last).toList ≠ [] := by simpa using hlast.2
    have happend : printAll json (v :: rest) = printAll json front ++ (json.print last).toList := by
      rw [hconcat, printAll, flatMap_append]
      simp [printAll]
    rw [happend, List.getLast?_append_of_ne_nil _ hlastChars]
    exact hlast.1.2
  · rw [hcons]
    simp [hchars]
  · rw [hcons, List.head?_append_of_ne_nil _ hchars, h.starts v mem_cons_self]
    simp

/-- The arguments of an entry are not taken for missing ones. -/
theorem arguments_printAll (h : json.ReadsBack vs) (hne : vs ≠ [])
    (harguments : entry.arguments.toList = printAll json vs) :
    trim entry.arguments ≠ "" ∧ entry.arguments = String.ofList (printAll json vs) := by
  obtain ⟨hvisible, hchars, -⟩ := visible_printAll h hne
  refine ⟨?_, by rw [← harguments, String.ofList_toList]⟩
  rw [trim_of_visible (harguments ▸ hvisible)]
  intro hempty
  rw [hempty] at harguments
  exact hchars harguments.symm

/-- A single value is read back. -/
theorem entryCalls_one {v : Value} (h : json.ReadsBack [v])
    (harguments : entry.arguments.toList = printAll json [v]) (id name : String) :
    entryCalls json id name entry = [⟨id, name, v, entry.metadata⟩] := by
  obtain ⟨htrim, htext⟩ := arguments_printAll h (cons_ne_nil v []) harguments
  have hprint : String.ofList (printAll json [v]) = json.print v := by simp [printAll]
  unfold entryCalls
  dsimp only
  rw [if_neg htrim, htext, hprint, h.parsed v (by simp)]

/-- What `try_extract_concatenated_json_objects` makes of several values. -/
theorem tryExtract_printAll (h : json.ReadsBack vs) (hne : vs ≠ []) :
    tryExtractConcatenatedJsonObjects json (String.ofList (printAll json vs)) =
      if ∃ v ∈ vs.head?, v.isObject then
        let objects := json.values (String.ofList (printAll json vs))
        if objects.length ≤ 1 then none else some objects
      else none := by
  obtain ⟨hvisible, -, hstarts⟩ := visible_printAll h hne
  unfold tryExtractConcatenatedJsonObjects
  dsimp only
  rw [trim_of_visible (by rwa [String.toList_ofList]), String.toList_ofList]
  exact if_congr hstarts rfl rfl

/-- Several values that come apart are all read back. -/
theorem entryCalls_apart (h : json.ReadsBack vs) (htwo : 2 ≤ vs.length) (hvs : ComeApart vs)
    (harguments : entry.arguments.toList = printAll json vs) (id name : String) :
    (entryCalls json id name entry).map ToolCall.content =
      vs.map fun v => ⟨name, v, entry.metadata⟩ := by
  have hne : vs ≠ [] := by
    rintro rfl
    simp at htwo
  obtain ⟨error, herror⟩ := h.trailing htwo hvs.1
  have hextract : tryExtractConcatenatedJsonObjects json (String.ofList (printAll json vs)) =
      some vs := by
    rw [tryExtract_printAll h hne, if_pos hvs.1]
    rw [h.values htwo hvs, if_neg (show ¬vs.length ≤ 1 by omega)]
  obtain ⟨htrim, htext⟩ := arguments_printAll h hne harguments
  unfold entryCalls
  dsimp only
  rw [if_neg htrim, htext, herror]
  dsimp only
  rw [hextract]
  refine ext_getElem (by simp) fun i hi hi' => ?_
  simp [ToolCall.content]

/-- Of several values that do not come apart, some are lost. -/
theorem length_entryCalls_lt (h : json.ReadsBack vs) (htwo : 2 ≤ vs.length) (hvs : ¬ComeApart vs)
    (harguments : entry.arguments.toList = printAll json vs) (id name : String) :
    (entryCalls json id name entry).length < vs.length := by
  have hne : vs ≠ [] := by
    rintro rfl
    simp at htwo
  obtain ⟨htrim, htext⟩ := arguments_printAll h hne harguments
  have hextract := tryExtract_printAll h hne
  unfold entryCalls
  dsimp only
  rw [if_neg htrim, htext]
  by_cases hfirst : ∃ v ∈ vs.head?, v.isObject
  · obtain ⟨error, herror⟩ := h.trailing htwo hfirst
    have hfewer := h.fewer htwo hfirst hvs
    rw [if_pos hfirst] at hextract
    rw [herror]
    dsimp only at hextract ⊢
    split_ifs at hextract with hone
    · rw [hextract]
      exact htwo
    · rw [hextract]
      dsimp only
      rw [length_mapIdx]
      exact hfewer
  · rw [if_neg hfirst] at hextract
    cases hparse : json.parse (String.ofList (printAll json vs)) with
    | ok v => exact htwo
    | error error =>
      dsimp only
      rw [hextract]
      exact htwo

end Entries

/-! ## The calls of a stream -/

section Columns

variable {payloads : List (List CallContent)}

/-- Calls with the name of the last one and the first signature that there is. -/
def columnCalls (calls : List CallContent) : List CallContent :=
  calls.map fun call => ⟨((calls.map CallContent.name).getLast?).getD "", call.arguments,
    (calls.filterMap CallContent.metadata).head?⟩

/-- The calls of all payloads, those at the first place first, with what is shared at a place. -/
def indexOrder (payloads : List (List CallContent)) : List CallContent :=
  (List.range (mostCalls payloads)).flatMap fun i => columnCalls (callsAt payloads i)

theorem callsAt_cons (calls : List CallContent) (payloads : List (List CallContent)) (i : ℕ) :
    callsAt (calls :: payloads) i = calls[i]?.toList ++ callsAt payloads i := by
  rw [callsAt, callsAt, filterMap_cons]
  cases calls[i]? <;> rfl

theorem mostCalls_cons (calls : List CallContent) (payloads : List (List CallContent)) :
    mostCalls (calls :: payloads) = max calls.length (mostCalls payloads) := rfl

/-- There is a call at a place that some payload has. -/
theorem callsAt_ne_nil {i : ℕ} : callsAt payloads i ≠ [] ↔ i < mostCalls payloads := by
  induction payloads with
  | nil => simp [callsAt, mostCalls]
  | cons calls payloads ih =>
    rw [callsAt_cons, mostCalls_cons, lt_max_iff, ← ih, ne_eq, append_eq_nil_iff, not_and_or]
    refine or_congr ?_ Iff.rfl
    by_cases hi : i < calls.length <;> simp [hi]

/-- A list has one call at each of its places. -/
theorem sum_length_getElem (calls : List CallContent) (h : calls.length ≤ n) :
    ((List.range n).map fun i => calls[i]?.toList.length).sum = calls.length := by
  induction calls generalizing n with
  | nil => simp
  | cons call calls ih =>
    obtain ⟨n, rfl⟩ : ∃ k, n = k + 1 := Nat.exists_eq_add_one_of_ne_zero (by simp at h; omega)
    rw [range_succ_eq_map, map_cons, map_map, sum_cons, length_cons]
    have htail : ((fun i => (call :: calls)[i]?.toList.length) ∘ Nat.succ) =
        fun i => calls[i]?.toList.length := by
      funext i
      simp
    rw [htail, ih (by simpa using h)]
    simp [Nat.add_comm]

/-- The calls at all places are all calls. -/
theorem sum_length_callsAt (h : mostCalls payloads ≤ n) :
    ((List.range n).map fun i => (callsAt payloads i).length).sum = payloads.flatten.length := by
  induction payloads with
  | nil => simp [callsAt]
  | cons calls payloads ih =>
    rw [mostCalls_cons, max_le_iff] at h
    have hsplit : (fun i => (callsAt (calls :: payloads) i).length) =
        fun i => calls[i]?.toList.length + (callsAt payloads i).length := by
      funext i
      rw [callsAt_cons, length_append]
    rw [hsplit, sum_map_add, sum_length_getElem calls h.1, ih h.2, flatten_cons,
      length_append]

/-- The indices of the deltas are the places of the calls. -/
theorem keys_accumulate_payloads (json : JsonText) (newId : ℕ → ℕ → String) :
    Fields.keys (accumulate
      (payloads.mapIdx fun p calls => callDeltas json (newId p) 0 calls).flatten) =
        List.range (mostCalls payloads) := by
  have hmem : ∀ i, i ∈ Fields.keys (accumulate
      (payloads.mapIdx fun p calls => callDeltas json (newId p) 0 calls).flatten) ↔
        i ∈ List.range (mostCalls payloads) := by
    intro i
    obtain ⟨pairs, hcalls, hdeltas⟩ := deltasAt_payloads json newId payloads i
    rw [mem_keys_accumulate, mem_range, ← callsAt_ne_nil, ← hcalls, ne_eq, map_eq_nil_iff,
      ← map_eq_nil_iff (f := fun pair => callDelta json pair.1 i pair.2), ← hdeltas, deltasAt,
      filter_eq_nil_iff]
    simp
  exact (pairwise_accumulate _).eq_of_mem_iff pairwise_lt_range hmem

/-- The function calls of each payload. -/
def payloadCalls (chunks : List GeminiGenerateContentResponse) : List (List CallContent) :=
  chunks.map fun chunk => functionCalls chunk.parts

/-- The calls of all payloads are those of all parts. -/
theorem flatten_payloadCalls (chunks : List GeminiGenerateContentResponse) :
    (payloadCalls chunks).flatten =
      functionCalls (chunks.flatMap GeminiGenerateContentResponse.parts) := by
  induction chunks with
  | nil => rfl
  | cons chunk chunks ih =>
    rw [payloadCalls, map_cons, flatten_cons, flatMap_cons]
    exact (congrArg (functionCalls chunk.parts ++ ·) ih).trans filterMap_append.symm

/-- The deltas of a stream are those of the calls of its payloads. -/
theorem deltasOf_geminiStream (json : JsonText) (newId : ℕ → ℕ → String)
    (chunks : List GeminiGenerateContentResponse) :
    deltasOf (geminiStream json newId chunks) = ((payloadCalls chunks).mapIdx fun p calls =>
      callDeltas json (newId p) 0 calls).flatten := by
  unfold geminiStream payloadCalls
  induction chunks generalizing newId with
  | nil => rfl
  | cons chunk chunks ih =>
    rw [mapIdx_cons, flatten_cons, deltasOf_append, deltasOf_chunk, ih, map_cons,
      mapIdx_cons, flatten_cons]

/-- No payload says that the connection is lost. -/
theorem streamParts_ne_connectionLost {json : JsonText} {newId : ℕ → String}
    {parts : List GeminiPart} : ∀ item ∈ (streamParts json newId first parts).1,
      ∀ message, item ≠ .connectionLost message := by
  induction parts generalizing first with
  | nil => simp [streamParts]
  | cons part parts ih =>
    intro item hitem message
    rw [streamParts] at hitem
    rcases mem_append.mp hitem with hitem | hitem
    · rcases mem_append.mp hitem with hitem | hitem
      · obtain ⟨text, -, rfl⟩ := mem_map.mp hitem
        exact StreamItem.noConfusion
      · obtain ⟨call, -, rfl⟩ := mem_map.mp hitem
        exact StreamItem.noConfusion
    · exact ih item hitem message

theorem streamCandidates_ne_connectionLost {json : JsonText} {newId : ℕ → String}
    {candidates : List GeminiCandidate} : ∀ item ∈ streamCandidates json newId first candidates,
      ∀ message, item ≠ .connectionLost message := by
  induction candidates generalizing first with
  | nil => simp [streamCandidates]
  | cons candidate candidates ih =>
    intro item hitem message
    rw [streamCandidates] at hitem
    rcases mem_append.mp hitem with hitem | hitem
    · rcases mem_append.mp hitem with hitem | hitem
      · exact streamParts_ne_connectionLost item hitem message
      · obtain ⟨reason, -, rfl⟩ := mem_map.mp hitem
        exact StreamItem.noConfusion
    · exact ih item hitem message

theorem geminiStream_ne_connectionLost {json : JsonText} {newId : ℕ → ℕ → String}
    {chunks : List GeminiGenerateContentResponse} : ∀ item ∈ geminiStream json newId chunks,
      ∀ message, item ≠ .connectionLost message := by
  intro item hitem message
  obtain ⟨items, hitems, hitem⟩ := mem_flatten.mp hitem
  obtain ⟨i, hi, rfl⟩ := mem_mapIdx.mp hitems
  rcases mem_append.mp hitem with hitem | hitem
  · exact streamCandidates_ne_connectionLost item hitem message
  · obtain ⟨usage, -, rfl⟩ := mem_map.mp hitem
    exact StreamItem.noConfusion

/-- The tool calls that are built of the deltas of an index. -/
def placeCalls (json : JsonText) (newId : ℕ → ℕ → String) (payloads : List (List CallContent))
    (i : ℕ) : List ToolCall :=
  let entry := entryOf
    (deltasAt (payloads.mapIdx fun p calls => callDeltas json (newId p) 0 calls).flatten i)
  entryCalls json (entry.id.getD "") (entry.name.getD "") entry

/-- A response is assembled, and each place of the payloads adds the calls of its entry. -/
theorem streamResponse_geminiStream (json : JsonText) (provider : String) (newId : ℕ → ℕ → String)
    (chunks : List GeminiGenerateContentResponse) :
    ∃ response, streamResponse json provider ((geminiStream json newId chunks).map .ok) =
        .ok response ∧
      response.tool_calls = (List.range (mostCalls (payloadCalls chunks))).flatMap
        (placeCalls json newId (payloadCalls chunks)) := by
  have hcollect := collectStream_eq {} ((geminiStream json newId chunks).map .ok)
  rw [readStream_map_ok geminiStream_ne_connectionLost] at hcollect
  have hcalls : ((geminiStream json newId chunks).foldl Collected.add {}).tool_calls =
      accumulate ((payloadCalls chunks).mapIdx fun p calls =>
        callDeltas json (newId p) 0 calls).flatten := by
    rw [tool_calls_foldl_add, deltasOf_geminiStream]
    rfl
  have hcomplete : ∀ c ∈ accumulate ((payloadCalls chunks).mapIdx fun p calls =>
      callDeltas json (newId p) 0 calls).flatten, c.2.id.isSome ∧ c.2.name.isSome := by
    intro c hc
    rw [accumulate_eq, keys_accumulate_payloads] at hc
    obtain ⟨i, hi, rfl⟩ := mem_map.mp hc
    have hne := callsAt_ne_nil.mpr (mem_range.mp hi)
    obtain ⟨hid, hname, -, -⟩ := entryOf_payloads json newId (payloadCalls chunks) i
    refine ⟨?_, ?_⟩
    · dsimp only
      rw [hid, List.getLast?_isSome]
      exact hne
    · dsimp only
      rw [hname, List.getLast?_isSome]
      simpa using hne
  have hbuild := build_eq_ok json provider hcomplete
  unfold streamResponse
  rw [hcollect]
  dsimp only [bind, Except.bind]
  rw [hcalls, hbuild]
  refine ⟨_, rfl, ?_⟩
  rw [accumulate_eq, keys_accumulate_payloads, flatMap_map]
  rfl

/-- The arguments of some calls. -/
def argumentsOf (calls : List CallContent) : List Value := calls.map CallContent.arguments

/-- What a place of the payloads adds: its calls with what they share, when there is one or their
arguments come apart, and fewer calls otherwise. -/
theorem placeCalls_callsAt {json : JsonText} (newId : ℕ → ℕ → String) {i : ℕ}
    (hreads : json.ReadsBack (argumentsOf (callsAt payloads i)))
    (hne : callsAt payloads i ≠ []) :
    ((2 ≤ (callsAt payloads i).length → ComeApart (argumentsOf (callsAt payloads i))) →
        (placeCalls json newId payloads i).map ToolCall.content =
          columnCalls (callsAt payloads i)) ∧
      (¬(2 ≤ (callsAt payloads i).length → ComeApart (argumentsOf (callsAt payloads i))) →
        (placeCalls json newId payloads i).length < (callsAt payloads i).length) := by
  obtain ⟨-, hname, harguments, hmetadata⟩ := entryOf_payloads json newId payloads i
  unfold placeCalls
  have hlength : (argumentsOf (callsAt payloads i)).length = (callsAt payloads i).length := by
    simp [argumentsOf]
  refine ⟨fun hapart => ?_, fun hapart => ?_⟩
  · have hcolumn : columnCalls (callsAt payloads i) = (argumentsOf (callsAt payloads i)).map
        fun v => ⟨((callsAt payloads i).map CallContent.name).getLast?.getD "", v,
          ((callsAt payloads i).filterMap CallContent.metadata).head?⟩ := by
      rw [argumentsOf, map_map]
      rfl
    by_cases htwo : 2 ≤ (callsAt payloads i).length
    · rw [entryCalls_apart hreads (hlength ▸ htwo) (hapart htwo) harguments, hcolumn, hname,
        hmetadata]
    · have hpos := length_pos_iff.mpr hne
      obtain ⟨v, hv⟩ := length_eq_one_iff.mp
        (show (argumentsOf (callsAt payloads i)).length = 1 by omega)
      rw [argumentsOf] at hv
      rw [argumentsOf, hv] at hreads
      rw [hv] at harguments
      rw [entryCalls_one hreads harguments, hcolumn, argumentsOf, hv, hname, hmetadata]
      rfl
  · obtain ⟨htwo, hapart⟩ := Classical.not_imp.mp hapart
    rw [← hlength]
    exact length_entryCalls_lt hreads (hlength ▸ htwo) hapart harguments _ _

/-- The calls of a stream are the function calls of the response, as `normalize_gemini_response`
makes tool calls of them. -/
def FaithfulCalls (json : JsonText) (provider : String) (newId : ℕ → ℕ → String)
    (chunks : List GeminiGenerateContentResponse) : Prop :=
  ∃ response, streamResponse json provider ((geminiStream json newId chunks).map .ok) =
      .ok response ∧
    response.tool_calls.map ToolCall.content =
      functionCalls (chunks.flatMap GeminiGenerateContentResponse.parts)

/-- The tool calls that are built of a stream are the function calls of the response exactly if the
arguments of the calls at the same place of their payloads come apart, and the calls are in order and
unchanged when they stand place by place, with the last name and the first signature of the place. -/
theorem geminiStream_faithful_iff {json : JsonText} {provider : String} {newId : ℕ → ℕ → String}
    {chunks : List GeminiGenerateContentResponse}
    (hreads : ∀ i, json.ReadsBack (argumentsOf (callsAt (payloadCalls chunks) i))) :
    FaithfulCalls json provider newId chunks ↔
      (∀ i, 2 ≤ (callsAt (payloadCalls chunks) i).length →
        ComeApart (argumentsOf (callsAt (payloadCalls chunks) i))) ∧
      indexOrder (payloadCalls chunks) = (payloadCalls chunks).flatten := by
  obtain ⟨response, hresponse, hcalls⟩ := streamResponse_geminiStream json provider newId chunks
  have hfaithful : FaithfulCalls json provider newId chunks ↔
      response.tool_calls.map ToolCall.content = (payloadCalls chunks).flatten := by
    rw [FaithfulCalls, flatten_payloadCalls]
    constructor
    · rintro ⟨response', hresponse', hcontent⟩
      obtain rfl := Except.ok.inj (hresponse.symm.trans hresponse')
      exact hcontent
    · exact fun hcontent => ⟨response, hresponse, hcontent⟩
  have hplace := fun i (hi : i < mostCalls (payloadCalls chunks)) =>
    placeCalls_callsAt newId (hreads i) (callsAt_ne_nil.mpr hi)
  rw [hfaithful]
  -- where the arguments of a place do not come apart, a call is lost
  by_cases hapart : ∀ i, 2 ≤ (callsAt (payloadCalls chunks) i).length →
      ComeApart (argumentsOf (callsAt (payloadCalls chunks) i))
  · have hcontent : response.tool_calls.map ToolCall.content =
        indexOrder (payloadCalls chunks) := by
      rw [hcalls, map_flatMap, indexOrder]
      exact flatMap_congr fun i hi => (hplace i (mem_range.mp hi)).1 (hapart i)
    rw [hcontent]
    exact (and_iff_right hapart).symm
  · refine iff_of_false (fun hcontent => ?_) fun h => hapart h.1
    obtain ⟨j, hj⟩ := not_forall.mp hapart
    have hjlt : j < mostCalls (payloadCalls chunks) := by
      refine callsAt_ne_nil.mp fun hnil => hj fun htwo => ?_
      rw [hnil] at htwo
      exact absurd htwo (by decide)
    have hle : ∀ i ∈ List.range (mostCalls (payloadCalls chunks)),
        (placeCalls json newId (payloadCalls chunks) i).length ≤
          (callsAt (payloadCalls chunks) i).length := by
      intro i hi
      obtain ⟨hsame, hfewer⟩ := hplace i (mem_range.mp hi)
      by_cases h : 2 ≤ (callsAt (payloadCalls chunks) i).length →
          ComeApart (argumentsOf (callsAt (payloadCalls chunks) i))
      · have hlength := congrArg List.length (hsame h)
        rw [length_map, columnCalls, length_map] at hlength
        exact hlength.le
      · exact (hfewer h).le
    have hlt : response.tool_calls.length < (payloadCalls chunks).flatten.length := by
      rw [hcalls, length_flatMap, ← sum_length_callsAt le_rfl]
      exact sum_lt_sum _ _ hle
        ⟨j, mem_range.mpr hjlt, (hplace j hjlt).2 hj⟩
    have hlength := congrArg List.length hcontent
    rw [length_map] at hlength
    exact absurd hlength hlt.ne

end Columns

section Examples

/-- A payload with calls without arguments. -/
def callPayload (names : List String) : GeminiGenerateContentResponse where
  candidates :=
    [{ content := some (names.map fun name => { function_call := some ⟨name, .object []⟩ }) }]

/-- What `serde_json` does with the text of one and of two empty objects. -/
def emptyObjectsJson : JsonText where
  parse s := if s = "\x7b\x7d" then .ok (.object []) else .error "trailing characters"
  print _ := "\x7b\x7d"
  values s := List.replicate (s.length / 2) (.object [])

/-- A call of `get_weather` in one payload and a call of `get_time` in the next. -/
def weatherThenTime : List GeminiGenerateContentResponse :=
  [callPayload ["get_weather"], callPayload ["get_time"]]

/-- Up to two empty objects are read back. -/
theorem emptyObjects_readsBack (h : n ≤ 2) :
    emptyObjectsJson.ReadsBack (List.replicate n (.object [])) := by
  have hobject : ∀ v ∈ List.replicate n (Value.object []), v.isObject :=
    fun v hv => (eq_of_mem_replicate hv) ▸ rfl
  have hprint : (Visible "\x7b\x7d".toList ∧ "\x7b\x7d" ≠ "") ∧
      "\x7b\x7d".toList.head? = some '\x7b' :=
    ⟨⟨⟨visible_of_all (by decide), visible_of_all (by decide)⟩, by decide⟩, by decide⟩
  refine ⟨fun v _ => hprint.1, fun v hv => ?_, fun v hv => ?_, ?_, ?_, ?_⟩
  · exact iff_of_true hprint.2 (hobject v hv)
  · rw [eq_of_mem_replicate hv]
    rfl
  all_goals
    intro htwo
    obtain rfl : n = 2 := by
      rw [length_replicate] at htwo
      omega
  · exact fun _ => ⟨"trailing characters", rfl⟩
  · exact fun _ => rfl
  · refine fun _ hapart => absurd ⟨⟨_, rfl, rfl⟩, ?_⟩ hapart
    simp [Value.isBare]

/-- Both calls become calls of `get_time`. -/
theorem weatherThenTime_merged :
    (∀ i, emptyObjectsJson.ReadsBack (argumentsOf (callsAt (payloadCalls weatherThenTime) i))) ∧
      ¬FaithfulCalls emptyObjectsJson "gemini" (fun _ _ => "call") weatherThenTime := by
  refine ⟨fun i => ?_, ?_⟩
  · cases i with
    | zero => exact emptyObjects_readsBack (le_refl 2)
    | succ i => exact emptyObjects_readsBack (Nat.zero_le 2)
  · rintro ⟨response, hresponse, hcontent⟩
    have hnames : (streamResponse emptyObjectsJson "gemini"
        ((geminiStream emptyObjectsJson (fun _ _ => "call") weatherThenTime).map .ok)).toOption.map
          (fun response => response.tool_calls.map ToolCall.name) =
        some ["get_time", "get_time"] := by
      decide
    have hcalled := congrArg (List.map CallContent.name) hcontent
    rw [hresponse] at hnames
    rw [map_map] at hcalled
    have hsame := (Option.some.inj hnames).symm.trans hcalled
    exact absurd hsame (by decide)

/-- A call of `get_time` in one payload, and another one and a call of `get_weather` in the next, are
built as they were sent. -/
theorem time_faithful :
    FaithfulCalls emptyObjectsJson "gemini" (fun _ _ => "call")
      [callPayload ["get_time"], callPayload ["get_time", "get_weather"]] := by
  refine (geminiStream_faithful_iff fun i => ?_).mpr ⟨fun i htwo => ?_, rfl⟩
  · match i with
    | 0 => exact emptyObjects_readsBack (le_refl 2)
    | 1 => exact emptyObjects_readsBack (Nat.le_succ 1)
    | i + 2 => exact emptyObjects_readsBack (Nat.zero_le 2)
  · match i with
    | 0 => exact ⟨⟨_, rfl, rfl⟩, .cons_cons nofun (.singleton _)⟩
    | 1 => exact absurd (show 2 ≤ 1 from htwo) (by decide)
    | i + 2 => exact absurd (show 2 ≤ 0 from htwo) (by decide)

end Examples

end Oxydra
