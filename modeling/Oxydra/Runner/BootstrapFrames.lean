import Oxydra.Library.CharBoundary
import Oxydra.Runner.Bootstrap
import Oxydra.Runner.ConfigFileCalls
import Oxydra.Types.JsonReader

/-!
# Bootstrap frames round trip

What `to_length_prefixed_json` writes of a valid envelope is read back by
`from_length_prefixed_json`, and no other part or continuation of the frame is accepted
(`bootstrapFrames_roundTrip`). That each field which is left out has its default is a part of the
codecs of the structs.
-/

namespace Oxydra

open List RecordCodec

/-- What is read and checked. -/
theorem readChecked_eq_ok_iff {α : Type} {slice : Except String Value}
    {read : Value → Except String α} {check : α → Except BootstrapEnvelopeError Unit} {a : α} :
    (do
      let value ← slice.mapError BootstrapEnvelopeError.serialization
      let b ← (read value).mapError .serialization
      check b
      return b) = .ok a ↔
      ∃ value, slice = .ok value ∧ read value = .ok a ∧ check a = .ok () := by
  cases slice with
  | error message => exact iff_of_false nofun (by rintro ⟨_, h, -⟩; cases h)
  | ok value =>
    change ((read value).mapError BootstrapEnvelopeError.serialization >>= fun b =>
      check b >>= fun _ => pure b) = .ok a ↔ _
    cases hread : read value with
    | error message =>
      refine iff_of_false nofun ?_
      rintro ⟨_, h, h', -⟩
      cases h
      exact absurd (hread.symm.trans h') nofun
    | ok b =>
      change (check b >>= fun _ => pure b) = .ok a ↔ _
      cases hcheck : check b with
      | error error =>
        refine iff_of_false nofun ?_
        rintro ⟨_, h, h', hvalid⟩
        cases h
        cases hread.symm.trans h'
        exact absurd (hcheck.symm.trans hvalid) nofun
      | ok _ =>
        constructor
        · intro h
          cases h
          exact ⟨value, rfl, hread, hcheck⟩
        · rintro ⟨_, h, h', -⟩
          cases h
          cases hread.symm.trans h'
          rfl

namespace RunnerBootstrapEnvelope

variable {json : SerdeJson} {envelope : RunnerBootstrapEnvelope} {payload frame : List UInt8}

/-- A valid envelope is written as a frame. -/
theorem toLengthPrefixedJson_eq (hvalid : envelope.validate = .ok ())
    (hpayload : json.to_vec (codec.write envelope) = .ok payload) (hsize : payload.length < 2^32) :
    envelope.toLengthPrefixedJson json = .ok (LengthPrefix.frame payload) := by
  unfold toLengthPrefixedJson
  rw [hvalid, hpayload]
  change (if 2^32 - 1 < payload.length then _ else _) = _
  rw [if_neg (by omega)]
  rfl

/-- Bytes that are not as many as their prefix says are rejected. -/
theorem fromLengthPrefixedJson_of_mismatch
    (h : frame.length < 4 ∨ (frame.drop 4).length ≠ LengthPrefix.ofBytes (frame.take 4)) :
    ∃ error, fromLengthPrefixedJson json frame = .error error := by
  unfold fromLengthPrefixedJson
  by_cases hshort : frame.length < 4
  · exact ⟨.frameTooShort frame.length, by rw [if_pos hshort]; rfl⟩
  · refine ⟨.lengthPrefixMismatch (LengthPrefix.ofBytes (frame.take 4)) (frame.drop 4).length, ?_⟩
    rw [if_neg hshort]
    rw [if_pos (h.resolve_left hshort)]
    rfl

/-- The payload of a frame is read. -/
theorem fromLengthPrefixedJson_frame (hsize : payload.length < 2^32) :
    fromLengthPrefixedJson json (LengthPrefix.frame payload) = do
      let value ← (json.from_slice payload).mapError .serialization
      let envelope ← (codec.read value).mapError .serialization
      envelope.validate
      return envelope := by
  have hlength : ¬(LengthPrefix.frame payload).length < 4 := by
    rw [LengthPrefix.frame, length_append]
    exact not_lt.mpr (Nat.le_add_right 4 _)
  have htake : (LengthPrefix.frame payload).take 4 = LengthPrefix.toBytes payload.length := rfl
  have hdrop : (LengthPrefix.frame payload).drop 4 = payload := rfl
  unfold fromLengthPrefixedJson
  rw [if_neg hlength, htake, hdrop, LengthPrefix.ofBytes_toBytes hsize]
  rw [if_neg (fun h => h rfl)]

/-- What is accepted is valid. -/
theorem validate_of_fromLengthPrefixedJson
    (h : fromLengthPrefixedJson json frame = .ok envelope) : envelope.validate = .ok () := by
  by_cases hmismatch : frame.length < 4 ∨
      (frame.drop 4).length ≠ LengthPrefix.ofBytes (frame.take 4)
  · obtain ⟨error, herror⟩ := @fromLengthPrefixedJson_of_mismatch json frame hmismatch
    rw [herror] at h
    cases h
  · rw [not_or, not_not] at hmismatch
    unfold fromLengthPrefixedJson at h
    rw [if_neg hmismatch.1, if_neg (fun hne => hne hmismatch.2)] at h
    obtain ⟨-, -, -, hvalid⟩ := readChecked_eq_ok_iff.mp h
    exact hvalid

/-- Bytes that begin with the prefix of a frame, but have another length, are rejected. -/
theorem fromLengthPrefixedJson_of_length_ne (hsize : payload.length < 2^32) {bytes : List UInt8}
    (hfour : bytes.take 4 = LengthPrefix.toBytes payload.length)
    (hlength : bytes.length ≠ payload.length + 4) :
    ∃ error, fromLengthPrefixedJson json bytes = .error error := by
  refine fromLengthPrefixedJson_of_mismatch ?_
  rw [hfour, LengthPrefix.ofBytes_toBytes hsize, length_drop]
  omega

/-- Frames round trip, for envelopes that the JSON layer reads as it wrote them; each proper prefix of
a frame and each frame with more bytes is rejected; and what is accepted is valid. -/
theorem bootstrapFrames_roundTrip (json : SerdeJson) :
    (∀ (envelope : RunnerBootstrapEnvelope) (payload : List UInt8),
      envelope.validate = .ok () → json.to_vec (codec.write envelope) = .ok payload →
      json.from_slice payload = .ok (codec.write envelope) → payload.length < 2^32 →
        ∃ frame, envelope.toLengthPrefixedJson json = .ok frame ∧
          fromLengthPrefixedJson json frame = .ok envelope ∧
          (∀ part, part <+: frame → part ≠ frame →
            ∃ error, fromLengthPrefixedJson json part = .error error) ∧
          (∀ more, more ≠ [] →
            ∃ error, fromLengthPrefixedJson json (frame ++ more) = .error error)) ∧
    ∀ frame envelope, fromLengthPrefixedJson json frame = .ok envelope →
      envelope.validate = .ok () := by
  refine ⟨fun envelope payload hvalid hpayload hread hsize => ?_,
    fun frame envelope h => validate_of_fromLengthPrefixedJson h⟩
  have hframe : (LengthPrefix.frame payload).length = payload.length + 4 := by
    rw [LengthPrefix.frame, length_append, Nat.add_comm]
    rfl
  refine ⟨_, toLengthPrefixedJson_eq hvalid hpayload hsize, ?_, fun part hpart hne => ?_,
    fun more hmore => ?_⟩
  · rw [fromLengthPrefixedJson_frame hsize]
    exact readChecked_eq_ok_iff.mpr ⟨_, hread, codec.read_write envelope, hvalid⟩
  · have hlength : part.length ≠ payload.length + 4 := fun hsame =>
      hne (hpart.eq_of_length (hsame.trans hframe.symm))
    by_cases hshort : part.length < 4
    · exact fromLengthPrefixedJson_of_mismatch (.inl hshort)
    · refine fromLengthPrefixedJson_of_length_ne hsize ?_ hlength
      have htake := hpart.take 4
      exact htake.eq_of_length (by simp [LengthPrefix.frame, LengthPrefix.toBytes]; omega)
  · refine fromLengthPrefixedJson_of_length_ne hsize rfl ?_
    have hpos := length_pos_of_ne_nil hmore
    rw [length_append, hframe]
    omega

/-! ## An envelope with its parts -/

/-- An envelope with a policy, a startup status, and a channel. -/
def channelsEnvelope : RunnerBootstrapEnvelope where
  user_id := "alice"
  sandbox_tier := .container
  workspace_root := "/work"
  runtime_policy := some
    { mounts := ⟨"/work/shared", "/work/tmp", "/work/vault"⟩
      resources := { max_memory_mib := some 2048 }
      credential_refs := ⟨[("openai", "OPENAI_API_KEY")], by decide⟩ }
  startup_status := some
    ⟨.container, false, false, false, [(.sidecarUnavailable, "no sidecar")]⟩
  channels := some ⟨some
    { enabled := true
      bot_token_env := some "BOT_TOKEN"
      polling_timeout_secs := 30
      senders := [⟨["42", "7"], some "Alice"⟩, ⟨["8"], none⟩]
      max_message_length := 4096 }⟩

/-- Its JSON. -/
def channelsJson : List Char :=
  [ "\x7b\"user_id\":\"alice\",\"sandbox_tier\":\"container\",\"workspace_root\":\"/work\",",
    "\"runtime_policy\":\x7b\"mounts\":\x7b\"shared\":\"/work/shared\",\"tmp\":\"/work/tmp\",",
    "\"vault\":\"/work/vault\"\x7d,\"resources\":\x7b\"max_memory_mib\":2048\x7d,",
    "\"credential_refs\":\x7b\"openai\":\"OPENAI_API_KEY\"\x7d\x7d,",
    "\"startup_status\":\x7b\"sandbox_tier\":\"container\",\"sidecar_available\":false,",
    "\"shell_available\":false,\"browser_available\":false,\"degraded_reasons\":",
    "[\x7b\"code\":\"sidecar_unavailable\",\"detail\":\"no sidecar\"\x7d]\x7d,",
    "\"channels\":\x7b\"telegram\":\x7b\"enabled\":true,\"bot_token_env\":\"BOT_TOKEN\",",
    "\"polling_timeout_secs\":30,\"senders\":[\x7b\"platform_ids\":[\"42\",\"7\"],",
    "\"display_name\":\"Alice\"\x7d,\x7b\"platform_ids\":[\"8\"]\x7d],",
    "\"max_message_length\":4096\x7d\x7d\x7d" ].flatMap String.toList

mutual

/-- How a value is written that has no floats, and no characters that need an escape. -/
def spelled : Value → List Char
  | .null => "null".toList
  | .bool b => (toString b).toList
  | .number (.integer n) => (toString n).toList
  | .number (.float x) => (toString x).toList
  | .string s => '"' :: s.toList ++ ['"']
  | .array items => '[' :: List.intercalate [','] (spelledItems items) ++ [']']
  | .object fields => '\x7b' :: List.intercalate [','] (spelledFields fields) ++ ['\x7d']

/-- How the items of an array are written. -/
def spelledItems : List Value → List (List Char)
  | [] => []
  | item :: items => spelled item :: spelledItems items

/-- How the members of an object are written. -/
def spelledFields : List (String × Value) → List (List Char)
  | [] => []
  | (name, v) :: fields => ('"' :: name.toList ++ '"' :: ':' :: spelled v) :: spelledFields fields

end

/-- A JSON layer for such values. It reads the members of an object in their order. -/
def plainSerde : SerdeJson where
  to_vec value := .ok (String.ofList (spelled value)).toUTF8.data.toList
  from_slice payload :=
    match (String.fromUTF8? ⟨payload.toArray⟩).bind fun text =>
        Json.parseWith (fun name v fields => fields ++ [(name, v)]) text.toList with
    | some value => .ok value
    | none => .error "expected value"

/-- What a value is written as is read, if it is spelled like this. -/
theorem plainSerde_reads {value : Value} {text : List Char} (hspelled : spelled value = text)
    (hparsed : Json.parseWith (fun name v fields => fields ++ [(name, v)]) text = some value) :
    plainSerde.to_vec value = .ok (String.ofList text).toUTF8.data.toList ∧
      plainSerde.from_slice (String.ofList text).toUTF8.data.toList = .ok value := by
  unfold plainSerde
  dsimp only
  constructor
  · rw [hspelled]
  · rw [Array.toArray_toList, fromUTF8?_toUTF8, Option.bind_some, String.toList_ofList, hparsed]

/-- A character has four bytes at most. -/
theorem length_toUTF8_le (text : List Char) :
    (String.ofList text).toUTF8.data.toList.length ≤ 4 * text.length := by
  induction text with
  | nil => exact Nat.le_refl 0
  | cons c text ih =>
    have hbytes : (String.ofList (c :: text)).toUTF8.data.toList.length =
        c.utf8Size + (String.ofList text).toUTF8.data.toList.length := Text.utf8ByteSize_cons c text
    have hfour := c.utf8Size_le_four
    rw [hbytes, length_cons]
    omega

/-- The envelope is read out of its frame, which is not read with more bytes. -/
theorem channelsEnvelope_roundTrip : ∃ frame,
    channelsEnvelope.toLengthPrefixedJson plainSerde = .ok frame ∧
      fromLengthPrefixedJson plainSerde frame = .ok channelsEnvelope ∧
      ∃ error, fromLengthPrefixedJson plainSerde (frame ++ [0]) = .error error := by
  obtain ⟨hwritten, hread⟩ : plainSerde.to_vec (codec.write channelsEnvelope) =
        .ok (String.ofList channelsJson).toUTF8.data.toList ∧
      plainSerde.from_slice (String.ofList channelsJson).toUTF8.data.toList =
        .ok (codec.write channelsEnvelope) :=
    plainSerde_reads (by decide +kernel) (by decide +kernel)
  have hshort : 4 * channelsJson.length < 2^32 := by decide +kernel
  obtain ⟨frame, hframe, hsame, -, hmore⟩ := (bootstrapFrames_roundTrip plainSerde).1
    channelsEnvelope _ (by decide +kernel) hwritten hread
    ((length_toUTF8_le channelsJson).trans_lt hshort)
  exact ⟨frame, hframe, hsame, hmore [0] (cons_ne_nil 0 [])⟩

end RunnerBootstrapEnvelope

end Oxydra
