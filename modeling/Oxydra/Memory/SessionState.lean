import Oxydra.Library.Fields
import Oxydra.Library.Lts
import Oxydra.Runtime.Memory

/-!
# The state document of a session

The rolling summary, the scratchpad, and the last sequence number of a session are fields of one
JSON document, the column `state_json` of the table `session_state`. Each operation of
`crates/memory/src/lib.rs` that writes the document reads it, changes a field, and writes it back in
one `IMMEDIATE` transaction (`store`, `write_summary_state`, `write_scratchpad`, and
`clear_scratchpad`). These transactions are serialised, so an interleaving of operations on a
session is a sequence of them, which is a run of `transactionSystem`.

`session_state_kept` says what no operation undoes: the epoch of the summary grows with each write
that is applied, there is one such write for each expected epoch, the upper sequence does not
decrease, and every operation leaves the other fields alone. `writeSummaryState_refines` says that
the memory on which the turn loop works (`Runtime/Memory.lean`) has the summary of the document.
-/

namespace Oxydra

open List Lts Effect

variable {request : SummaryWriteRequest}

/-! ## The document -/

/-- The tables of one session. -/
structure StoredSession where
  /-- `conversation_events`, with their sequence numbers. -/
  events : List (ℕ × Value) := []
  /-- `state_json`, as `serde_json` reads it, or the text of its error. -/
  state_json : Option (Except String Value) := none

/-- `load_session_state_map`. -/
def loadSessionStateMap (session_id : String) (session : StoredSession) :
    Except MemoryError (Option (List (String × Value))) :=
  match session.state_json with
  | none => .ok none
  | some (.error error) => .error (.query
      (s!"session_state for session `{session_id}` is not valid JSON: " ++ error))
  | some (.ok (.object fields)) => .ok (some fields)
  | some (.ok _) =>
    .error (.query s!"session_state for session `{session_id}` must be a JSON object")

/-- The document with these fields. -/
def StoredSession.withFields (session : StoredSession) (fields : List (String × Value)) :
    StoredSession :=
  { session with state_json := some (.ok (.object fields)) }

/-- What the document has under a key. -/
def StoredSession.stateKey (session : StoredSession) (key : String) : Option Value :=
  match session.state_json with
  | some (.ok (.object fields)) => fields.lookup key
  | _ => none

/-- `Value::as_u64`. -/
def Value.asU64 : Value → Option ℕ
  | .number (.integer n) => if 0 ≤ n ∧ n.toNat < 2^64 then some n.toNat else none
  | _ => none

/-! ## The summary -/

/-- `MemorySummaryState`, with its metadata. -/
structure StoredSummary extends MemorySummaryState where
  metadata : Option Value
  deriving DecidableEq

/-- A field of the summary, as `read_summary_u64_field` and `read_summary_string_field` read it. -/
def readSummaryField {α : Type} (session_id : String) (summary_state : List (String × Value))
    (field_name kind : String) (read : Value → Option α) : Except MemoryError α :=
  match summary_state.lookup field_name with
  | none => .error (.query
      (s!"summary_state for session `{session_id}` is missing `" ++ field_name ++ "`"))
  | some value =>
    match read value with
    | some a => .ok a
    | none => .error (.query ("summary_state field `" ++ field_name ++
        s!"` for session `{session_id}` must be " ++ kind))

/-- `read_summary_state_from_map`, of what the map has under `summary_state`. -/
def readSummaryState (session_id : String) (summary_value : Option Value) :
    Except MemoryError (Option StoredSummary) :=
  match summary_value with
  | none | some .null => .ok none
  | some (.object summary_state) => do
    let epoch ← readSummaryField session_id summary_state "epoch" "an unsigned integer" Value.asU64
    let upper_sequence ← readSummaryField session_id summary_state "upper_sequence"
      "an unsigned integer" Value.asU64
    let summary ← readSummaryField session_id summary_state "summary" "a string" Value.asStr
    let metadata := (summary_state.lookup "metadata").filter (· ≠ .null)
    return some { epoch, upper_sequence, summary, metadata }
  | some _ => .error (.query s!"summary_state for session `{session_id}` must be a JSON object")

/-- `MemorySummaryWriteRequest`, whose numbers are `u64`. -/
structure SummaryWriteRequest where
  expected_epoch : ℕ
  next_epoch : ℕ
  upper_sequence : ℕ
  summary : String
  metadata : Option Value := none
  next_epoch_lt : next_epoch < 2^64 := by decide
  upper_sequence_lt : upper_sequence < 2^64 := by decide
  deriving DecidableEq

/-- What `write_summary_state` stores under `summary_state`. -/
def SummaryWriteRequest.value (request : SummaryWriteRequest) : Value :=
  .object [("epoch", .number request.next_epoch), ("metadata", request.metadata.getD .null),
    ("summary", .string request.summary), ("upper_sequence", .number request.upper_sequence)]

/-- The summary that a write asks for. -/
def SummaryWriteRequest.state (request : SummaryWriteRequest) : MemorySummaryState where
  epoch := request.next_epoch
  upper_sequence := request.upper_sequence
  summary := request.summary

/-- What an operation returns. -/
inductive SessionResult where
  | stored
  | summary (applied : Bool) (current_epoch : ℕ)
  | scratchpad (updated : Bool) (item_count : ℕ)
  | cleared (removed : Bool)
  deriving DecidableEq, Repr

/-- An operation returns, and leaves the tables, or it fails. -/
abbrev SessionOutcome := Except MemoryError (SessionResult × StoredSession)

/-- `write_summary_state`. -/
def writeSummaryState (session_id : String) (request : SummaryWriteRequest)
    (session : StoredSession) : SessionOutcome :=
  if request.next_epoch ≤ request.expected_epoch then
    .error (.query ("summary write next_epoch must be greater than expected_epoch; got " ++
      s!"expected_epoch={request.expected_epoch} next_epoch={request.next_epoch}"))
  else do
    let session_state := (← loadSessionStateMap session_id session).getD []
    let existing_summary ← readSummaryState session_id (session_state.lookup "summary_state")
    let current_epoch := existing_summary.elim 0 (·.epoch)
    if current_epoch ≠ request.expected_epoch then
      return (.summary false current_epoch, session)
    else
      let upper_sequence := existing_summary.elim 0 (·.upper_sequence)
      if request.upper_sequence < upper_sequence then
        throw (.query (s!"summary write upper_sequence must be monotonic; got " ++
          s!"{request.upper_sequence} but existing upper_sequence is {upper_sequence}"))
      else
        return (.summary true request.next_epoch,
          session.withFields (Fields.insert "summary_state" request.value session_state))

/-! ## Events -/

/-- `ensure_monotonic_sequence`. -/
def ensureMonotonicSequence (session_id : String) (session : StoredSession) (sequence : ℕ) :
    Except MemoryError Unit :=
  match (session.events.map Prod.fst).max? with
  | some max_sequence =>
    if sequence ≤ max_sequence then
      .error (.query (s!"store sequence {sequence} must be greater than existing max sequence " ++
        s!"{max_sequence} for session `{session_id}`"))
    else .ok ()
  | none => .ok ()

/-- `store`. -/
def storeEvent (session_id : String) (sequence : ℕ) (payload : Value) (session : StoredSession) :
    SessionOutcome :=
  if 2^63 ≤ sequence then .error (.query "store sequence exceeds sqlite integer range")
  else do
    ensureMonotonicSequence session_id session sequence
    let session := { session with events := session.events ++ [(sequence, payload)] }
    let session_state := (← loadSessionStateMap session_id session).getD []
    return (.stored,
      session.withFields (Fields.insert "last_sequence" (.number sequence) session_state))

/-! ## The scratchpad -/

/-- `SCRATCHPAD_STATE_KEY`. -/
def scratchpadStateKey : String := "scratchpad_state"

/-- The items of a scratchpad from an index on, trimmed, and without the empty ones. -/
def normalizeItemsFrom : ℕ → List String → Except MemoryError (List String)
  | _, [] => .ok []
  | index, raw_item :: items =>
    let trimmed := Text.trim raw_item
    if trimmed = "" then normalizeItemsFrom (index + 1) items
    else if 240 < trimmed.length then
      .error (.query s!"scratchpad item at index {index} exceeds max character length 240")
    else (trimmed :: ·) <$> normalizeItemsFrom (index + 1) items

/-- `normalize_scratchpad_items`. -/
def normalizeScratchpadItems (items : List String) : Except MemoryError (List String) :=
  if 32 < items.length then
    .error (.query s!"scratchpad item count {items.length} exceeds max 32")
  else do
    let normalized ← normalizeItemsFrom 0 items
    if normalized.isEmpty then
      throw (.query "scratchpad items must contain at least one non-empty item")
    else return normalized

/-- What `write_scratchpad` stores. -/
def scratchpadValue (items : List String) (now : String) : Value :=
  .object [("items", .array (items.map .string)), ("schema_version", .number 1),
    ("updated_at", .string now)]

/-- `write_scratchpad`, where `encode` is `serde_json::to_string`. -/
def writeScratchpad (encode : Value → String) (session_id : String) (items : List String)
    (now : String) (session : StoredSession) : SessionOutcome :=
  if Text.trim session_id = "" then .error (.query "scratchpad session_id must not be empty")
  else do
    let normalized_items ← normalizeScratchpadItems items
    let scratchpad_state := scratchpadValue normalized_items now
    let size := (encode scratchpad_state).utf8ByteSize
    if 8 * 1024 < size then
      throw (.query s!"scratchpad payload size {size} bytes exceeds max 8192 bytes")
    else
      let session_state := (← loadSessionStateMap session_id session).getD []
      let updated := session_state.lookup scratchpadStateKey ≠ some scratchpad_state
      return (.scratchpad updated normalized_items.length,
        session.withFields (Fields.insert scratchpadStateKey scratchpad_state session_state))

/-- `clear_scratchpad`. -/
def clearScratchpad (session_id : String) (session : StoredSession) : SessionOutcome :=
  if Text.trim session_id = "" then .error (.query "scratchpad session_id must not be empty")
  else do
    match ← loadSessionStateMap session_id session with
    | none => return (.cleared false, session)
    | some session_state =>
      if (session_state.lookup scratchpadStateKey).isNone then return (.cleared false, session)
      else
        return (.cleared true,
          session.withFields (Fields.remove scratchpadStateKey session_state))

/-! ## Operations on one session -/

/-- An operation that writes the document. -/
inductive SessionOp where
  | store (sequence : ℕ) (payload : Value)
  | writeSummaryState (request : SummaryWriteRequest)
  | writeScratchpad (items : List String) (now : String)
  | clearScratchpad
  deriving DecidableEq

/-- The key that an operation writes. -/
def SessionOp.key : SessionOp → String
  | .store _ _ => "last_sequence"
  | .writeSummaryState _ => "summary_state"
  | .writeScratchpad _ _ | .clearScratchpad => scratchpadStateKey

/-- What an operation does. -/
def SessionOp.run (encode : Value → String) (session_id : String) (session : StoredSession) :
    SessionOp → SessionOutcome
  | .store sequence payload => storeEvent session_id sequence payload session
  | .writeSummaryState request => Oxydra.writeSummaryState session_id request session
  | .writeScratchpad items now => Oxydra.writeScratchpad encode session_id items now session
  | .clearScratchpad => Oxydra.clearScratchpad session_id session

/-- The write of a summary that an operation applied, if it did. -/
def SessionOp.appliedWrite (op : SessionOp) (result : SessionResult) : List SummaryWriteRequest :=
  match op, result with
  | .writeSummaryState request, .summary true _ => [request]
  | _, _ => []

/-- A session, and the writes of its summary that were applied, the newest first. -/
structure SessionHistory where
  session : StoredSession
  applied : List SummaryWriteRequest := []

/-- One transaction. It may also fail for reasons of the database; what fails is rolled back. -/
def transactionStep (encode : Value → String) (session_id : String) (s : SessionHistory)
    (l : SessionOp × Option MemoryError) : Option SessionHistory :=
  match l.2, l.1.run encode session_id s.session with
  | none, .ok (result, session) => some ⟨session, l.1.appliedWrite result ++ s.applied⟩
  | _, _ => some s

/-- All sequences of operations on a session, from any document. -/
def transactionSystem (encode : Value → String) (session_id : String) :
    System SessionHistory (SessionOp × Option MemoryError) :=
  ofStep (fun s => s.applied = []) (transactionStep encode session_id)

section

variable (session_id : String) (session : StoredSession)

/-- The summary that is stored, if it can be read. -/
def StoredSession.summary :
    Option StoredSummary :=
  (readSummaryState session_id (session.stateKey "summary_state")).toOption.join

/-- The epoch of the stored summary, which is 0 before the first one. -/
def StoredSession.epoch : ℕ :=
  (session.summary session_id).elim 0 (·.epoch)

/-- The upper sequence of the stored summary. -/
def StoredSession.upperSequence : ℕ :=
  (session.summary session_id).elim 0 (·.upper_sequence)

end

section

variable {encode : Value → String} {session_id : String} {session session' : StoredSession}
  {result : SessionResult} {key : String}

/-! ## What an operation leaves alone -/

/-- The fields that are loaded are those of the document. -/
theorem stateKey_of_load {fields : Option (List (String × Value))}
    (h : loadSessionStateMap session_id session = .ok fields) (key : String) :
    session.stateKey key = (fields.getD []).lookup key := by
  unfold loadSessionStateMap at h
  unfold StoredSession.stateKey
  split at h
  · cases h
    rename_i hnone
    rw [hnone]
    rfl
  · cases h
  · cases h
    rename_i hsome
    rw [hsome]
    rfl
  · cases h

@[simp] theorem stateKey_withFields (fields : List (String × Value)) :
    (session.withFields fields).stateKey key = fields.lookup key := rfl

theorem storeEvent_keeps {sequence : ℕ} {payload : Value}
    (h : storeEvent session_id sequence payload session = .ok (result, session'))
    (hkey : key ≠ "last_sequence") : session'.stateKey key = session.stateKey key := by
  unfold storeEvent at h
  split_ifs at h
  obtain ⟨_, -, h⟩ := except_bind_eq_ok.mp h
  obtain ⟨fields, hload, h⟩ := except_bind_eq_ok.mp h
  cases h
  rw [stateKey_withFields, Fields.lookup_insert, if_neg hkey]
  -- the event is in another table
  exact (stateKey_of_load hload key).symm

theorem writeScratchpad_keeps {items : List String} {now : String}
    (h : writeScratchpad encode session_id items now session = .ok (result, session'))
    (hkey : key ≠ scratchpadStateKey) : session'.stateKey key = session.stateKey key := by
  unfold writeScratchpad at h
  split_ifs at h
  obtain ⟨normalized, -, h⟩ := except_bind_eq_ok.mp h
  dsimp only at h
  split_ifs at h
  obtain ⟨fields, hload, h⟩ := except_bind_eq_ok.mp h
  cases h
  rw [stateKey_withFields, Fields.lookup_insert, if_neg hkey, stateKey_of_load hload key]

theorem clearScratchpad_keeps (h : clearScratchpad session_id session = .ok (result, session'))
    (hkey : key ≠ scratchpadStateKey) : session'.stateKey key = session.stateKey key := by
  unfold clearScratchpad at h
  split_ifs at h
  obtain ⟨fields, hload, h⟩ := except_bind_eq_ok.mp h
  cases fields with
  | none =>
    cases h
    rfl
  | some fields =>
    dsimp only at h
    split_ifs at h
    · cases h
      rfl
    · cases h
      rw [stateKey_withFields, Fields.lookup_remove hkey, stateKey_of_load hload key]
      rfl

/-! ## The write of a summary -/

/-- All that a write of a summary can do. -/
theorem writeSummaryState_cases
    (h : writeSummaryState session_id request session = .ok (result, session')) :
    ((∃ epoch, result = .summary false epoch) ∧ request.expected_epoch < request.next_epoch ∧
      session.epoch session_id ≠ request.expected_epoch ∧ session' = session) ∨
    (result = .summary true request.next_epoch ∧ request.expected_epoch < request.next_epoch ∧
      session.epoch session_id = request.expected_epoch ∧
      session.upperSequence session_id ≤ request.upper_sequence ∧
      ∃ fields, (∀ key, session.stateKey key = fields.lookup key) ∧
        session' = session.withFields (Fields.insert "summary_state" request.value fields)) := by
  unfold writeSummaryState at h
  split_ifs at h with hepoch
  obtain ⟨fields, hload, h⟩ := except_bind_eq_ok.mp h
  obtain ⟨existing, hexisting, h⟩ := except_bind_eq_ok.mp h
  have hsummary : session.summary session_id = existing := by
    unfold StoredSession.summary
    rw [stateKey_of_load hload, hexisting]
    rfl
  dsimp only at h
  split_ifs at h with hcurrent hupper
  · cases h
    refine .inl ⟨⟨_, rfl⟩, not_le.mp hepoch, ?_, rfl⟩
    unfold StoredSession.epoch
    rw [hsummary]
    exact hcurrent
  · cases h
    refine .inr ⟨rfl, not_le.mp hepoch, ?_, ?_, _, stateKey_of_load hload, rfl⟩
    · unfold StoredSession.epoch
      rw [hsummary]
      exact not_not.mp hcurrent
    · unfold StoredSession.upperSequence
      rw [hsummary]
      exact not_lt.mp hupper

/-- A word is read back. -/
theorem asU64_natCast {n : ℕ} (h : n < 2^64) : Value.asU64 (.number (n : ℕ)) = some n :=
  if_pos ⟨Int.natCast_nonneg n, h⟩

theorem readSummaryField_ok {α : Type} {fields : List (String × Value)} {field_name kind : String}
    {read : Value → Option α} {value : Value} {a : α}
    (hfield : fields.lookup field_name = some value) (hread : read value = some a) :
    readSummaryField session_id fields field_name kind read = .ok a := by
  unfold readSummaryField
  rw [hfield]
  dsimp only
  rw [hread]

/-- The summary that was written is the one that is read. -/
theorem readSummaryState_value (session_id : String) (request : SummaryWriteRequest) :
    ∃ stored, readSummaryState session_id (some request.value) = .ok (some stored) ∧
      stored.toMemorySummaryState = request.state := by
  refine ⟨⟨request.state, (some (request.metadata.getD .null)).filter (· ≠ .null)⟩, ?_, rfl⟩
  unfold readSummaryState SummaryWriteRequest.value
  dsimp only
  rw [readSummaryField_ok rfl (asU64_natCast request.next_epoch_lt),
    readSummaryField_ok rfl (asU64_natCast request.upper_sequence_lt),
    readSummaryField_ok (a := request.summary) rfl rfl]
  rfl

/-- An applied write stores its summary, under its own key only. -/
theorem withFields_value (session_id : String) {fields : List (String × Value)}
    (hfields : ∀ key, session.stateKey key = fields.lookup key)
    (h : session' = session.withFields (Fields.insert "summary_state" request.value fields)) :
    (session'.summary session_id).map (·.toMemorySummaryState) = some request.state ∧
      ∀ key, key ≠ "summary_state" → session'.stateKey key = session.stateKey key := by
  obtain ⟨stored, hread, hstored⟩ := readSummaryState_value session_id request
  have hsummary : session'.summary session_id = some stored := by
    unfold StoredSession.summary
    rw [h, stateKey_withFields, Fields.lookup_insert, if_pos rfl, hread]
    rfl
  constructor
  · rw [hsummary, Option.map_some, hstored]
  · intro key hkey
    rw [h, stateKey_withFields, Fields.lookup_insert, if_neg hkey, hfields]

/-- The epoch and the upper sequence are those of the summary. -/
theorem epoch_of_summary {state : MemorySummaryState}
    (h : (session.summary session_id).map (·.toMemorySummaryState) = some state) :
    session.epoch session_id = state.epoch ∧
      session.upperSequence session_id = state.upper_sequence := by
  obtain ⟨stored, hstored, rfl⟩ := Option.map_eq_some_iff.mp h
  constructor
  · rw [StoredSession.epoch, hstored, Option.elim_some]
  · rw [StoredSession.upperSequence, hstored, Option.elim_some]

/-! ## The memory of the runtime -/

/-- The memory that the runtime works on has the summary of the document. -/
def ViewedAs (session_id : String) (session : StoredSession) (memory : SessionMemory) : Prop :=
  memory.summary_state = (session.summary session_id).map (·.toMemorySummaryState)

/-- What a write does to a memory that works, by the epoch and the upper sequence that it finds. -/
theorem memory_writeSummaryState {memory : SessionMemory} (hfaults : memory.faults = [])
    {expected_epoch : ℕ} {state : MemorySummaryState} (hlt : expected_epoch < state.epoch) :
    (memory.summary_state.elim 0 (·.epoch) ≠ expected_epoch →
      SessionMemory.writeSummaryState expected_epoch state memory = .ok false memory) ∧
    (memory.summary_state.elim 0 (·.epoch) = expected_epoch →
      memory.summary_state.elim 0 (·.upper_sequence) ≤ state.upper_sequence →
      SessionMemory.writeSummaryState expected_epoch state memory =
        .ok true { memory with summary_state := some state }) := by
  have hget : (get : MemoryM SessionMemory) memory = .ok memory memory := rfl
  have hworks : SessionMemory.nextFault memory = .ok () memory := by
    rw [SessionMemory.nextFault, bind_ok hget, hfaults]
    rfl
  rw [SessionMemory.writeSummaryState, if_neg (not_le.mpr hlt), bind_ok hworks, bind_ok hget]
  cases memory.summary_state with
  | none =>
    rw [Option.elim_none, Option.elim_none]
    refine ⟨fun hne => ?_, fun heq _ => ?_⟩
    · rw [if_neg fun h => hne h.symm]
      rfl
    · rw [if_pos heq.symm]
      rfl
  | some existing =>
    dsimp only [Option.elim_some]
    refine ⟨fun hne => ?_, fun heq hle => ?_⟩
    · rw [if_pos hne]
      rfl
    · rw [if_neg (not_not.mpr heq), if_neg (not_lt.mpr hle)]
      rfl

/-- A write that does not fail does to the memory of the runtime what it does to the document. -/
theorem writeSummaryState_refines {memory : SessionMemory}
    (hview : ViewedAs session_id session memory) (hfaults : memory.faults = []) {applied : Bool}
    {epoch : ℕ}
    (h : writeSummaryState session_id request session = .ok (.summary applied epoch, session')) :
    ∃ memory', SessionMemory.writeSummaryState request.expected_epoch request.state memory =
        .ok applied memory' ∧ ViewedAs session_id session' memory' := by
  have hepoch : memory.summary_state.elim 0 (·.epoch) = session.epoch session_id := by
    rw [hview, StoredSession.epoch]
    cases session.summary session_id <;> rfl
  have hupper : memory.summary_state.elim 0 (·.upper_sequence) =
      session.upperSequence session_id := by
    rw [hview, StoredSession.upperSequence]
    cases session.summary session_id <;> rfl
  obtain ⟨⟨_, hresult⟩, hlt, hstale, rfl⟩ |
    ⟨hresult, hlt, hexpected, hmonotonic, fields, hfields, hwrote⟩ := writeSummaryState_cases h
  · obtain ⟨rfl, -⟩ := SessionResult.summary.inj hresult
    exact ⟨memory, (memory_writeSummaryState hfaults hlt).1 (hepoch.trans_ne hstale), hview⟩
  · obtain ⟨rfl, -⟩ := SessionResult.summary.inj hresult
    refine ⟨_, (memory_writeSummaryState hfaults hlt).2 (hepoch.trans hexpected)
      (hupper.trans_le hmonotonic), ?_⟩
    exact (withFields_value session_id hfields hwrote).1.symm

/-! ## All sequences of operations -/

variable {s t : SessionHistory} {op : SessionOp} {fault : Option MemoryError}

/-- All that a transaction can do to a session and its applied writes. -/
inductive SessionEffect (session_id : String) (s : SessionHistory) (op : SessionOp)
    (t : SessionHistory) : Prop
  | kept (hsummary : t.session.stateKey "summary_state" = s.session.stateKey "summary_state")
    (hkeys : ∀ key, key ≠ op.key → t.session.stateKey key = s.session.stateKey key)
    (happlied : t.applied = s.applied)
  | wrote (request : SummaryWriteRequest) (hop : op = .writeSummaryState request)
    (hlt : request.expected_epoch < request.next_epoch)
    (hexpected : s.session.epoch session_id = request.expected_epoch)
    (hmonotonic : s.session.upperSequence session_id ≤ request.upper_sequence)
    (hepoch : t.session.epoch session_id = request.next_epoch)
    (hupper : t.session.upperSequence session_id = request.upper_sequence)
    (hkeys : ∀ key, key ≠ op.key → t.session.stateKey key = s.session.stateKey key)
    (happlied : t.applied = request :: s.applied)

/-- Every transaction is one of these. -/
theorem transactionStep_effect (h : transactionStep encode session_id s (op, fault) = some t) :
    SessionEffect session_id s op t := by
  unfold transactionStep at h
  split at h
  · next result session _ hrun =>
    cases h
    have hother : ∀ key', key' ≠ "summary_state" → op.key = key' →
        (∀ key, key ≠ key' → session.stateKey key = s.session.stateKey key) →
        op.appliedWrite result = [] →
        SessionEffect session_id s op ⟨session, op.appliedWrite result ++ s.applied⟩ := by
      rintro key' hne rfl hkeys hnone
      exact .kept (hkeys _ hne.symm) hkeys (by rw [hnone, nil_append])
    cases op with
    | store sequence payload =>
      exact hother "last_sequence" (by decide) rfl (fun _ => storeEvent_keeps hrun) rfl
    | writeScratchpad items now =>
      exact hother scratchpadStateKey (by decide) rfl (fun _ => writeScratchpad_keeps hrun) rfl
    | clearScratchpad =>
      exact hother scratchpadStateKey (by decide) rfl (fun _ => clearScratchpad_keeps hrun) rfl
    | writeSummaryState request =>
      obtain ⟨⟨_, rfl⟩, -, -, rfl⟩ | ⟨rfl, hlt, hexpected, hmonotonic, fields, hfields, hwrote⟩ :=
        writeSummaryState_cases hrun
      · exact .kept rfl (fun _ _ => rfl) rfl
      · obtain ⟨hsummary, hkeys⟩ := withFields_value session_id hfields hwrote
        obtain ⟨hepoch, hupper⟩ := epoch_of_summary hsummary
        exact .wrote request rfl hlt hexpected hmonotonic hepoch hupper hkeys rfl
  · cases h
    exact .kept rfl (fun _ _ => rfl) rfl

/-- A document with the same summary has the same epoch and upper sequence. -/
theorem summary_congr (session_id : String)
    (h : t.session.stateKey "summary_state" = s.session.stateKey "summary_state") :
    t.session.epoch session_id = s.session.epoch session_id ∧
      t.session.upperSequence session_id = s.session.upperSequence session_id := by
  unfold StoredSession.epoch StoredSession.upperSequence StoredSession.summary
  rw [h]
  exact ⟨rfl, rfl⟩

/-- The expected epochs of the applied writes are behind, and different from each other. -/
structure AppliedOnce (session_id : String) (s : SessionHistory) : Prop where
  behind : ∀ request ∈ s.applied, request.expected_epoch < s.session.epoch session_id
  once : (s.applied.map SummaryWriteRequest.expected_epoch).Nodup

theorem appliedOnce_step (hinv : AppliedOnce session_id s) (h : SessionEffect session_id s op t) :
    AppliedOnce session_id t := by
  cases h with
  | kept hsummary _ happlied =>
    constructor
    · rw [happlied, (summary_congr session_id hsummary).1]
      exact hinv.behind
    · rw [happlied]
      exact hinv.once
  | wrote request _ hlt hexpected _ hepoch _ _ happlied =>
    constructor
    · rw [happlied, hepoch]
      intro old hold
      obtain rfl | hold := mem_cons.mp hold
      · exact hlt
      · exact (hinv.behind old hold).trans (hexpected ▸ hlt)
    · rw [happlied, map_cons, nodup_cons]
      refine ⟨fun hmem => ?_, hinv.once⟩
      -- the epoch has passed every expected one
      obtain ⟨old, hold, hsame⟩ := mem_map.mp hmem
      have hbehind := hinv.behind old hold
      omega

theorem applied_once (h : (transactionSystem encode session_id).Reach s) :
    AppliedOnce session_id s := by
  have hinit : ∀ s : SessionHistory, s.applied = [] → AppliedOnce session_id s := by
    intro s hnone
    constructor
    · rw [hnone]
      nofun
    · rw [hnone]
      exact nodup_nil
  exact h.invariant hinit fun s ⟨op, fault⟩ t hinv _ hst =>
    appliedOnce_step hinv (transactionStep_effect hst)

/-- In every sequence of operations on a session, the stored epoch and the upper sequence never
decrease, an applied write of a summary finds the epoch that it expects and raises it, no two of
them expect the same, and no operation changes a key other than its own. -/
theorem session_state_kept (h : (transactionSystem encode session_id).Reach s)
    (hst : (transactionSystem encode session_id).step s (op, fault) t) :
    s.session.epoch session_id ≤ t.session.epoch session_id ∧
    (∀ request, t.applied = request :: s.applied →
      s.session.epoch session_id = request.expected_epoch ∧
      t.session.epoch session_id = request.next_epoch ∧
      s.session.epoch session_id < t.session.epoch session_id) ∧
    (t.applied.map SummaryWriteRequest.expected_epoch).Nodup ∧
    s.session.upperSequence session_id ≤ t.session.upperSequence session_id ∧
    ∀ key, key ≠ op.key → t.session.stateKey key = s.session.stateKey key := by
  have heffect := transactionStep_effect hst
  have honce := (appliedOnce_step (applied_once h) heffect).once
  cases heffect with
  | kept hsummary hkeys happlied =>
    obtain ⟨hepoch, hupper⟩ := summary_congr session_id hsummary
    refine ⟨hepoch.ge, fun request hcons => ?_, honce, hupper.ge, hkeys⟩
    rw [happlied] at hcons
    exact absurd hcons.symm (cons_ne_self _ _)
  | wrote request _ hlt hexpected hmonotonic hepoch hupper hkeys happlied =>
    refine ⟨by omega, fun request' hcons => ?_, honce, by omega, hkeys⟩
    rw [happlied] at hcons
    obtain ⟨rfl, -⟩ := List.cons.inj hcons
    exact ⟨hexpected, hepoch, by omega⟩

end

/-! ## A session -/

/-- The text of the one scratchpad that is written below. -/
def milkText (_ : Value) : String :=
  "\x7b\"items\":[\"milk\"],\"schema_version\":1,\"updated_at\":\"2026-03-01T09:00:00+00:00\"\x7d"

/-- A message, a summary, a scratchpad, and a write of a summary that comes too late. -/
def lateSummary : List (SessionOp × Option MemoryError) :=
  [(.store 1 (.string "hello"), none),
    (.writeSummaryState
      { expected_epoch := 0, next_epoch := 1, upper_sequence := 1, summary := "greeting" }, none),
    (.writeScratchpad ["milk "] "2026-03-01T09:00:00+00:00", none),
    (.writeSummaryState
      { expected_epoch := 0, next_epoch := 1, upper_sequence := 1, summary := "late" }, none)]

/-- The summary of the second epoch. -/
def secondSummary : SummaryWriteRequest :=
  { expected_epoch := 1, next_epoch := 2, upper_sequence := 3, summary := "greeting and milk" }

/-- The late write is not applied, and the next one is; the scratchpad stays. -/
theorem secondSummary_kept : ∃ s t, (transactionSystem milkText "s1").Reach s ∧
    (transactionSystem milkText "s1").step s (.writeSummaryState secondSummary, none) t ∧
    t.applied.map SummaryWriteRequest.expected_epoch = [1, 0] ∧
    s.session.epoch "s1" < t.session.epoch "s1" ∧
    t.session.stateKey scratchpadStateKey = s.session.stateKey scratchpadStateKey ∧
    (s.session.stateKey scratchpadStateKey).isSome := by
  obtain ⟨s, hs, t, ht, happlied, hcons, hpad⟩ :
      ∃ s ∈ exec (fun _ _ => True) (transactionStep milkText "s1") ⟨{}, []⟩ lateSummary,
      ∃ t ∈ transactionStep milkText "s1" s (.writeSummaryState secondSummary, none),
        t.applied.map SummaryWriteRequest.expected_epoch = [1, 0] ∧
        t.applied = secondSummary :: s.applied ∧
        (s.session.stateKey scratchpadStateKey).isSome := by
    decide
  have hinit : (transactionSystem milkText "s1").init ⟨{}, []⟩ := rfl
  have hreach : (transactionSystem milkText "s1").Reach s := reachWithin_exec (.init hinit) hs
  obtain ⟨-, hraised, -, -, hkeys⟩ := session_state_kept hreach ht
  exact ⟨s, t, hreach, ht, happlied, (hraised secondSummary hcons).2.2,
    hkeys scratchpadStateKey (by decide), hpad⟩

end Oxydra
