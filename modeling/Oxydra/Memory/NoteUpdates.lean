import Oxydra.Memory.NoteInterleaving
import Oxydra.Scheduler.ScheduleTools

/-!
# Updating a note

`MemoryUpdateTool::execute` of `crates/tools/src/memory_tools.rs` over `delete_note` and
`store_note` of `crates/memory/src/lib.rs`, with what the metadata of a chunk says of its note. The
update is two transactions: the old note is deleted, and then the new one is stored under its id. A
call fails where its connection, its embedding, one of its statements, or its commit does, and a
transaction that fails is rolled back.

`NoteIndex.store_spec` says what a transaction that stores a note makes of the chunks, and
`memoryUpdate_atomic_iff` on what input an update replaces the note or leaves it.
-/

namespace Oxydra

open Function List

/-! ## Metadata -/

/-- What the metadata of a chunk says of its note. -/
structure NoteMetadata where
  source : String
  tags : List String
  created_at : String
  updated_at : String
  deriving DecidableEq, Repr

/-- `NOTE_TAG_MAX_COUNT`. -/
def noteTagMaxCount : ℕ := 16

/-- `NOTE_TAG_MAX_CHARS`. -/
def noteTagMaxChars : ℕ := 64

/-- `normalize_note_source`. -/
def normalizeNoteSource (source : Option String) : String :=
  match (source.map Text.trim).filter (· ≠ "") with
  | some value => value
  | none => "memory_save"

/-- The loop of `normalize_note_tags`, with the tags so far. -/
def normalizeTagsFrom (to_lowercase : String → String) (normalized : List String) :
    List String → List String
  | [] => normalized
  | raw_tag :: rest =>
    if noteTagMaxCount ≤ normalized.length then normalized
    else
      let trimmed := Text.trim raw_tag
      let bounded := String.ofList ((to_lowercase trimmed).toList.take noteTagMaxChars)
      if trimmed = "" ∨ bounded = "" ∨ bounded ∈ normalized then
        normalizeTagsFrom to_lowercase normalized rest
      else normalizeTagsFrom to_lowercase (normalized ++ [bounded]) rest

/-- `normalize_note_tags`. -/
def normalizeNoteTags (to_lowercase : String → String) (tags : Option (List String)) :
    List String :=
  normalizeTagsFrom to_lowercase [] (tags.getD [])

/-! ## Transactions -/

/-- The tables of a session, and the metadata of the chunk with each id. -/
structure NoteIndex where
  tables : NoteTables := {}
  metadata : String → NoteMetadata := fun _ => ⟨"", [], "", ""⟩

namespace NoteIndex

variable (hash : String → String) (session_id : String)

/-- One chunk of `index_prepared_document`: a chunk that is there has its metadata replaced. -/
def indexChunk (file_id : ℕ) (metadata : NoteMetadata) (index : NoteIndex)
    (chunk : PreparedChunk) : Except MemoryError NoteIndex := do
  let existing := index.tables.findExistingChunkId chunk.content_hash chunk.note_id
  let tables ← NoteTables.indexChunk file_id index.tables chunk
  return ⟨tables, update index.metadata (existing.getD chunk.chunk_id) metadata⟩

/-- The transaction of `store_note`. -/
def storeTransaction (index : NoteIndex) (sequence : ℕ) (note_id content : String)
    (metadata : NoteMetadata) : Except MemoryError NoteIndex :=
  if sequence ∈ index.tables.events.map (·.sequence) then
    .error (uniqueViolation "conversation_events.session_id, conversation_events.sequence")
  else
    let tables :=
      { index.tables with events := index.tables.events ++ [⟨sequence, note_id, content⟩] }
    match noteChunks content with
    | [] => .ok ⟨tables, index.metadata⟩
    | texts =>
      let (file_id, tables) := tables.upsertIndexFile
        ("conversation://" ++ session_id ++ "/user_message") (hash (noteText content))
      (prepareChunks hash session_id sequence note_id 0 texts).foldlM
        (indexChunk file_id metadata) ⟨tables, index.metadata⟩

end NoteIndex

/-- What fails in the calls of an update, beside what their arguments and the tables decide. -/
structure UpdateFaults where
  /-- In `delete_note`: its connection, a statement, or the commit. -/
  delete_note : Option MemoryError := none
  /-- In `store_note`: its connection, or the read of the sequence number. -/
  connect : Option MemoryError := none
  /-- In `store_note`: the embedding of the chunks. -/
  embed_batch : Option MemoryError := none
  /-- In `store_note`: a statement of its transaction, or the commit. -/
  transaction : Option MemoryError := none

/-- The failure, where there is one. -/
def failIf : Option MemoryError → Except MemoryError Unit
  | some error => .error error
  | none => .ok ()

structure MemoryNoteStoreRequest where
  session_id : String
  note_id : String
  content : String
  source : Option String
  tags : Option (List String)

/-- The metadata of a note that is stored. -/
def MemoryNoteStoreRequest.metadata (to_lowercase : String → String) (now : String)
    (request : MemoryNoteStoreRequest) : NoteMetadata :=
  ⟨normalizeNoteSource request.source, normalizeNoteTags to_lowercase request.tags, now, now⟩

section

variable (hash to_lowercase : String → String) (faults : UpdateFaults) (now : String)

/-- `delete_note`. -/
def deleteNote (index : NoteIndex) (note_id : String) : Except MemoryError Bool × NoteIndex :=
  match faults.delete_note with
  | some error => (.error error, index)
  | none =>
    let (found, tables) := index.tables.deleteTransaction note_id
    (.ok found, { index with tables })

/-- `store_note`. -/
def storeNote (index : NoteIndex) (request : MemoryNoteStoreRequest) :
    Except MemoryError NoteIndex := do
  checkNote request.session_id request.note_id request.content
  failIf faults.connect
  let next_sequence := index.tables.nextEventSequence
  if 2^63 ≤ next_sequence then
    throw (.query "note sequence exceeds sqlite integer range")
  failIf faults.embed_batch
  failIf faults.transaction
  index.storeTransaction hash request.session_id next_sequence request.note_id request.content
    (request.metadata to_lowercase now)

/-! ## The tool -/

/-- `user_memory_session_id`. -/
def userMemorySessionId (user_id : String) : String := "memory:" ++ user_id

/-- `MEMORY_UPDATE_TOOL_NAME`. -/
def memoryUpdateToolName : String := "memory_update"

structure MemoryUpdateArgs where
  note_id : String
  content : String
  tags : Option (List String) := none

/-- The note that an update stores. -/
def MemoryUpdateArgs.storeRequest (request : MemoryUpdateArgs) (user_id : String) :
    MemoryNoteStoreRequest :=
  ⟨userMemorySessionId user_id, request.note_id, request.content, some memoryUpdateToolName,
    request.tags⟩

/-- `MemoryUpdateTool::execute`, on the notes of all sessions, with what its arguments parse to. -/
def memoryUpdate (memory : String → NoteIndex) (args : Except String MemoryUpdateArgs)
    (user_id : Option String) : Except ToolError Value × (String → NoteIndex) :=
  match args with
  | .error message => (.error (.invalidArguments memoryUpdateToolName message), memory)
  | .ok request =>
    if Text.trim request.content = "" then
      (.error (.invalidArguments memoryUpdateToolName "content must not be empty"), memory)
    else
      match resolveUserId user_id memoryUpdateToolName with
      | .error error => (.error error, memory)
      | .ok user_id =>
        let memory_session := userMemorySessionId user_id
        -- the old note is deleted first
        match deleteNote faults (memory memory_session) request.note_id with
        | (.error error, _) =>
          (.error (executionFailed memoryUpdateToolName
            ("failed to delete old note: " ++ error.display)), memory)
        | (.ok false, index) =>
          (.error (executionFailed memoryUpdateToolName
            ("note `" ++ request.note_id ++ "` not found")),
            update memory memory_session index)
        | (.ok true, index) =>
          match storeNote hash to_lowercase faults now index (request.storeRequest user_id) with
          | .error error =>
            -- nothing brings the old note back
            (.error (executionFailed memoryUpdateToolName
              ("failed to store updated note: " ++ error.display)),
              update memory memory_session index)
          | .ok index =>
            (.ok (.object [("message", .string "Note updated successfully."),
              ("note_id", .string request.note_id)]),
              update memory memory_session index)

end

/-! ## What the transactions do -/

namespace NoteTables

variable {tables : NoteTables} {hash : String → String} {session_id : String}

/-- A chunk that is touched leaves the rows of other notes alone. -/
theorem WellFormed.mem_touch_of_ne (h : tables.WellFormed hash session_id) {touched row : ChunkRow}
    (htouched : touched ∈ tables.chunks) (hne : row.note_id ≠ touched.note_id) (sequence : ℕ) :
    row ∈ (tables.touchExistingChunk touched.chunk_id sequence).chunks ↔ row ∈ tables.chunks := by
  have hsame : ∀ old ∈ tables.chunks, old.note_id ≠ touched.note_id →
      old.touch touched.chunk_id sequence = old := by
    intro old hold hnote
    have hid : old.chunk_id ≠ touched.chunk_id := fun hid =>
      hnote (by rw [inj_on_of_nodup_map h.distinct hold htouched hid])
    rw [ChunkRow.touch, if_neg hid]
  constructor
  · intro hrow
    obtain ⟨old, hold, rfl⟩ := mem_map.1 hrow
    rwa [hsame old hold (by simpa using hne)]
  · exact fun hrow => mem_map.2 ⟨row, hrow, hsame row hrow hne⟩

/-- The rows of the chunks after an insertion. -/
theorem mem_insertChunk {file_id : ℕ} {chunk : PreparedChunk} {row : ChunkRow} :
    row ∈ (tables.insertChunk file_id chunk).chunks ↔ row ∈ tables.chunks ∨
      row = ⟨chunk.chunk_id, file_id, chunk.sequence, chunk.sequence, chunk.chunk_text,
        chunk.note_id, chunk.content_hash⟩ := by
  simp [insertChunk]

end NoteTables

namespace NoteIndex

/-- What holds after the chunks of some texts were written for a note that had none: the rows of
other notes are as before, and those of the note have the texts and the metadata, one for each hash
of a text. -/
structure Written (hash : String → String) (session_id : String) (before after : NoteIndex)
    (sequence : ℕ) (note_id : String) (metadata : NoteMetadata) (texts : List String) : Prop where
  indexing : after.tables.Indexing hash session_id sequence note_id texts.length
  events : after.tables.events = before.tables.events
  others : ∀ row, row.note_id ≠ note_id →
    (row ∈ after.tables.chunks ↔ row ∈ before.tables.chunks)
  kept : ∀ row ∈ after.tables.chunks, row.note_id ≠ note_id →
    after.metadata row.chunk_id = before.metadata row.chunk_id
  own : ∀ row ∈ after.tables.chunks, row.note_id = note_id →
    row.chunk_text ∈ texts ∧ after.metadata row.chunk_id = metadata
  covered : ∀ text ∈ texts, ∃ row ∈ after.tables.chunks, row.note_id = note_id ∧
    row.content_hash = hash text
  sole : ∀ row ∈ after.tables.chunks, ∀ other ∈ after.tables.chunks, row.note_id = note_id →
    other.note_id = note_id → row.content_hash = other.content_hash →
      row.chunk_text = other.chunk_text

variable {hash : String → String} {session_id : String} {before index : NoteIndex} {sequence : ℕ}
  {note_id : String} {metadata : NoteMetadata} {texts : List String}

/-- One more chunk is written. -/
theorem Written.indexChunk (h : Written hash session_id before index sequence note_id metadata texts)
    (file_id : ℕ) (text : String) :
    ∃ next, index.indexChunk file_id metadata
        ⟨chunkId session_id sequence texts.length (hash text), text, hash text, note_id,
          sequence⟩ = .ok next ∧
      Written hash session_id before next sequence note_id metadata (texts ++ [text]) := by
  have hlength : (texts ++ [text]).length = texts.length + 1 := by simp
  unfold NoteIndex.indexChunk
  obtain ⟨row, hrow, hhash, hnote, hfind, hok, hindexing⟩ |
      ⟨hother, hnew, hfind, hok, hindexing⟩ := h.indexing.indexChunk_cases file_id text
  · -- the note has a chunk with this hash, which is touched and gets the metadata
    refine ⟨⟨index.tables.touchExistingChunk row.chunk_id sequence,
      update index.metadata row.chunk_id metadata⟩, by rw [hok, hfind]; rfl,
      hlength ▸ hindexing, h.events, ?_, ?_, ?_, ?_, ?_⟩
    · intro r hr
      rw [h.indexing.wellFormed.mem_touch_of_ne hrow (hnote.symm ▸ hr), h.others r hr]
    · intro r hr hne
      have hold := (h.indexing.wellFormed.mem_touch_of_ne hrow (hnote.symm ▸ hne) _).1 hr
      have hid : r.chunk_id ≠ row.chunk_id := fun hid =>
        hne (by rw [inj_on_of_nodup_map h.indexing.wellFormed.distinct hold hrow hid, hnote])
      exact (update_of_ne hid ..).trans (h.kept r hold hne)
    · intro r hr hown
      obtain ⟨old, hold, rfl⟩ := mem_map.1 hr
      obtain ⟨htext, hmeta⟩ := h.own old hold (by simpa using hown)
      refine ⟨mem_append_left _ (by simpa using htext), ?_⟩
      rw [ChunkRow.touch_chunk_id]
      by_cases hid : old.chunk_id = row.chunk_id
      · rw [hid]
        exact update_self ..
      · exact (update_of_ne hid ..).trans hmeta
    · intro t ht
      rcases mem_append.1 ht with hold | hadded
      · obtain ⟨r, hr, hown, hsame⟩ := h.covered t hold
        exact ⟨_, mem_map_of_mem hr, by simpa using hown, by simpa using hsame⟩
      · rw [mem_singleton.1 hadded]
        exact ⟨_, mem_map_of_mem hrow, by simpa using hnote, by simpa using hhash⟩
    · intro r hr r' hr' hown hown' hsame
      obtain ⟨old, hold, rfl⟩ := mem_map.1 hr
      obtain ⟨old', hold', rfl⟩ := mem_map.1 hr'
      simp only [ChunkRow.touch_note_id, ChunkRow.touch_content_hash,
        ChunkRow.touch_chunk_text] at *
      exact h.sole old hold old' hold' hown hown' hsame
  · -- the chunk has a row of its own
    refine ⟨⟨index.tables.insertChunk file_id _, update index.metadata
      (chunkId session_id sequence texts.length (hash text)) metadata⟩, by rw [hok, hfind]; rfl,
      hlength ▸ hindexing, h.events, ?_, ?_, ?_, ?_, ?_⟩
    · intro r hr
      rw [NoteTables.mem_insertChunk, h.others r hr]
      refine or_iff_left ?_
      rintro rfl
      exact hr rfl
    · intro r hr hne
      rcases NoteTables.mem_insertChunk.1 hr with hold | rfl
      · have hid : r.chunk_id ≠ chunkId session_id sequence texts.length (hash text) := fun hid =>
          hnew (hid ▸ mem_map_of_mem hold)
        exact (update_of_ne hid ..).trans (h.kept r hold hne)
      · exact absurd rfl hne
    · intro r hr hown
      rcases NoteTables.mem_insertChunk.1 hr with hold | rfl
      · obtain ⟨htext, hmeta⟩ := h.own r hold hown
        have hid : r.chunk_id ≠ chunkId session_id sequence texts.length (hash text) := fun hid =>
          hnew (hid ▸ mem_map_of_mem hold)
        exact ⟨mem_append_left _ htext, (update_of_ne hid ..).trans hmeta⟩
      · exact ⟨by simp, update_self ..⟩
    · intro t ht
      rcases mem_append.1 ht with hold | hadded
      · obtain ⟨r, hr, hown, hsame⟩ := h.covered t hold
        exact ⟨r, NoteTables.mem_insertChunk.2 (.inl hr), hown, hsame⟩
      · rw [mem_singleton.1 hadded]
        exact ⟨_, NoteTables.mem_insertChunk.2 (.inr rfl), rfl, rfl⟩
    · intro r hr r' hr' hown hown' hsame
      rcases NoteTables.mem_insertChunk.1 hr with hold | rfl
      · rcases NoteTables.mem_insertChunk.1 hr' with hold' | rfl
        · exact h.sole r hold r' hold' hown hown' hsame
        · exact absurd hsame (hother r hold hown)
      · rcases NoteTables.mem_insertChunk.1 hr' with hold' | rfl
        · exact absurd hsame.symm (hother r' hold' hown')
        · rfl

/-- The chunks of a note are written one after the other. -/
theorem Written.indexChunks {texts : List String}
    (h : Written hash session_id before index sequence note_id metadata texts) (file_id : ℕ)
    (rest : List String) :
    ∃ after, (prepareChunks hash session_id sequence note_id texts.length rest).foldlM
        (NoteIndex.indexChunk file_id metadata) index = .ok after ∧
      Written hash session_id before after sequence note_id metadata (texts ++ rest) := by
  induction rest generalizing index texts with
  | nil => exact ⟨index, rfl, by rwa [append_nil]⟩
  | cons text rest ih =>
    obtain ⟨next, hnext, hwritten⟩ := h.indexChunk file_id text
    obtain ⟨after, hafter, hall⟩ := ih hwritten
    refine ⟨after, ?_, by rwa [append_assoc] at hall⟩
    rw [prepareChunks, foldlM_cons, hnext]
    rwa [length_append, length_singleton] at hafter

/-! ## What can be told of a note -/

/-- What a search can find of a note: a text, and the metadata of its chunk. -/
def Holds (index : NoteIndex) (note_id text : String) (metadata : NoteMetadata) : Prop :=
  ∃ row ∈ index.tables.chunks, row.note_id = note_id ∧ row.chunk_text = text ∧
    row.chunk_id ∈ index.tables.chunks_vec ∧ (row.chunk_id, text) ∈ index.tables.chunks_fts ∧
      index.metadata row.chunk_id = metadata

/-- A content that is recorded for a note. -/
def Records (index : NoteIndex) (note_id content : String) : Prop :=
  ∃ event ∈ index.tables.events, event.note_id = note_id ∧ event.content = content

/-- A note is found and recorded as before, with its metadata. -/
def SameNote (before after : NoteIndex) (note_id : String) : Prop :=
  (∀ text metadata, after.Holds note_id text metadata ↔ before.Holds note_id text metadata) ∧
    ∀ content, after.Records note_id content ↔ before.Records note_id content

/-- A note is found and recorded with a new content and new metadata, and all others as before. -/
def ReplacesNote (before after : NoteIndex) (note_id content : String) (metadata : NoteMetadata) :
    Prop :=
  (∀ text m, after.Holds note_id text m ↔ text ∈ noteChunks content ∧ m = metadata) ∧
    (∀ c, after.Records note_id c ↔ c = content) ∧
    ∀ other, other ≠ note_id → SameNote before after other

theorem SameNote.refl (index : NoteIndex) (note_id : String) : SameNote index index note_id :=
  ⟨fun _ _ => Iff.rfl, fun _ => Iff.rfl⟩

theorem SameNote.symm {after : NoteIndex} (h : SameNote before after note_id) :
    SameNote after before note_id :=
  ⟨fun text metadata => (h.1 text metadata).symm, fun content => (h.2 content).symm⟩

theorem SameNote.trans {between after : NoteIndex} (h : SameNote before between note_id)
    (h' : SameNote between after note_id) : SameNote before after note_id :=
  ⟨fun text metadata => (h'.1 text metadata).trans (h.1 text metadata),
    fun content => (h'.2 content).trans (h.2 content)⟩

/-- In well formed tables every chunk is found. -/
theorem holds_iff (h : index.tables.WellFormed hash session_id) {text : String} {m : NoteMetadata} :
    index.Holds note_id text m ↔ ∃ row ∈ index.tables.chunks, row.note_id = note_id ∧
      row.chunk_text = text ∧ index.metadata row.chunk_id = m := by
  constructor
  · rintro ⟨row, hrow, hnote, htext, -, -, hmeta⟩
    exact ⟨row, hrow, hnote, htext, hmeta⟩
  · rintro ⟨row, hrow, hnote, htext, hmeta⟩
    exact ⟨row, hrow, hnote, htext, h.embedded row hrow, htext ▸ h.indexed row hrow, hmeta⟩

/-- No two chunks of a content have the same hash. -/
def DistinctHashes (hash : String → String) (content : String) : Prop :=
  ∀ a ∈ noteChunks content, ∀ b ∈ noteChunks content, hash a = hash b → a = b

/-! ## Storing -/

/-- A note that nothing is there of is stored with a number that no event has. -/
theorem storeTransaction_written (h : index.tables.WellFormed hash session_id)
    (hfree : sequence ∉ index.tables.events.map (·.sequence))
    (hnone : ∀ row ∈ index.tables.chunks, row.note_id ≠ note_id) (content : String)
    (metadata : NoteMetadata) :
    ∃ files after, index.storeTransaction hash session_id sequence note_id content metadata =
        .ok after ∧
      Written hash session_id ⟨{ index.tables with
        events := index.tables.events ++ [⟨sequence, note_id, content⟩], files }, index.metadata⟩
        after sequence note_id metadata (noteChunks content) := by
  have hstart : ∀ files, Written hash session_id ⟨{ index.tables with
      events := index.tables.events ++ [⟨sequence, note_id, content⟩], files }, index.metadata⟩
      ⟨{ index.tables with
        events := index.tables.events ++ [⟨sequence, note_id, content⟩], files }, index.metadata⟩
      sequence note_id metadata [] := fun files =>
    { indexing := h.indexing hfree note_id content files
      events := rfl
      others := fun _ _ => Iff.rfl
      kept := fun _ _ _ => rfl
      own := fun row hrow hown => absurd hown (hnone row hrow)
      covered := by simp
      sole := fun row hrow _ _ hown => absurd hown (hnone row hrow) }
  unfold storeTransaction
  rw [if_neg hfree]
  dsimp only
  split
  · next hempty => exact ⟨index.tables.files, _, rfl, hempty ▸ hstart index.tables.files⟩
  · obtain ⟨file_id, files, hupsert⟩ := NoteTables.upsertIndexFile_eq
      { index.tables with events := index.tables.events ++ [⟨sequence, note_id, content⟩] }
      ("conversation://" ++ session_id ++ "/user_message") (hash (noteText content))
    rw [hupsert]
    obtain ⟨after, hafter, hwritten⟩ := (hstart files).indexChunks file_id (noteChunks content)
    rw [length_nil] at hafter
    rw [nil_append] at hwritten
    exact ⟨files, after, hafter, hwritten⟩

/-- A note that nothing is there of is stored: it is recorded, what is found of it has its metadata,
and all of its chunks are found exactly if their hashes are different. -/
theorem store_spec (h : index.tables.WellFormed hash session_id)
    (hfree : sequence ∉ index.tables.events.map (·.sequence))
    (hnone : ∀ row ∈ index.tables.chunks, row.note_id ≠ note_id)
    (hunrecorded : ∀ event ∈ index.tables.events, event.note_id ≠ note_id) (content : String)
    (metadata : NoteMetadata) :
    ∃ after, index.storeTransaction hash session_id sequence note_id content metadata = .ok after ∧
      after.tables.WellFormed hash session_id ∧
      (ReplacesNote index after note_id content metadata ↔ DistinctHashes hash content) := by
  obtain ⟨files, after, hafter, hwritten⟩ :=
    storeTransaction_written h hfree hnone content metadata
  have hwell := hwritten.indexing.wellFormed
  have hevents := hwritten.events
  refine ⟨after, hafter, hwell, ?_, ?_⟩
  · rintro ⟨hholds, -, -⟩ a ha b hb hsame
    obtain ⟨row, hrow, hnote, rfl, -⟩ := (holds_iff hwell).1 ((hholds a metadata).2 ⟨ha, rfl⟩)
    obtain ⟨other, hother, hnote', rfl, -⟩ := (holds_iff hwell).1 ((hholds b metadata).2 ⟨hb, rfl⟩)
    refine hwritten.sole row hrow other hother hnote hnote' ?_
    rw [hwell.hashed row hrow, hwell.hashed other hother, hsame]
  · intro hdistinct
    refine ⟨fun text m => ?_, fun c => ?_, fun other hother => ⟨fun text m => ?_, fun c => ?_⟩⟩
    · rw [holds_iff hwell]
      constructor
      · rintro ⟨row, hrow, hnote, rfl, rfl⟩
        exact hwritten.own row hrow hnote
      · rintro ⟨htext, rfl⟩
        obtain ⟨row, hrow, hnote, hhash⟩ := hwritten.covered text htext
        obtain ⟨htext', hmeta⟩ := hwritten.own row hrow hnote
        have hsame : hash row.chunk_text = hash text := by rw [← hwell.hashed row hrow, hhash]
        exact ⟨row, hrow, hnote, hdistinct _ htext' _ htext hsame, hmeta⟩
    · unfold Records
      rw [hevents]
      simp only [mem_append, mem_singleton, or_and_right, exists_or, exists_eq_left,
        true_and]
      refine (or_iff_right ?_).trans eq_comm
      rintro ⟨event, hevent, hnote, -⟩
      exact hunrecorded event hevent hnote
    · rw [holds_iff hwell, holds_iff h]
      constructor
      · rintro ⟨row, hrow, rfl, htext, hmeta⟩
        exact ⟨row, (hwritten.others row hother).1 hrow, rfl, htext,
          (hwritten.kept row hrow hother).symm.trans hmeta⟩
      · rintro ⟨row, hrow, rfl, htext, hmeta⟩
        have hrow' := (hwritten.others row hother).2 hrow
        exact ⟨row, hrow', rfl, htext, (hwritten.kept row hrow' hother).trans hmeta⟩
    · unfold Records
      rw [hevents]
      simp only [mem_append, mem_singleton, or_and_right, exists_or, exists_eq_left]
      exact or_iff_left fun hnew => hother hnew.1.symm

/-! ## Deleting -/

/-- A deletion leaves nothing of its note, and all others as they are. -/
theorem sameNote_deleted (h : index.tables.WellFormed hash session_id) {other : String}
    (hother : other ≠ note_id) :
    SameNote index { index with tables := (index.tables.deleteTransaction note_id).2 } other := by
  have hdeletes := h.deleteTransaction note_id
  refine ⟨fun text m => ?_, fun content => ?_⟩
  · rw [holds_iff (hdeletes.wellFormed h), holds_iff h, hdeletes.chunks]
    simp only [mem_filter, decide_eq_true_eq]
    constructor
    · rintro ⟨row, ⟨hrow, -⟩, hrest⟩
      exact ⟨row, hrow, hrest⟩
    · rintro ⟨row, hrow, rfl, hrest⟩
      exact ⟨row, ⟨hrow, hother⟩, rfl, hrest⟩
  · unfold Records
    rw [hdeletes.events]
    simp only [mem_filter, decide_eq_true_eq]
    constructor
    · rintro ⟨event, ⟨hevent, -⟩, hrest⟩
      exact ⟨event, hevent, hrest⟩
    · rintro ⟨event, hevent, rfl, hrest⟩
      exact ⟨event, ⟨hevent, hother⟩, rfl, hrest⟩

end NoteIndex

/-! ## The update -/

/-- The next sequence number fits where the number of each event has a successor that does. -/
theorem nextEventSequence_lt_iff {tables : NoteTables} {bound : ℕ} (hbound : 1 < bound) :
    tables.nextEventSequence < bound ↔ ∀ event ∈ tables.events, event.sequence + 1 < bound := by
  have hmem : ∀ event ∈ tables.events, event.sequence ∈ tables.events.map (·.sequence) :=
    fun event hevent => mem_map_of_mem hevent
  unfold NoteTables.nextEventSequence
  cases hmax : (tables.events.map (·.sequence)).max? with
  | none =>
    have hnil : tables.events = [] := map_eq_nil_iff.1 (List.max?_eq_none_iff.1 hmax)
    simpa [hnil] using hbound
  | some max_sequence =>
    have hle : ∀ event ∈ tables.events, event.sequence ≤ max_sequence :=
      fun event hevent => (List.max?_eq_some_iff.1 hmax).2 _ (hmem event hevent)
    obtain ⟨largest, hlargest, heq⟩ := mem_map.1 (List.max?_mem hmax)
    show max_sequence + 1 < bound ↔ _
    constructor
    · intro hlt event hevent
      have hev := hle event hevent
      omega
    · intro hall
      have hlt := hall largest hlargest
      omega

/-- The next sequence number is one that no event has. -/
theorem nextEventSequence_not_mem (tables : NoteTables) :
    tables.nextEventSequence ∉ tables.events.map (·.sequence) := by
  intro hmem
  obtain ⟨event, hevent, hsame⟩ := mem_map.1 hmem
  unfold NoteTables.nextEventSequence at hsame
  split at hsame
  · next hnone =>
    rw [map_eq_nil_iff.1 (List.max?_eq_none_iff.1 hnone)] at hevent
    exact not_mem_nil hevent
  · next max_sequence hmax =>
    have hle : event.sequence ≤ max_sequence :=
      (List.max?_eq_some_iff.1 hmax).2 _ (mem_map_of_mem hevent)
    omega

/-- The memory of notes, in which the tables of every session are well formed. -/
structure NoteMemory (hash : String → String) where
  index : String → NoteIndex
  wellFormed : ∀ session_id, (index session_id).tables.WellFormed hash session_id

/-- The session of a user's notes has a name. -/
theorem trim_userMemorySessionId (user_id : String) :
    Text.trim (userMemorySessionId user_id) ≠ "" := by
  have hvisible : Text.Visible "memory:".toList :=
    ⟨Text.visible_of_all (by decide), Text.visible_of_all (by decide)⟩
  have hinfix : "memory:".toList <:+: (userMemorySessionId user_id).toList := by
    unfold userMemorySessionId
    rw [String.toList_append]
    exact (prefix_append _ _).isInfix
  intro hempty
  have hlength := (Text.infix_trim hvisible hinfix).length_le
  rw [hempty] at hlength
  exact absurd hlength (by decide)

section

variable (hash to_lowercase : String → String) (faults : UpdateFaults) (now : String)

/-- Nothing stops the note of an update from being stored once the old note is deleted: it has an
id, nothing fails, its number is in the range of SQLite, and its chunks have different hashes. -/
structure Storable (tables : NoteTables) (request : MemoryUpdateArgs) : Prop where
  named : Text.trim request.note_id ≠ ""
  connect : faults.connect = none
  numbered : ∀ event ∈ tables.events, event.note_id ≠ request.note_id → event.sequence + 1 < 2^63
  embed_batch : faults.embed_batch = none
  transaction : faults.transaction = none
  distinct : NoteIndex.DistinctHashes hash request.content

/-- An update that returns an error leaves the note that it is about, and one that succeeds replaces
it and nothing else. -/
def UpdatesAtomically (memory : String → NoteIndex) (args : Except String MemoryUpdateArgs)
    (user_id : Option String) : Prop :=
  match memoryUpdate hash to_lowercase faults now memory args user_id with
  | (.error _, after) =>
    ∀ user request, user_id = some user → args = .ok request →
      NoteIndex.SameNote (memory (userMemorySessionId user)) (after (userMemorySessionId user))
        request.note_id
  | (.ok _, after) =>
    ∃ user request, user_id = some user ∧ args = .ok request ∧
      NoteIndex.ReplacesNote (memory (userMemorySessionId user)) (after (userMemorySessionId user))
        request.note_id request.content
        ((request.storeRequest user).metadata to_lowercase now) ∧
      ∀ session, session ≠ userMemorySessionId user → after session = memory session

/-- `store_note` comes to its transaction and the transaction is not stopped. -/
structure StoreRuns (index : NoteIndex) (request : MemoryNoteStoreRequest) : Prop where
  checked : checkNote request.session_id request.note_id request.content = .ok ()
  connect : faults.connect = none
  numbered : index.tables.nextEventSequence < 2^63
  embed_batch : faults.embed_batch = none
  transaction : faults.transaction = none

variable {faults} in
/-- Where nothing stops it, `store_note` is its transaction. -/
theorem StoreRuns.storeNote_eq {index : NoteIndex} {request : MemoryNoteStoreRequest}
    (h : StoreRuns faults index request) :
    storeNote hash to_lowercase faults now index request =
      index.storeTransaction hash request.session_id index.tables.nextEventSequence
        request.note_id request.content (request.metadata to_lowercase now) := by
  unfold storeNote
  rw [h.checked, h.connect, h.embed_batch, h.transaction]
  rw [if_neg (Nat.not_le_of_lt h.numbered)]
  rfl

variable {faults} in
/-- What stops `store_note` is its error. -/
theorem storeNote_error {index : NoteIndex} {request : MemoryNoteStoreRequest}
    (h : ¬StoreRuns faults index request) :
    ∃ error, storeNote hash to_lowercase faults now index request = .error error := by
  unfold storeNote
  cases hchecked : checkNote request.session_id request.note_id request.content with
  | error error => exact ⟨error, rfl⟩
  | ok _ =>
  cases hconnect : faults.connect with
  | some error => exact ⟨error, rfl⟩
  | none =>
  by_cases hnumbered : 2^63 ≤ index.tables.nextEventSequence
  · refine ⟨.query "note sequence exceeds sqlite integer range", ?_⟩
    rw [if_pos hnumbered]
    rfl
  · dsimp only
    rw [if_neg hnumbered]
    cases hembed : faults.embed_batch with
    | some error => exact ⟨error, rfl⟩
    | none =>
    cases htransaction : faults.transaction with
    | some error => exact ⟨error, rfl⟩
    | none =>
      exact absurd ⟨hchecked, hconnect, Nat.lt_of_not_le hnumbered, hembed, htransaction⟩ h

/-- Once the old note is deleted, either something stops the new one and the update fails, or the
new one is stored and, but for its hashes, replaces the old one. -/
theorem storeNote_deleted {index : NoteIndex} {user : String} {request : MemoryUpdateArgs}
    (h : index.tables.WellFormed hash (userMemorySessionId user))
    (hcontent : Text.trim request.content ≠ "") :
    (∃ error, storeNote hash to_lowercase faults now
        { index with tables := (index.tables.deleteTransaction request.note_id).2 }
        (request.storeRequest user) = .error error ∧ ¬Storable hash faults index.tables request) ∨
    ∃ after, storeNote hash to_lowercase faults now
        { index with tables := (index.tables.deleteTransaction request.note_id).2 }
        (request.storeRequest user) = .ok after ∧
      (NoteIndex.ReplacesNote index after request.note_id request.content
          ((request.storeRequest user).metadata to_lowercase now) ↔
        Storable hash faults index.tables request) := by
  have hdeletes := h.deleteTransaction request.note_id
  have hothers := fun other (hother : other ≠ request.note_id) =>
    NoteIndex.sameNote_deleted h hother
  generalize (index.tables.deleteTransaction request.note_id).2 = tables at *
  let deleted : NoteIndex := { index with tables }
  have hdeleted : deleted.tables.WellFormed hash (userMemorySessionId user) := hdeletes.wellFormed h
  -- the numbers of the events that the deletion leaves
  have hnumbered : tables.nextEventSequence < 2^63 ↔ ∀ event ∈ index.tables.events,
      event.note_id ≠ request.note_id → event.sequence + 1 < 2^63 := by
    rw [nextEventSequence_lt_iff (by norm_num), hdeletes.events]
    simp only [mem_filter, decide_eq_true_eq, and_imp]
  have hchecked : checkNote (userMemorySessionId user) request.note_id request.content = .ok () ↔
      Text.trim request.note_id ≠ "" := by
    unfold checkNote
    rw [if_neg (trim_userMemorySessionId user), if_neg hcontent]
    split <;> simp_all
  have hstorable : Storable hash faults index.tables request ↔
      StoreRuns faults deleted (request.storeRequest user) ∧
        NoteIndex.DistinctHashes hash request.content :=
    ⟨fun hs => ⟨⟨hchecked.2 hs.named, hs.connect, hnumbered.2 hs.numbered, hs.embed_batch,
        hs.transaction⟩, hs.distinct⟩,
      fun ⟨hruns, hdistinct⟩ => ⟨hchecked.1 hruns.checked, hruns.connect,
        hnumbered.1 hruns.numbered, hruns.embed_batch, hruns.transaction, hdistinct⟩⟩
  by_cases hruns : StoreRuns faults deleted (request.storeRequest user)
  swap
  · obtain ⟨error, herror⟩ := storeNote_error hash to_lowercase now hruns
    exact .inl ⟨error, herror, fun hs => hruns (hstorable.1 hs).1⟩
  -- the transaction goes through, on tables in which nothing is left of the note
  have hnone : ∀ row ∈ tables.chunks, row.note_id ≠ request.note_id := by
    intro row hrow
    rw [hdeletes.chunks] at hrow
    simpa using (mem_filter.1 hrow).2
  have hunrecorded : ∀ event ∈ tables.events, event.note_id ≠ request.note_id := by
    intro event hevent
    rw [hdeletes.events] at hevent
    simpa using (mem_filter.1 hevent).2
  obtain ⟨after, hstored, -, hreplaces⟩ := NoteIndex.store_spec hdeleted
    (nextEventSequence_not_mem tables) hnone hunrecorded request.content
    ((request.storeRequest user).metadata to_lowercase now)
  have hsame : NoteIndex.ReplacesNote index after request.note_id request.content
        ((request.storeRequest user).metadata to_lowercase now) ↔
      NoteIndex.ReplacesNote deleted after request.note_id request.content
        ((request.storeRequest user).metadata to_lowercase now) := by
    refine and_congr_right fun _ => and_congr_right fun _ => forall₂_congr fun other hother => ?_
    exact ⟨fun hbefore => (hothers other hother).symm.trans hbefore,
      fun hbetween => (hothers other hother).trans hbetween⟩
  refine .inr ⟨after, (hruns.storeNote_eq hash to_lowercase now).trans hstored, ?_⟩
  rw [hsame, hstorable, hreplaces, and_iff_right hruns]

/-- An update replaces the note or leaves it exactly if it fails before its deletion, the deletion
fails or finds nothing, or nothing stops the new note from being stored after it. -/
theorem memoryUpdate_atomic_iff (memory : NoteMemory hash)
    (args : Except String MemoryUpdateArgs) (user_id : Option String) :
    UpdatesAtomically hash to_lowercase faults now memory.index args user_id ↔
      ∀ user request, user_id = some user → args = .ok request → Text.trim request.content ≠ "" →
        faults.delete_note = none →
        (∃ event ∈ (memory.index (userMemorySessionId user)).tables.events,
          event.note_id = request.note_id) →
        Storable hash faults (memory.index (userMemorySessionId user)).tables request := by
  unfold UpdatesAtomically memoryUpdate
  cases args with
  | error message =>
    refine iff_of_true ?_ ?_
    · rintro _ _ - ⟨⟩
    · rintro _ _ - ⟨⟩
  | ok request =>
  by_cases hcontent : Text.trim request.content = ""
  · dsimp only
    rw [if_pos hcontent]
    refine iff_of_true ?_ ?_
    · rintro _ _ - ⟨⟩
      exact NoteIndex.SameNote.refl _ _
    · rintro _ _ - ⟨⟩ hne
      exact absurd hcontent hne
  cases user_id with
  | none =>
    dsimp only
    rw [if_neg hcontent]
    refine iff_of_true ?_ ?_
    · rintro _ _ ⟨⟩
    · rintro _ _ ⟨⟩
  | some user =>
  have hwell := memory.wellFormed (userMemorySessionId user)
  dsimp only [resolveUserId]
  rw [if_neg hcontent]
  unfold deleteNote
  cases hdelete : faults.delete_note with
  | some error =>
    refine iff_of_true ?_ ?_
    · rintro _ _ ⟨⟩ ⟨⟩
      exact NoteIndex.SameNote.refl _ _
    · rintro _ _ - - - ⟨⟩
  | none =>
  have hfound : _ ↔ ∃ event ∈ (memory.index (userMemorySessionId user)).tables.events,
      event.note_id = request.note_id := hwell.found_iff
  cases hdeleted : ((memory.index (userMemorySessionId user)).tables.deleteTransaction
      request.note_id).1 with
  | false =>
    have hnothing := NoteTables.deleteTransaction_of_not_found hdeleted
    dsimp only
    rw [hdeleted, hnothing]
    refine iff_of_true ?_ ?_
    · rintro _ _ ⟨⟩ ⟨⟩
      rw [update_self]
      exact NoteIndex.SameNote.refl _ _
    · rintro _ _ ⟨⟩ ⟨⟩ - - hevent
      exact absurd (hfound.2 hevent) (by simp [hdeleted])
  | true =>
    dsimp only
    rw [hdeleted]
    have hevent := hfound.1 hdeleted
    have hquantified : (∀ user' request', some user = some user' →
        (Except.ok request : Except String MemoryUpdateArgs) = .ok request' →
          Text.trim request'.content ≠ "" → (none : Option MemoryError) = none →
          (∃ event ∈ (memory.index (userMemorySessionId user')).tables.events,
            event.note_id = request'.note_id) →
          Storable hash faults (memory.index (userMemorySessionId user')).tables request') ↔
        Storable hash faults (memory.index (userMemorySessionId user)).tables request := by
      constructor
      · exact fun hall => hall user request rfl rfl hcontent rfl hevent
      · rintro hstorable _ _ ⟨⟩ ⟨⟩ - - -
        exact hstorable
    rw [hquantified]
    obtain ⟨error, herror, hstopped⟩ | ⟨after, hstored, hreplaces⟩ :=
      storeNote_deleted hash to_lowercase faults now hwell hcontent
    · -- the old note is gone, and the new one was not stored
      dsimp only
      rw [herror]
      refine iff_of_false (fun hsame => ?_) hstopped
      obtain ⟨event, hmem, hnote⟩ := hevent
      have hrecorded := (hsame user request rfl rfl).2 event.content |>.2 ⟨event, hmem, hnote, rfl⟩
      rw [update_self] at hrecorded
      obtain ⟨left, hleft, hsame, -⟩ := hrecorded
      rw [(hwell.deleteTransaction request.note_id).events] at hleft
      exact absurd hsame (by simpa using (mem_filter.1 hleft).2)
    · dsimp only
      rw [hstored, ← hreplaces]
      constructor
      · rintro ⟨_, _, ⟨⟩, ⟨⟩, hnew, -⟩
        rwa [update_self] at hnew
      · intro hnew
        refine ⟨user, request, rfl, rfl, ?_, fun session hother => update_of_ne hother ..⟩
        rwa [update_self]

end

/-- The notes of a user who has one, that milk is to be bought. -/
def milkMemory : NoteMemory id where
  index session_id :=
    { tables :=
        { events := [⟨1, "note-1", "buy milk"⟩]
          files := []
          chunks := [⟨chunkId session_id 1 0 "buy milk", 1, 1, 1, "buy milk", "note-1", "buy milk"⟩]
          chunks_vec := [chunkId session_id 1 0 "buy milk"]
          chunks_fts := [(chunkId session_id 1 0 "buy milk", "buy milk")] } }
  wellFormed session_id := by
    constructor <;> simp
    exact ⟨0, rfl⟩

/-- The database is locked when the new note is stored: the update fails, and the old note is
gone. -/
theorem lockedDatabase_loses_note :
    ¬UpdatesAtomically id id
      { transaction := some (.query "SQLite failure: database is locked") } "2026-01-01T00:00:00Z"
      milkMemory.index (.ok { note_id := "note-1", content := "buy oat milk" }) (some "alice") := by
  intro hatomic
  have hsame := hatomic "alice" _ rfl rfl
  have hbefore : NoteIndex.Records (milkMemory.index "memory:alice") "note-1" "buy milk" :=
    ⟨_, mem_singleton_self _, rfl, rfl⟩
  obtain ⟨event, hevent, -⟩ := (hsame.2 "buy milk").2 hbefore
  exact not_mem_nil hevent

end Oxydra
