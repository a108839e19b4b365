import Mathlib.Data.List.Nodup
import Oxydra.Library.TextLaws
import Oxydra.Types.Model

/-!
# Stored notes

`store_note` and `delete_note` of `crates/memory/src/lib.rs`, with the index of
`crates/memory/src/indexing.rs`: the tables that a note has rows in, the text of a note in chunks,
and the transactions that write and delete a note. The tables are those of one session, whose rows
all statements select. A foreign key and triggers keep `chunks_vec` and `chunks_fts` in step with
`chunks`.

`storeTransaction_ok` and `deleteTransaction_spec` say what the two transactions do to tables that
are well formed. A note is stored with the sequence number that `next_event_sequence` read before
the transaction began, and the transaction fails where an event has that number by then.
-/

namespace Oxydra

open List

variable {note_id text : String} {chunk_index : ℕ}

/-! ## The tables -/

/-- A row of `conversation_events`, with the `tool_call_id` and the content of its payload. -/
structure NoteEvent where
  sequence : ℕ
  note_id : String
  content : String
  deriving DecidableEq, Repr

/-- A row of `files`. -/
structure FileRow where
  file_id : ℕ
  source_uri : String
  content_hash : String
  deriving DecidableEq, Repr

/-- A row of `chunks`, with the `note_id` of its metadata. -/
structure ChunkRow where
  chunk_id : String
  file_id : ℕ
  sequence_start : ℕ
  sequence_end : ℕ
  chunk_text : String
  note_id : String
  content_hash : String
  deriving DecidableEq, Repr

/-- A row of `chunks` after an update of the row with an id: its sequence does not end earlier. -/
def ChunkRow.touch (chunk_id : String) (sequence : ℕ) (row : ChunkRow) : ChunkRow :=
  if row.chunk_id = chunk_id then { row with sequence_end := max row.sequence_end sequence }
  else row

section

variable (chunk_id : String) (sequence : ℕ) (row : ChunkRow)

@[simp] theorem ChunkRow.touch_chunk_id :
    (row.touch chunk_id sequence).chunk_id = row.chunk_id := by
  unfold touch
  split_ifs <;> rfl

@[simp] theorem ChunkRow.touch_sequence_start :
    (row.touch chunk_id sequence).sequence_start = row.sequence_start := by
  unfold touch
  split_ifs <;> rfl

@[simp] theorem ChunkRow.touch_chunk_text :
    (row.touch chunk_id sequence).chunk_text = row.chunk_text := by
  unfold touch
  split_ifs <;> rfl

@[simp] theorem ChunkRow.touch_note_id : (row.touch chunk_id sequence).note_id = row.note_id := by
  unfold touch
  split_ifs <;> rfl

@[simp] theorem ChunkRow.touch_content_hash :
    (row.touch chunk_id sequence).content_hash = row.content_hash := by
  unfold touch
  split_ifs <;> rfl

end

/-- The tables. The rows of `chunks_vec` are the ids of the chunks that have an embedding. -/
structure NoteTables where
  events : List NoteEvent := []
  files : List FileRow := []
  chunks : List ChunkRow := []
  chunks_vec : List String := []
  chunks_fts : List (String × String) := []
  deriving DecidableEq, Repr

/-- The error of a row whose key is there. -/
def uniqueViolation (key : String) : MemoryError :=
  .query s!"SQLite failure: `UNIQUE constraint failed: {key}`"

/-! ## Chunks of text -/

/-- The pieces of a text: 640 characters each, 96 of which are the last ones of the piece before. -/
def chunksFrom : ℕ → List Char → List String
  | 0, _ => []
  | fuel + 1, chars =>
    let chunk := Text.normalizeWhitespace (String.ofList (chars.take 640))
    let rest := if chars.length ≤ 640 then [] else chunksFrom fuel (chars.drop (640 - 96))
    if chunk = "" then rest else chunk :: rest

/-- `split_text_into_chunks`. -/
def splitTextIntoChunks (text : String) : List String :=
  let chars := (Text.trim text).toList
  chunksFrom chars.length chars

/-- `normalized_text` of the payload of a note. -/
def noteText (content : String) : String := Text.normalizeWhitespace (Text.trim content)

/-- The chunks of a note. -/
def noteChunks (content : String) : List String := splitTextIntoChunks (noteText content)

/-- The id of a chunk. -/
def chunkId (session_id : String) (sequence chunk_index : ℕ) (content_hash : String) : String :=
  "chunk:" ++ session_id ++ ":" ++ toString sequence ++ ":" ++ toString chunk_index ++ ":" ++
    String.ofList (content_hash.toList.take 16)

/-- The sequence number and the index of a chunk are read back from its id. -/
theorem chunkId_inj {session_id hash hash' : String} {m n i j : ℕ}
    (h : chunkId session_id m i hash = chunkId session_id n j hash') : m = n ∧ i = j := by
  have hlists := congrArg String.toList h
  simp only [chunkId, String.toList_append, Nat.toString_eq_ofList_toDigits, String.toList_ofList,
    append_assoc, append_cancel_left_eq] at hlists
  obtain ⟨hsequence, hrest⟩ := Text.digits_before (c := ':') (by decide) hlists
  exact ⟨hsequence, (Text.digits_before (c := ':') (by decide) hrest).1⟩

/-- `PreparedChunk`, without its embedding. -/
structure PreparedChunk where
  chunk_id : String
  chunk_text : String
  content_hash : String
  note_id : String
  sequence : ℕ
  deriving DecidableEq, Repr

/-- The chunks of `prepare_index_document_with_extra_metadata`, from an index on. -/
def prepareChunks (hash : String → String) (session_id : String) (sequence : ℕ) (note_id : String) :
    ℕ → List String → List PreparedChunk
  | _, [] => []
  | chunk_index, text :: rest =>
    ⟨chunkId session_id sequence chunk_index (hash text), text, hash text, note_id, sequence⟩ ::
      prepareChunks hash session_id sequence note_id (chunk_index + 1) rest

namespace NoteTables

variable (tables : NoteTables)

/-! ## Statements -/

/-- `next_event_sequence`. -/
def nextEventSequence : ℕ :=
  match (tables.events.map (·.sequence)).max? with
  | none => 1
  | some max_sequence => max_sequence + 1

/-- `upsert_index_file`: the id of the file, and the tables. -/
def upsertIndexFile (source_uri content_hash : String) : ℕ × NoteTables :=
  match tables.files.find? fun row =>
    row.source_uri = source_uri ∧ row.content_hash = content_hash with
  | some row => (row.file_id, tables)
  | none =>
    let file_id := ((tables.files.map (·.file_id)).max?.getD 0) + 1
    (file_id, { tables with files := tables.files ++ [⟨file_id, source_uri, content_hash⟩] })

/-- `find_existing_chunk_id`, of a chunk of a note; a row is inserted only where this finds none. -/
def findExistingChunkId (content_hash note_id : String) : Option String :=
  (tables.chunks.find? fun row => row.content_hash = content_hash ∧ row.note_id = note_id).map
    (·.chunk_id)

/-- `touch_existing_chunk`, with the trigger of an update. -/
def touchExistingChunk (chunk_id : String) (sequence : ℕ) : NoteTables :=
  { tables with
    chunks := tables.chunks.map (·.touch chunk_id sequence)
    chunks_fts := tables.chunks_fts.filter (·.1 ≠ chunk_id) ++
      (tables.chunks.filter (·.chunk_id = chunk_id)).map fun row => (row.chunk_id, row.chunk_text) }

/-- A new row of `chunks`, with its embedding and the trigger of an insertion. -/
def insertChunk (file_id : ℕ) (chunk : PreparedChunk) : NoteTables :=
  { tables with
    chunks := tables.chunks ++ [
      { chunk_id := chunk.chunk_id
        file_id
        sequence_start := chunk.sequence
        sequence_end := chunk.sequence
        chunk_text := chunk.chunk_text
        note_id := chunk.note_id
        content_hash := chunk.content_hash }]
    chunks_vec := tables.chunks_vec.filter (· ≠ chunk.chunk_id) ++ [chunk.chunk_id]
    chunks_fts := tables.chunks_fts ++ [(chunk.chunk_id, chunk.chunk_text)] }

/-- One chunk of `index_prepared_document`. -/
def indexChunk (file_id : ℕ) (tables : NoteTables) (chunk : PreparedChunk) :
    Except MemoryError NoteTables :=
  match tables.findExistingChunkId chunk.content_hash chunk.note_id with
  | some existing_chunk_id => .ok (tables.touchExistingChunk existing_chunk_id chunk.sequence)
  | none =>
    if chunk.chunk_id ∈ tables.chunks.map (·.chunk_id) then
      .error (uniqueViolation "chunks.chunk_id")
    else .ok (tables.insertChunk file_id chunk)

/-- `DELETE FROM chunks`, with the cascade and the trigger of a deletion. -/
def deleteChunk (chunk_id : String) : NoteTables :=
  { tables with
    chunks := tables.chunks.filter (·.chunk_id ≠ chunk_id)
    chunks_vec := tables.chunks_vec.filter (· ≠ chunk_id)
    chunks_fts := tables.chunks_fts.filter (·.1 ≠ chunk_id) }

/-! ## Transactions -/

/-- The transaction of `store_note`, for the sequence number that was read before it. -/
def storeTransaction (hash : String → String) (session_id : String) (sequence : ℕ)
    (note_id content : String) : Except MemoryError NoteTables :=
  if sequence ∈ tables.events.map (·.sequence) then
    .error (uniqueViolation "conversation_events.session_id, conversation_events.sequence")
  else
    let tables := { tables with events := tables.events ++ [⟨sequence, note_id, content⟩] }
    match noteChunks content with
    | [] => .ok tables
    | texts =>
      let (file_id, tables) := tables.upsertIndexFile
        ("conversation://" ++ session_id ++ "/user_message") (hash (noteText content))
      (prepareChunks hash session_id sequence note_id 0 texts).foldlM (indexChunk file_id) tables

/-- The transaction of `delete_note`: whether there was something to delete, and the tables. -/
def deleteTransaction (note_id : String) : Bool × NoteTables :=
  let chunk_ids := (tables.chunks.filter (·.note_id = note_id)).map (·.chunk_id)
  let kept := tables.events.filter (·.note_id ≠ note_id)
  (chunk_ids ≠ [] || kept.length < tables.events.length,
    { chunk_ids.foldl deleteChunk tables with events := kept })

/-! ## Well formed tables -/

/-- There is a chunk of a note with a text. -/
def HasChunk (note_id text : String) : Prop :=
  ∃ row ∈ tables.chunks, row.note_id = note_id ∧ row.chunk_text = text

/-- A chunk of a note that a search can find, by its embedding and by its words. -/
def Retrievable (note_id text : String) : Prop :=
  ∃ row ∈ tables.chunks, row.note_id = note_id ∧ row.chunk_text = text ∧
    row.chunk_id ∈ tables.chunks_vec ∧ (row.chunk_id, text) ∈ tables.chunks_fts

/-- What the statements rely on: each chunk can be found, has an id of its own that is made of the
sequence number of its event, and has the hash of its text. -/
structure WellFormed (hash : String → String) (session_id : String) : Prop where
  embedded : ∀ row ∈ tables.chunks, row.chunk_id ∈ tables.chunks_vec
  indexed : ∀ row ∈ tables.chunks, (row.chunk_id, row.chunk_text) ∈ tables.chunks_fts
  distinct : (tables.chunks.map (·.chunk_id)).Nodup
  placed : ∀ row ∈ tables.chunks, ∃ chunk_index,
    row.chunk_id = chunkId session_id row.sequence_start chunk_index row.content_hash
  hashed : ∀ row ∈ tables.chunks, row.content_hash = hash row.chunk_text
  evented : ∀ row ∈ tables.chunks, ∃ event ∈ tables.events,
    event.sequence = row.sequence_start ∧ event.note_id = row.note_id

/-- The texts of some chunks, and of those that a note has, are told apart by their hashes. -/
def CollisionFree (hash : String → String) (note_id : String) (texts : List String) : Prop :=
  ∀ a b, (a ∈ texts ∨ tables.HasChunk note_id a) → (b ∈ texts ∨ tables.HasChunk note_id b) →
    hash a = hash b → a = b

variable {tables : NoteTables} {hash : String → String} {session_id : String}

/-- In well formed tables every chunk can be found. -/
theorem WellFormed.retrievable_iff (h : tables.WellFormed hash session_id) :
    tables.Retrievable note_id text ↔ tables.HasChunk note_id text := by
  constructor
  · rintro ⟨row, hrow, hnote, htext, _⟩
    exact ⟨row, hrow, hnote, htext⟩
  · rintro ⟨row, hrow, hnote, htext⟩
    exact ⟨row, hrow, hnote, htext, h.embedded row hrow, htext ▸ h.indexed row hrow⟩

/-! ## Storing -/

/-- A touched row is found as before. -/
theorem WellFormed.touch (h : tables.WellFormed hash session_id) (chunk_id : String)
    (sequence : ℕ) : (tables.touchExistingChunk chunk_id sequence).WellFormed hash session_id := by
  constructor
  · simpa [touchExistingChunk] using h.embedded
  · intro row hrow
    obtain ⟨old, hold, rfl⟩ := mem_map.1 hrow
    by_cases hid : old.chunk_id = chunk_id
    · refine mem_append_right _ (mem_map.2 ⟨old, ?_, by simp⟩)
      simp [hold, hid]
    · refine mem_append_left _ ?_
      simpa [hid] using h.indexed old hold
  · simpa [touchExistingChunk, Function.comp_def] using h.distinct
  · simpa [touchExistingChunk] using h.placed
  · simpa [touchExistingChunk] using h.hashed
  · simpa [touchExistingChunk] using h.evented

/-- To touch a chunk adds none. -/
theorem hasChunk_touch {chunk_id note_id text : String} {sequence : ℕ} :
    (tables.touchExistingChunk chunk_id sequence).HasChunk note_id text ↔
      tables.HasChunk note_id text := by
  simp [HasChunk, touchExistingChunk]

/-- A row with a new id, of an event that is there, is found from then on. -/
theorem WellFormed.insert (h : tables.WellFormed hash session_id) (file_id : ℕ)
    {chunk : PreparedChunk}
    (hid : chunk.chunk_id = chunkId session_id chunk.sequence chunk_index chunk.content_hash)
    (hhash : chunk.content_hash = hash chunk.chunk_text)
    (hnew : chunk.chunk_id ∉ tables.chunks.map (·.chunk_id))
    (hevent : ∃ event ∈ tables.events, event.sequence = chunk.sequence ∧
      event.note_id = chunk.note_id) :
    (tables.insertChunk file_id chunk).WellFormed hash session_id := by
  have hother : ∀ row ∈ tables.chunks, row.chunk_id ≠ chunk.chunk_id := fun row hrow heq =>
    hnew (heq ▸ mem_map_of_mem hrow)
  have hcases : ∀ row ∈ (tables.insertChunk file_id chunk).chunks, row ∈ tables.chunks ∨
      row = ⟨chunk.chunk_id, file_id, chunk.sequence, chunk.sequence, chunk.chunk_text,
        chunk.note_id, chunk.content_hash⟩ := by
    simp [insertChunk]
  constructor
  · intro row hrow
    rcases hcases row hrow with hold | rfl
    · simp [insertChunk, h.embedded row hold, hother row hold]
    · simp [insertChunk]
  · intro row hrow
    rcases hcases row hrow with hold | rfl
    · simp [insertChunk, h.indexed row hold]
    · simp [insertChunk]
  · simp only [insertChunk, map_append, map_singleton]
    exact nodup_append.2 ⟨h.distinct, by simp, fun a ha b hb heq =>
      hnew (by rw [← mem_singleton.1 hb, ← heq]; exact ha)⟩
  · intro row hrow
    rcases hcases row hrow with hold | rfl
    · exact h.placed row hold
    · exact ⟨chunk_index, hid⟩
  · intro row hrow
    rcases hcases row hrow with hold | rfl
    · exact h.hashed row hold
    · exact hhash
  · intro row hrow
    rcases hcases row hrow with hold | rfl
    · exact h.evented row hold
    · exact hevent

/-- An inserted chunk is found. -/
theorem hasChunk_insert {file_id : ℕ} {chunk : PreparedChunk} :
    (tables.insertChunk file_id chunk).HasChunk note_id text ↔
      tables.HasChunk note_id text ∨ (chunk.note_id = note_id ∧ chunk.chunk_text = text) := by
  simp only [HasChunk, insertChunk, mem_append, mem_singleton, or_and_right,
    exists_or, exists_eq_left]

/-- What holds when the chunks of a note up to an index are there: the tables are well formed, the
note has its event, and the chunks with the number of the event have smaller indices. -/
structure Indexing (tables : NoteTables) (hash : String → String) (session_id : String)
    (sequence : ℕ) (note_id : String) (chunk_index : ℕ) : Prop where
  wellFormed : tables.WellFormed hash session_id
  event : ∃ event ∈ tables.events, event.sequence = sequence ∧ event.note_id = note_id
  below : ∀ row ∈ tables.chunks, row.sequence_start = sequence → ∃ index < chunk_index,
    row.chunk_id = chunkId session_id sequence index row.content_hash

/-- A chunk of a note is touched where the note has a chunk with its hash, and else it is inserted,
with an id that no chunk has. -/
theorem Indexing.indexChunk_cases {sequence : ℕ}
    (h : tables.Indexing hash session_id sequence note_id chunk_index) (file_id : ℕ) (text : String)
    :
    let chunk : PreparedChunk :=
      ⟨chunkId session_id sequence chunk_index (hash text), text, hash text, note_id, sequence⟩
    (∃ row ∈ tables.chunks, row.content_hash = hash text ∧ row.note_id = note_id ∧
      tables.findExistingChunkId (hash text) note_id = some row.chunk_id ∧
      indexChunk file_id tables chunk = .ok (tables.touchExistingChunk row.chunk_id sequence) ∧
      (tables.touchExistingChunk row.chunk_id sequence).Indexing hash session_id sequence note_id
        (chunk_index + 1)) ∨
    ((∀ row ∈ tables.chunks, row.note_id = note_id → row.content_hash ≠ hash text) ∧
      chunk.chunk_id ∉ tables.chunks.map (·.chunk_id) ∧
      tables.findExistingChunkId (hash text) note_id = none ∧
      indexChunk file_id tables chunk = .ok (tables.insertChunk file_id chunk) ∧
      (tables.insertChunk file_id chunk).Indexing hash session_id sequence note_id
        (chunk_index + 1)) := by
  intro chunk
  unfold NoteTables.indexChunk findExistingChunkId
  have hbelow : ∀ row ∈ tables.chunks, row.sequence_start = sequence → ∃ index < chunk_index + 1,
      row.chunk_id = chunkId session_id sequence index row.content_hash := by
    intro row hrow hstart
    obtain ⟨index, hlt, hid⟩ := h.below row hrow hstart
    exact ⟨index, Nat.lt_succ_of_lt hlt, hid⟩
  cases hfind : tables.chunks.find? fun row =>
      decide (row.content_hash = hash text ∧ row.note_id = note_id) with
  | some row =>
    have hrow := mem_of_find?_eq_some hfind
    obtain ⟨hhash, hnote⟩ : row.content_hash = hash text ∧ row.note_id = note_id := by
      simpa using List.find?_some hfind
    refine .inl ⟨row, hrow, hhash, hnote, by simp, by simp [chunk],
      h.wellFormed.touch _ _, h.event, ?_⟩
    simpa [touchExistingChunk] using hbelow
  | none =>
    have hother : ∀ row ∈ tables.chunks, row.note_id = note_id → row.content_hash ≠ hash text := by
      intro row hrow hnote hhash
      exact absurd (decide_eq_true ⟨hhash, hnote⟩) (List.find?_eq_none.1 hfind row hrow)
    have hnew : chunk.chunk_id ∉ tables.chunks.map (·.chunk_id) := by
      intro hmem
      obtain ⟨row, hrow, hid⟩ := mem_map.1 hmem
      obtain ⟨index, hplaced⟩ := h.wellFormed.placed row hrow
      obtain ⟨hstart, _⟩ := chunkId_inj (hplaced.symm.trans hid)
      obtain ⟨smaller, hlt, hsmaller⟩ := h.below row hrow hstart
      obtain ⟨_, hindex⟩ := chunkId_inj (hsmaller.symm.trans hid)
      omega
    refine .inr ⟨hother, hnew, by simp, by simp [chunk, hnew],
      h.wellFormed.insert file_id rfl rfl hnew h.event, h.event, ?_⟩
    intro row hrow hstart
    rcases mem_append.1 hrow with hold | hadded
    · exact hbelow row hold hstart
    · rw [mem_singleton.1 hadded]
      exact ⟨chunk_index, Nat.lt_succ_self _, rfl⟩

/-- A chunk of a note is touched or inserted, and is there then. -/
theorem Indexing.indexChunk {sequence : ℕ}
    (h : tables.Indexing hash session_id sequence note_id chunk_index) (file_id : ℕ)
    (hcollision : tables.CollisionFree hash note_id [text]) :
    ∃ after, indexChunk file_id tables
        ⟨chunkId session_id sequence chunk_index (hash text), text, hash text, note_id, sequence⟩ =
        .ok after ∧
      after.Indexing hash session_id sequence note_id (chunk_index + 1) ∧
      after.events = tables.events ∧
      ∀ other found, after.HasChunk other found ↔
        tables.HasChunk other found ∨ (note_id = other ∧ text = found) := by
  obtain ⟨row, hrow, hhash, hnote, _, hok, hindexing⟩ | ⟨_, _, _, hok, hindexing⟩ :=
    h.indexChunk_cases file_id text
  · -- a row with the hash of the text and of the same note has the text
    have hthere : tables.HasChunk note_id row.chunk_text := ⟨row, hrow, hnote, rfl⟩
    have htext : row.chunk_text = text :=
      hcollision _ _ (.inr hthere) (.inl (mem_singleton.2 rfl))
        ((h.wellFormed.hashed row hrow).symm.trans hhash)
    refine ⟨_, hok, hindexing, rfl, fun other found => ?_⟩
    rw [hasChunk_touch]
    refine ⟨.inl, fun hor => hor.elim id ?_⟩
    rintro ⟨rfl, rfl⟩
    exact htext ▸ hthere
  · exact ⟨_, hok, hindexing, rfl, fun other found => hasChunk_insert⟩

/-- The chunks of a note are indexed one after the other, and are there then. -/
theorem Indexing.indexChunks {sequence : ℕ} (file_id : ℕ) {texts : List String}
    {tables : NoteTables} (h : tables.Indexing hash session_id sequence note_id chunk_index)
    (hcollision : tables.CollisionFree hash note_id texts) :
    ∃ after, (prepareChunks hash session_id sequence note_id chunk_index texts).foldlM
        (NoteTables.indexChunk file_id) tables = .ok after ∧
      after.WellFormed hash session_id ∧ after.events = tables.events ∧
      ∀ other found, after.HasChunk other found ↔
        tables.HasChunk other found ∨ (note_id = other ∧ found ∈ texts) := by
  induction texts generalizing chunk_index tables with
  | nil => exact ⟨tables, rfl, h.wellFormed, rfl, by simp⟩
  | cons text rest ih =>
    have hfirst : tables.CollisionFree hash note_id [text] := fun a b ha hb =>
      hcollision a b (ha.imp_left (by simp +contextual)) (hb.imp_left (by simp +contextual))
    obtain ⟨next, hnext, hindexing, hevents, hhas⟩ := h.indexChunk file_id hfirst
    have hknown : ∀ a, (a ∈ rest ∨ next.HasChunk note_id a) →
        a ∈ text :: rest ∨ tables.HasChunk note_id a := by
      intro a ha
      rw [hhas] at ha
      rw [mem_cons]
      tauto
    have hrest : next.CollisionFree hash note_id rest := fun a b ha hb =>
      hcollision a b (hknown a ha) (hknown b hb)
    obtain ⟨after, hafter, hwell, hevents', hhas'⟩ := ih hindexing hrest
    refine ⟨after, ?_, hwell, hevents'.trans hevents, fun other found => ?_⟩
    · rw [prepareChunks, foldlM_cons, hnext]
      exact hafter
    · rw [hhas', hhas, mem_cons, eq_comm (a := found)]
      tauto

/-- More events and other files leave the tables well formed. -/
theorem WellFormed.more_events (h : tables.WellFormed hash session_id) (events : List NoteEvent)
    (files : List FileRow) :
    ({ tables with events := tables.events ++ events, files } : NoteTables).WellFormed hash
      session_id where
  embedded := h.embedded
  indexed := h.indexed
  distinct := h.distinct
  placed := h.placed
  hashed := h.hashed
  evented row hrow := by
    obtain ⟨event, hevent, hfor⟩ := h.evented row hrow
    exact ⟨event, mem_append_left _ hevent, hfor⟩

/-- Only the files change. -/
theorem upsertIndexFile_eq (tables : NoteTables) (source_uri content_hash : String) :
    ∃ file_id files, tables.upsertIndexFile source_uri content_hash =
      (file_id, { tables with files }) := by
  unfold upsertIndexFile
  split
  · exact ⟨_, tables.files, rfl⟩
  · exact ⟨_, _, rfl⟩

/-- With an event that has a new number nothing is indexed yet. -/
theorem WellFormed.indexing (h : tables.WellFormed hash session_id) {sequence : ℕ}
    (hfree : sequence ∉ tables.events.map (·.sequence)) (note_id content : String)
    (files : List FileRow) :
    ({ tables with
      events := tables.events ++ [⟨sequence, note_id, content⟩], files } : NoteTables).Indexing
      hash session_id sequence note_id 0 := by
  refine ⟨h.more_events _ files, ⟨⟨sequence, note_id, content⟩, by simp, rfl, rfl⟩, ?_⟩
  -- a chunk with the number of the new event would have an event with that number
  intro row hrow hstart
  obtain ⟨event, hevent, hsequence, _⟩ := h.evented row hrow
  exact absurd (mem_map.2 ⟨event, hevent, hsequence.trans hstart⟩) hfree

/-- A transaction that stores a note with a number that no event has succeeds; the chunks of the
note are there then, and all that were there before. -/
theorem WellFormed.storeTransaction (h : tables.WellFormed hash session_id) {sequence : ℕ}
    {note_id content : String} (hfree : sequence ∉ tables.events.map (·.sequence))
    (hcollision : tables.CollisionFree hash note_id (noteChunks content)) :
    ∃ after, tables.storeTransaction hash session_id sequence note_id content = .ok after ∧
      after.WellFormed hash session_id ∧
      ∀ other found, after.HasChunk other found ↔
        tables.HasChunk other found ∨ (note_id = other ∧ found ∈ noteChunks content) := by
  unfold NoteTables.storeTransaction
  rw [if_neg hfree]
  dsimp only
  split
  · next hempty =>
    exact ⟨_, rfl, h.more_events _ tables.files, fun other found => by simp [HasChunk, hempty]⟩
  · obtain ⟨file_id, files, hupsert⟩ := upsertIndexFile_eq
      { tables with events := tables.events ++ [⟨sequence, note_id, content⟩] }
      ("conversation://" ++ session_id ++ "/user_message") (hash (noteText content))
    rw [hupsert]
    have hindexing := h.indexing hfree note_id content files
    obtain ⟨after, hafter, hwell, _, hhas⟩ := hindexing.indexChunks file_id hcollision
    exact ⟨after, hafter, hwell, hhas⟩

/-! ## Deleting -/

/-- What is there of a note is taken away, and nothing of another. -/
structure Deletes (before after : NoteTables) (note_id : String) : Prop where
  events : after.events = before.events.filter (·.note_id ≠ note_id)
  chunks : after.chunks = before.chunks.filter (·.note_id ≠ note_id)
  removed : ∀ row ∈ before.chunks, row.note_id = note_id →
    row.chunk_id ∉ after.chunks_vec ∧ ∀ text, (row.chunk_id, text) ∉ after.chunks_fts
  kept : ∀ row ∈ before.chunks, row.note_id ≠ note_id →
    (row.chunk_id ∈ after.chunks_vec ↔ row.chunk_id ∈ before.chunks_vec) ∧
      ∀ text, (row.chunk_id, text) ∈ after.chunks_fts ↔ (row.chunk_id, text) ∈ before.chunks_fts

/-- The statements that delete chunks take away what has one of the ids. -/
theorem foldl_deleteChunk (ids : List String) (tables : NoteTables) :
    ids.foldl deleteChunk tables =
      { tables with
        chunks := tables.chunks.filter (·.chunk_id ∉ ids)
        chunks_vec := tables.chunks_vec.filter (· ∉ ids)
        chunks_fts := tables.chunks_fts.filter (·.1 ∉ ids) } := by
  induction ids generalizing tables with
  | nil => simp
  | cons id ids ih =>
    rw [foldl_cons, ih]
    simp [deleteChunk, filter_filter, Bool.and_comm]

/-- A transaction that deletes a note deletes its rows and no other. -/
theorem WellFormed.deleteTransaction (h : tables.WellFormed hash session_id) (note_id : String) :
    tables.Deletes (tables.deleteTransaction note_id).2 note_id := by
  have hids : ∀ row ∈ tables.chunks,
      row.chunk_id ∈ (tables.chunks.filter (·.note_id = note_id)).map (·.chunk_id) ↔
        row.note_id = note_id := by
    intro row hrow
    constructor
    · intro hmem
      obtain ⟨same, hsame, hid⟩ := mem_map.1 hmem
      obtain ⟨hthere, hnote⟩ := mem_filter.1 hsame
      rw [← inj_on_of_nodup_map h.distinct hthere hrow hid]
      simpa using hnote
    · exact fun hnote => mem_map.2 ⟨row, by simp [hrow, hnote], rfl⟩
  unfold NoteTables.deleteTransaction
  dsimp only
  rw [foldl_deleteChunk]
  refine ⟨rfl, ?_, ?_, ?_⟩
  · refine filter_congr fun row hrow => ?_
    simp only [hids row hrow, ne_eq]
  · intro row hrow hnote
    have hid := (hids row hrow).2 hnote
    simp only [mem_filter, decide_eq_true_eq, not_and, not_not]
    exact ⟨fun _ => hid, fun _ _ => hid⟩
  · intro row hrow hnote
    have hid := mt (hids row hrow).1 hnote
    simp only [mem_filter, decide_eq_true_eq]
    exact ⟨and_iff_left hid, fun _ => and_iff_left hid⟩

/-- There is something to delete exactly if the note has an event. -/
theorem WellFormed.found_iff (h : tables.WellFormed hash session_id) :
    (tables.deleteTransaction note_id).1 = true ↔
      ∃ event ∈ tables.events, event.note_id = note_id := by
  have hevents : (tables.events.filter (·.note_id ≠ note_id)).length < tables.events.length ↔
      ∃ event ∈ tables.events, event.note_id = note_id := by
    rw [length_filter_lt_length_iff_exists]
    simp
  unfold NoteTables.deleteTransaction
  rw [Bool.or_eq_true, decide_eq_true_eq, decide_eq_true_eq, hevents, or_iff_right_iff_imp]
  intro hchunks
  obtain ⟨id, hid⟩ := exists_mem_of_ne_nil _ hchunks
  obtain ⟨row, hrow, _⟩ := mem_map.1 hid
  obtain ⟨hthere, hnote⟩ := mem_filter.1 hrow
  obtain ⟨event, hevent, _, hsame⟩ := h.evented row hthere
  exact ⟨event, hevent, hsame.trans (by simpa using hnote)⟩

/-- A deletion that finds nothing changes nothing. -/
theorem deleteTransaction_of_not_found (h : (tables.deleteTransaction note_id).1 = false) :
    (tables.deleteTransaction note_id).2 = tables := by
  unfold NoteTables.deleteTransaction at h ⊢
  simp only [Bool.or_eq_false_iff, decide_eq_false_iff_not, not_not] at h
  obtain ⟨hchunks, hevents⟩ := h
  have hkept : tables.events.filter (·.note_id ≠ note_id) = tables.events :=
    filter_sublist.eq_of_length_le (Nat.le_of_not_lt hevents)
  simp only [hchunks, hkept, foldl_nil]

/-- A transaction that deletes a note leaves well formed tables. -/
theorem Deletes.wellFormed {after : NoteTables} (hdeletes : tables.Deletes after note_id)
    (h : tables.WellFormed hash session_id) :
    after.WellFormed hash session_id := by
  have hrows : ∀ row ∈ after.chunks, row ∈ tables.chunks ∧ row.note_id ≠ note_id := by
    intro row hrow
    simpa [hdeletes.chunks] using hrow
  constructor
  · intro row hrow
    obtain ⟨hold, hnote⟩ := hrows row hrow
    exact (hdeletes.kept row hold hnote).1.2 (h.embedded row hold)
  · intro row hrow
    obtain ⟨hold, hnote⟩ := hrows row hrow
    exact ((hdeletes.kept row hold hnote).2 _).2 (h.indexed row hold)
  · rw [hdeletes.chunks]
    exact h.distinct.sublist (filter_sublist.map _)
  · exact fun row hrow => h.placed row (hrows row hrow).1
  · exact fun row hrow => h.hashed row (hrows row hrow).1
  · intro row hrow
    obtain ⟨hold, hnote⟩ := hrows row hrow
    obtain ⟨event, hevent, hsequence, hsame⟩ := h.evented row hold
    exact ⟨event, by simp [hdeletes.events, hevent, hsame, hnote], hsequence, hsame⟩

/-- The chunks of the other notes stay. -/
theorem Deletes.hasChunk_iff {after : NoteTables} (hdeletes : tables.Deletes after note_id)
    {other found : String} :
    after.HasChunk other found ↔ tables.HasChunk other found ∧ other ≠ note_id := by
  unfold HasChunk
  rw [hdeletes.chunks]
  constructor
  · rintro ⟨row, hrow, rfl, htext⟩
    obtain ⟨hold, hnote⟩ := mem_filter.1 hrow
    exact ⟨⟨row, hold, rfl, htext⟩, by simpa using hnote⟩
  · rintro ⟨⟨row, hold, rfl, htext⟩, hnote⟩
    exact ⟨row, by simp [hold, hnote], rfl, htext⟩

end NoteTables

end Oxydra
