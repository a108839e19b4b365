import Oxydra.Library.Interleaving
import Oxydra.Memory.Notes

/-!
# Concurrent calls on the notes of a session

Any number of calls of `store_note` and `delete_note` on one session, in any interleaving. A
deletion is one transaction. A store reads the next sequence number and takes its transaction later,
so another store can take the number in between, and the transaction fails where it does.

`notes_consistent` is about the runs in which that does not happen: no call fails but for its
arguments, and the chunks that can be found are those of the notes that were stored and not deleted
since, by the order of the transactions that went through.
-/

namespace Oxydra

open Lts

variable {after : NoteStore} {next : NoteThread}

/-- A call on the notes of a session. -/
inductive NoteCall where
  | store (note_id content : String)
  | delete (note_id : String)
  deriving DecidableEq, Repr

/-- Where a call is. The result of a deletion says whether there was something to delete. -/
inductive NotePhase where
  | called
  | sequenced (sequence : ℕ)
  | done (result : Except MemoryError (Option Bool))

/-- A call and where it is. -/
structure NoteThread where
  call : NoteCall
  phase : NotePhase := .called

/-- The tables, and the calls whose transactions went through, in their order. -/
structure NoteStore where
  tables : NoteTables := {}
  log : List NoteCall := []

/-- The checks of the arguments in `store_note`. -/
def checkNote (session_id note_id content : String) : Except MemoryError Unit :=
  if Text.trim session_id = "" then .error (.query "note session_id must not be empty")
  else if Text.trim note_id = "" then .error (.query "note note_id must not be empty")
  else if Text.trim content = "" then .error (.query "note content must not be empty")
  else .ok ()

/-- The next step of a call: `store_note` up to the read of the sequence number and then its
transaction, or the transaction of `delete_note`. -/
def noteStep (hash : String → String) (session_id : String) (store : NoteStore)
    (thread : NoteThread) (_ : Unit) : Option (NoteStore × NoteThread) :=
  match thread.call, thread.phase with
  | .store note_id content, .called =>
    match checkNote session_id note_id content with
    | .error error => some (store, { thread with phase := .done (.error error) })
    | .ok _ => some (store, { thread with phase := .sequenced store.tables.nextEventSequence })
  | .store note_id content, .sequenced sequence =>
    match store.tables.storeTransaction hash session_id sequence note_id content with
    -- a transaction that fails is rolled back
    | .error error => some (store, { thread with phase := .done (.error error) })
    | .ok tables =>
      some (⟨tables, store.log ++ [thread.call]⟩, { thread with phase := .done (.ok none) })
  | .delete note_id, .called =>
    let (found, tables) := store.tables.deleteTransaction note_id
    some (⟨tables, store.log ++ [thread.call]⟩, { thread with phase := .done (.ok (some found)) })
  | _, _ => none

/-- What the next step of a call is, by what it is up to. -/
inductive NoteMove (hash : String → String) (session_id : String) (store : NoteStore) :
    NoteThread → NoteStore → NoteThread → Prop
  | refused {note_id content : String} {error : MemoryError}
      (h : checkNote session_id note_id content = .error error) :
      NoteMove hash session_id store ⟨.store note_id content, .called⟩ store
        ⟨.store note_id content, .done (.error error)⟩
  | sequenced {note_id content : String} (h : checkNote session_id note_id content = .ok ()) :
      NoteMove hash session_id store ⟨.store note_id content, .called⟩ store
        ⟨.store note_id content, .sequenced store.tables.nextEventSequence⟩
  | failed {note_id content : String} {sequence : ℕ} {error : MemoryError}
      (h : store.tables.storeTransaction hash session_id sequence note_id content = .error error) :
      NoteMove hash session_id store ⟨.store note_id content, .sequenced sequence⟩ store
        ⟨.store note_id content, .done (.error error)⟩
  | stored {note_id content : String} {sequence : ℕ} {tables : NoteTables}
      (h : store.tables.storeTransaction hash session_id sequence note_id content = .ok tables) :
      NoteMove hash session_id store ⟨.store note_id content, .sequenced sequence⟩
        ⟨tables, store.log ++ [.store note_id content]⟩ ⟨.store note_id content, .done (.ok none)⟩
  | deleted {note_id : String} :
      NoteMove hash session_id store ⟨.delete note_id, .called⟩
        ⟨(store.tables.deleteTransaction note_id).2, store.log ++ [.delete note_id]⟩
        ⟨.delete note_id, .done (.ok (some (store.tables.deleteTransaction note_id).1))⟩

theorem noteMove_of_step {hash : String → String} {session_id : String} {store after : NoteStore}
    {thread next : NoteThread} (h : noteStep hash session_id store thread () = some (after, next)) :
    NoteMove hash session_id store thread after next := by
  obtain ⟨call, phase⟩ := thread
  unfold noteStep at h
  dsimp only at h
  split at h
  · split at h
    · next error hcheck =>
      cases h
      exact .refused hcheck
    · next hcheck =>
      cases h
      exact .sequenced hcheck
  · split at h
    · next error hfailed =>
      cases h
      exact .failed hfailed
    · next tables hstored =>
      cases h
      exact .stored hstored
  · cases h
    exact .deleted
  · cases h

/-- All interleavings of calls on a session that is empty at first. -/
def noteSystem {ι : Type*} [DecidableEq ι] (hash : String → String) (session_id : String) :
    System (Threads ι NoteStore NoteThread) (ι × Unit) :=
  interleave (fun s => s.shared = {} ∧ ∀ i, (s.threads i).phase = .called)
    (noteStep hash session_id)

/-! ## What the calls are meant to do -/

/-- The notes that were stored and not deleted since, with their contents. -/
def liveNotes (log : List NoteCall) : List (String × String) :=
  log.foldl (fun live call =>
    match call with
    | .store note_id content => live ++ [(note_id, content)]
    | .delete note_id => live.filter (·.1 ≠ note_id)) []

@[simp] theorem liveNotes_store (log : List NoteCall) (note_id content : String) :
    liveNotes (log ++ [.store note_id content]) = liveNotes log ++ [(note_id, content)] := by
  simp [liveNotes]

@[simp] theorem liveNotes_delete (log : List NoteCall) (note_id : String) :
    liveNotes (log ++ [.delete note_id]) = (liveNotes log).filter (·.1 ≠ note_id) := by
  simp [liveNotes]

/-- A text is a chunk of a note that was stored and not deleted since. -/
def LiveChunk (log : List NoteCall) (note_id text : String) : Prop :=
  ∃ content, (note_id, content) ∈ liveNotes log ∧ text ∈ noteChunks content

/-- A call whose arguments pass the checks. -/
def NoteCall.Valid (session_id : String) : NoteCall → Prop
  | .store note_id content => checkNote session_id note_id content = .ok ()
  | .delete _ => True

section

variable {ι : Type*} [DecidableEq ι]

/-- No store takes its transaction when an event has its sequence number, or with a chunk whose hash
is that of another text of the note. -/
def StoresFreely (hash : String → String) (s : Threads ι NoteStore NoteThread) (l : ι × Unit) :
    Prop :=
  ∀ note_id content sequence, s.threads l.1 = ⟨.store note_id content, .sequenced sequence⟩ →
    sequence ∉ s.shared.tables.events.map (·.sequence) ∧
      s.shared.tables.CollisionFree hash note_id (noteChunks content)

/-- What the step of a call does: a call that returns without an error by it is the next one of the
log, any other step leaves the notes alone, and a deletion deletes the rows of its note and no
other. -/
structure NoteEffect (s t : Threads ι NoteStore NoteThread) (i : ι) : Prop where
  logged : ∀ result, (t.threads i).phase = .done (.ok result) →
    t.shared.log = s.shared.log ++ [(s.threads i).call]
  unchanged : (∀ result, (t.threads i).phase ≠ .done (.ok result)) → t.shared = s.shared
  deletes : ∀ note_id, (s.threads i).call = .delete note_id →
    s.shared.tables.Deletes t.shared.tables note_id

/-- What holds of the notes in a run. -/
structure NotesSound (hash : String → String) (session_id : String)
    (s : Threads ι NoteStore NoteThread) : Prop where
  wellFormed : s.shared.tables.WellFormed hash session_id
  chunks : ∀ note_id text, s.shared.tables.HasChunk note_id text ↔
    LiveChunk s.shared.log note_id text
  failed : ∀ i error, (s.threads i).phase = .done (.error error) →
    ¬(s.threads i).call.Valid session_id

variable {hash : String → String} {session_id : String} {s : Threads ι NoteStore NoteThread}

/-- A store that goes through adds the chunks of its note. -/
theorem LiveChunk.store {log : List NoteCall} {note_id content other found : String} :
    LiveChunk (log ++ [.store note_id content]) other found ↔
      LiveChunk log other found ∨ (note_id = other ∧ found ∈ noteChunks content) := by
  simp only [LiveChunk, liveNotes_store, List.mem_append, List.mem_singleton, Prod.mk.injEq]
  constructor
  · rintro ⟨stored, hlive | ⟨rfl, rfl⟩, hfound⟩
    · exact .inl ⟨stored, hlive, hfound⟩
    · exact .inr ⟨rfl, hfound⟩
  · rintro (⟨stored, hlive, hfound⟩ | ⟨rfl, hfound⟩)
    · exact ⟨stored, .inl hlive, hfound⟩
    · exact ⟨content, .inr ⟨rfl, rfl⟩, hfound⟩

/-- A deletion takes the chunks of its note away. -/
theorem LiveChunk.delete {log : List NoteCall} {note_id other found : String} :
    LiveChunk (log ++ [.delete note_id]) other found ↔
      LiveChunk log other found ∧ other ≠ note_id := by
  simp only [LiveChunk, liveNotes_delete, List.mem_filter, decide_eq_true_eq]
  constructor
  · rintro ⟨stored, ⟨hlive, hother⟩, hfound⟩
    exact ⟨⟨stored, hlive, hfound⟩, hother⟩
  · rintro ⟨⟨stored, hlive, hfound⟩, hother⟩
    exact ⟨stored, ⟨hlive, hother⟩, hfound⟩

/-- No valid call has failed after a step in which none does. -/
theorem NotesSound.failed_update (h : NotesSound hash session_id s) (i : ι)
    (hnext : ∀ error, next.phase = .done (.error error) → ¬next.call.Valid session_id) :
    ∀ j error, (Function.update s.threads i next j).phase = .done (.error error) →
      ¬(Function.update s.threads i next j).call.Valid session_id := by
  intro j
  by_cases hj : j = i
  · subst hj
    rwa [Function.update_self]
  · rw [Function.update_of_ne hj]
    exact h.failed j

/-- A step that meets the condition keeps the notes sound. -/
theorem NotesSound.step (h : NotesSound hash session_id s) {i : ι}
    (hfree : StoresFreely hash s (i, ()))
    (hmove : NoteMove hash session_id s.shared (s.threads i) after next) :
    NotesSound hash session_id ⟨after, Function.update s.threads i next⟩ := by
  generalize hthread : s.threads i = thread at hmove
  cases hmove with
  | refused hcheck =>
    refine ⟨h.wellFormed, h.chunks, h.failed_update i fun error _ hvalid => ?_⟩
    cases hcheck.symm.trans hvalid
  | sequenced _ => exact ⟨h.wellFormed, h.chunks, h.failed_update i (by simp)⟩
  | failed hfailed =>
    obtain ⟨hsequence, hcollision⟩ := hfree _ _ _ hthread
    obtain ⟨tables, hstored, _⟩ := h.wellFormed.storeTransaction hsequence hcollision
    cases hfailed.symm.trans hstored
  | stored hstored =>
    obtain ⟨hsequence, hcollision⟩ := hfree _ _ _ hthread
    obtain ⟨tables, hok, hwell, hhas⟩ := h.wellFormed.storeTransaction hsequence hcollision
    obtain rfl := Except.ok.inj (hok.symm.trans hstored)
    refine ⟨hwell, fun other found => ?_, h.failed_update i (by simp)⟩
    rw [hhas, h.chunks, LiveChunk.store]
  | deleted =>
    have hdeletes := h.wellFormed.deleteTransaction
    refine ⟨(hdeletes _).wellFormed h.wellFormed, fun other found => ?_,
      h.failed_update i (by simp)⟩
    rw [(hdeletes _).hasChunk_iff, h.chunks, LiveChunk.delete]

/-- The effect of a step. -/
theorem NotesSound.effect (h : NotesSound hash session_id s) {i : ι}
    (hmove : NoteMove hash session_id s.shared (s.threads i) after next) :
    NoteEffect s ⟨after, Function.update s.threads i next⟩ i := by
  generalize hthread : s.threads i = thread at hmove
  cases hmove with
  | deleted =>
    refine ⟨by simp [hthread], by simp, fun note_id hcall => ?_⟩
    rw [hthread] at hcall
    cases hcall
    exact h.wellFormed.deleteTransaction _
  | stored _ => exact ⟨by simp [hthread], by simp, by simp [hthread]⟩
  | _ => exact ⟨by simp, by simp, by simp [hthread]⟩

/-- In a run whose stores all take their transactions freely, a call fails only if its arguments do
not pass the checks, the chunks that can be found are those of the notes that were stored and not
deleted since, and each further step of a call has its effect and no other. -/
theorem notes_consistent (h : (noteSystem hash session_id).ReachWithin (StoresFreely hash) s) :
    (∀ i error, (s.threads i).phase = .done (.error error) →
      ¬(s.threads i).call.Valid session_id) ∧
    (∀ note_id text, s.shared.tables.Retrievable note_id text ↔
      LiveChunk s.shared.log note_id text) ∧
    ∀ i t, (noteSystem hash session_id).step s (i, ()) t → NoteEffect s t i := by
  have hsound : NotesSound hash session_id s := by
    refine h.invariant ?_ ?_
    · rintro s ⟨hshared, hcalled⟩
      refine ⟨?_, ?_, by simp [hcalled]⟩
      · rw [hshared]
        constructor <;> simp
      · simp [hshared, NoteTables.HasChunk, LiveChunk, liveNotes]
    · rintro s ⟨i, _⟩ t hsound hfree hstep
      obtain ⟨after, next, hnext, rfl⟩ := interleave_step hstep
      exact hsound.step hfree (noteMove_of_step hnext)
  refine ⟨hsound.failed, fun note_id text => ?_, fun i t hstep => ?_⟩
  · rw [hsound.wellFormed.retrievable_iff, hsound.chunks]
  · obtain ⟨after, next, hnext, rfl⟩ := interleave_step hstep
    exact hsound.effect (noteMove_of_step hnext)

end

/-! ## Two notes -/

/-- Two notes are stored and one of them is deleted. -/
def shoppingNotes (i : Fin 3) : NoteThread :=
  match i with
  | 0 => { call := .store "note-1" "buy milk" }
  | 1 => { call := .store "note-2" "buy eggs" }
  | 2 => { call := .delete "note-1" }

/-- Whether a store finds no event with its number. -/
def numberFree (s : Threads (Fin 3) NoteStore NoteThread) (l : Fin 3 × Unit) : Bool :=
  match (s.threads l.1).phase with
  | .sequenced sequence => sequence ∉ s.shared.tables.events.map (·.sequence)
  | _ => true

/-- One call after the other, and what is left is the note that was not deleted. -/
theorem shoppingNotes_consistent :
    ∃ s : Threads (Fin 3) NoteStore NoteThread,
      (noteSystem id "memory:alice").ReachWithin (StoresFreely id) s ∧
      s.shared.tables.Retrievable "note-2" "buy eggs" ∧
      ∀ text, ¬s.shared.tables.Retrievable "note-1" text := by
  obtain ⟨s, hrun, hlog⟩ :
      ∃ s ∈ exec (fun s l => numberFree s l = true) (threadStep (noteStep id "memory:alice"))
        ⟨{}, shoppingNotes⟩ [(0, ()), (0, ()), (1, ()), (1, ()), (2, ())],
        s.shared.log = [.store "note-1" "buy milk", .store "note-2" "buy eggs",
          .delete "note-1"] := by
    decide
  have hinit : (noteSystem id "memory:alice").init ⟨{}, shoppingNotes⟩ :=
    ⟨rfl, fun | 0 | 1 | 2 => rfl⟩
  have hfree : ∀ s l, numberFree s l = true → StoresFreely id s l := by
    intro s l hnumber note_id content sequence hthread
    refine ⟨?_, fun a b _ _ hsame => hsame⟩
    simpa [numberFree, hthread] using hnumber
  have hreach : (noteSystem id "memory:alice").ReachWithin (StoresFreely id) s :=
    (reachWithin_exec (.init hinit) hrun).mono hfree
  obtain ⟨_, hfound, _⟩ := notes_consistent hreach
  refine ⟨s, hreach, (hfound _ _).2 ?_, fun text hfind => ?_⟩
  · exact ⟨"buy eggs", by rw [hlog]; decide, by decide⟩
  · obtain ⟨content, hlive, _⟩ := (hfound _ _).1 hfind
    simp [hlog, liveNotes] at hlive

/-- Two calls that store a note each. -/
def twoStores (i : Fin 2) : NoteThread :=
  match i with
  | 0 => { call := .store "note-1" "buy milk" }
  | 1 => { call := .store "note-2" "buy eggs" }

/-- Two stores read the same number, and the second of them fails though its arguments are valid. -/
theorem concurrent_store_fails :
    ∃ s : Threads (Fin 2) NoteStore NoteThread, (noteSystem id "memory:alice").Reach s ∧
      (s.threads 1).call.Valid "memory:alice" ∧
      (s.threads 1).phase = .done (.error (uniqueViolation
        "conversation_events.session_id, conversation_events.sequence")) := by
  have hinit : (noteSystem id "memory:alice").init ⟨{}, twoStores⟩ :=
    ⟨rfl, fun | 0 | 1 => rfl⟩
  have hrun : ∃ s ∈ exec (fun _ _ => True) (threadStep (noteStep id "memory:alice"))
      ⟨{}, twoStores⟩ [(0, ()), (1, ()), (0, ()), (1, ())],
      (s.threads 1).call = .store "note-2" "buy eggs" ∧
      (s.threads 1).phase = .done (.error (uniqueViolation
        "conversation_events.session_id, conversation_events.sequence")) := by
    refine ⟨_, rfl, rfl, rfl⟩
  obtain ⟨s, hs, hcall, hphase⟩ := hrun
  refine ⟨s, reachWithin_exec (.init hinit) hs, ?_, hphase⟩
  rw [hcall]
  change checkNote _ _ _ = _
  decide

end Oxydra
