import Oxydra.Library.Utf8
import Oxydra.Tools.ShellConnection

/-!
# The output of a shell session

`LocalProcessShellSession` of `crates/tools/src/sandbox/mod.rs` and the shell daemon keep what a
command has written in a queue, standard output before standard error, and hand it out in chunks of
a size that the client asks for. Each chunk is decoded for itself.

The reads end, and deliver the bytes of the queue in their order (`readToEof_eq`). Their texts are
the text of the bytes exactly where no chunk ends inside a character (`streamOutput_faithful_iff`):
one that does is decoded to replacement characters on both sides of the cut.
-/

namespace Oxydra

open Function List Utf8

/-! ## Sessions -/

/-- The limits of a `ShellSessionConfig` or a `ShellDaemonConfig` that `validate` accepts. -/
structure StreamLimits where
  max_session_output_bytes : ℕ
  max_stream_chunk_bytes : ℕ
  output_pos : 0 < max_session_output_bytes
  chunk_pos : 0 < max_stream_chunk_bytes

/-- `next_output_chunk`: the stream, the data and whether nothing is left, and the queue. -/
def nextOutputChunk (queue : List OutputChunk) (max_bytes : Option ℕ)
    (max_stream_chunk_bytes : ℕ) :
    (ShellOutputStream × List UInt8 × Bool) × List OutputChunk :=
  let bounded_max := min (max (max_bytes.getD max_stream_chunk_bytes) 1) max_stream_chunk_bytes
  match queue with
  | [] => ((.stdout, [], true), [])
  | chunk :: rest =>
    let queue :=
      if bounded_max < chunk.data.length then ⟨chunk.stream, chunk.data.drop bounded_max⟩ :: rest
      else rest
    ((chunk.stream, chunk.data.take bounded_max, queue = []), queue)

/-- `String::from_utf8_lossy`. -/
def fromUtf8Lossy (data : List UInt8) : String := String.ofList (lossy data)

/-- The status of a session on a local process. -/
inductive LocalSessionStatus where
  | ready
  | unavailable (reason : SessionUnavailableReason) (detail : String)
  deriving DecidableEq, Repr

structure LocalProcessShellSession where
  status : LocalSessionStatus
  session_id : String
  limits : StreamLimits
  output_queue : List OutputChunk
  next_request_number : ℕ

namespace LocalProcessShellSession

/-- What `exec_command` leaves behind a command with this output. `build_output_queue` and
`push_bounded_output` are those of the daemon. -/
def withOutput (session : LocalProcessShellSession) (stdout stderr : List UInt8) :
    LocalProcessShellSession :=
  { session with
    output_queue := buildOutputQueue stdout stderr session.limits.max_session_output_bytes
    next_request_number := session.next_request_number + 1 }

/-- `stream_output`. -/
def streamOutput (session : LocalProcessShellSession) (max_bytes : Option ℕ) :
    Except SandboxError StreamOutputChunk × LocalProcessShellSession :=
  match session.status with
  | .unavailable reason detail => (.error (.sessionUnavailable reason detail), session)
  | .ready =>
    let number := session.next_request_number + 1
    let ((stream, data, eof), output_queue) :=
      nextOutputChunk session.output_queue max_bytes session.limits.max_stream_chunk_bytes
    (.ok ⟨numberedId "local-stream" number, session.session_id, stream, fromUtf8Lossy data, eof⟩,
      { session with output_queue, next_request_number := number })

end LocalProcessShellSession

/-- A session of the daemon reads from the front of its queue, as a local one does. -/
theorem SessionManager.nextStreamChunk_eq {manager : SessionManager} {session_id : String}
    {session : DaemonSession} (h : manager.sessions session_id = some session)
    (max_bytes : Option ℕ) :
    manager.nextStreamChunk session_id max_bytes =
      .ok ((nextOutputChunk session.output_queue max_bytes manager.max_stream_chunk_bytes).1,
        { manager with
          sessions := update manager.sessions session_id (some { session with
            output_queue :=
              (nextOutputChunk session.output_queue max_bytes
                manager.max_stream_chunk_bytes).2 }) }) := by
  unfold nextStreamChunk nextOutputChunk
  rw [h]
  dsimp only
  cases hqueue : session.output_queue with
  | nil =>
    have hsame : (some { session with output_queue := [] } : Option DaemonSession) =
        manager.sessions session_id := by
      rw [h, ← hqueue]
    rw [hsame, update_eq_self]
  | cons chunk rest => rfl

/-! ## Reads -/

/-- The reads of a client up to the one that says that nothing is left, where none fails. The `k`-th
of them asks for `requests k` bytes. -/
def readToEof {σ : Type*} (read : σ → Option ℕ → Option (StreamOutputChunk × σ))
    (requests : ℕ → Option ℕ) : ℕ → ℕ → σ → Option (List StreamOutputChunk)
  | 0, _, _ => none
  | rounds + 1, k, s =>
    match read s (requests k) with
    | none => none
    | some (chunk, s) =>
      if chunk.eof then some [chunk]
      else (readToEof read requests rounds (k + 1) s).map (chunk :: ·)

/-- A read of a local session. -/
def readLocal (session : LocalProcessShellSession) (max_bytes : Option ℕ) :
    Option (StreamOutputChunk × LocalProcessShellSession) :=
  match session.streamOutput max_bytes with
  | (.ok chunk, session) => some (chunk, session)
  | (.error _, _) => none

/-- A read of a session of the daemon, which no other client reads from. -/
def readDaemon (request_id session_id : String) (manager : SessionManager) (max_bytes : Option ℕ) :
    Option (StreamOutputChunk × SessionManager) :=
  match handleRequest fromUtf8Lossy manager manager (.notStarted "")
    (.streamOutput ⟨request_id, session_id, max_bytes⟩) with
  | (.streamOutput chunk, manager) => some (chunk, manager)
  | _ => none

/-! ## Queues -/

/-- The chunk of a stream, if there is something in it. -/
def chunkOf (stream : ShellOutputStream) (data : List UInt8) : List OutputChunk :=
  if data = [] then [] else [⟨stream, data⟩]

/-- The queue of two streams from which `offset` bytes have been read. -/
def queueFrom (out err : List UInt8) (offset : ℕ) : List OutputChunk :=
  chunkOf .stdout (out.drop offset) ++ chunkOf .stderr (err.drop (offset - out.length))

/-- The bytes of standard output that are kept. -/
def keptOut (limits : StreamLimits) (stdout : List UInt8) : List UInt8 :=
  stdout.take limits.max_session_output_bytes

/-- The bytes of standard error that are kept, as far as standard output leaves room. -/
def keptErr (limits : StreamLimits) (stdout stderr : List UInt8) : List UInt8 :=
  stderr.take (limits.max_session_output_bytes - stdout.length)

theorem take_min_length {α : Type*} (l : List α) (n : ℕ) : l.take (min l.length n) = l.take n := by
  rw [take_eq_take_iff]
  omega

/-- What a command has written is queued as far as it is kept. -/
theorem buildOutputQueue_eq (limits : StreamLimits) (stdout stderr : List UInt8) :
    buildOutputQueue stdout stderr limits.max_session_output_bytes =
      queueFrom (keptOut limits stdout) (keptErr limits stdout stderr) 0 := by
  have hpush (queue : List OutputChunk) (stream : ShellOutputStream) (data : List UInt8)
      (remaining : ℕ) : pushBoundedChunk queue stream data remaining =
        (queue ++ chunkOf stream (data.take remaining), remaining - data.length) := by
    unfold pushBoundedChunk chunkOf
    split_ifs with hnone hempty hempty
    · rcases hnone with rfl | rfl <;> simp
    · rcases hnone with rfl | rfl <;> simp at hempty
    · rcases take_eq_nil_iff.mp hempty with h | h
      · exact absurd (.inl h) hnone
      · exact absurd (.inr h) hnone
    · dsimp only
      rw [take_min_length]
      congr 1
      omega
  unfold buildOutputQueue queueFrom
  rw [hpush]
  dsimp only
  rw [hpush]
  simp [keptOut, keptErr]

section

variable (size : ℕ → ℕ) (out err : List UInt8)

/-- The bytes that have been read after `k` reads: each read goes on by its size, and not beyond the
end of the stream that it is in. -/
def readOffset : ℕ → ℕ
  | 0 => 0
  | k + 1 => min (readOffset k + size k)
      (if readOffset k < out.length then out.length else out.length + err.length)

/-- The bytes of the `k`-th read. -/
def readPiece (k : ℕ) : List UInt8 :=
  ((out ++ err).take (readOffset size out err (k + 1))).drop (readOffset size out err k)

/-- The stream of the `k`-th read. -/
def readStreamOf (k : ℕ) : ShellOutputStream :=
  if readOffset size out err k < out.length ∨ err = [] then .stdout else .stderr

theorem readOffset_le (k : ℕ) : readOffset size out err k ≤ out.length + err.length := by
  cases k with
  | zero => exact Nat.zero_le _
  | succ k =>
    rw [readOffset]
    split_ifs <;> omega

/-- A read of at least one byte goes on. -/
theorem readOffset_lt (hsize : ∀ k, 0 < size k) {k : ℕ}
    (hk : readOffset size out err k < out.length + err.length) :
    readOffset size out err k < readOffset size out err (k + 1) := by
  have hpos := hsize k
  rw [readOffset]
  split_ifs <;> omega

theorem readOffset_mono (k : ℕ) : readOffset size out err k ≤ readOffset size out err (k + 1) := by
  have hle := readOffset_le size out err k
  rw [readOffset]
  split_ifs <;> omega

/-- After some reads nothing is left. -/
theorem exists_readOffset_eq (hsize : ∀ k, 0 < size k) :
    ∃ k, readOffset size out err k = out.length + err.length ∧
      ∀ j < k, readOffset size out err j < out.length + err.length := by
  have hreach : ∀ k, k ≤ readOffset size out err k ∨
      readOffset size out err k = out.length + err.length := by
    intro k
    induction k with
    | zero => exact .inl (Nat.zero_le _)
    | succ k ih =>
      have hle := readOffset_le size out err (k + 1)
      have hmono := readOffset_mono size out err k
      rcases Nat.lt_or_ge (readOffset size out err k) (out.length + err.length) with hlt | hge
      · have hstep := readOffset_lt size out err hsize hlt
        omega
      · omega
  have hsome : ∃ k, readOffset size out err k = out.length + err.length := by
    refine ⟨out.length + err.length, ?_⟩
    have hle := readOffset_le size out err (out.length + err.length)
    have hk := hreach (out.length + err.length)
    omega
  refine ⟨Nat.find hsome, Nat.find_spec hsome, fun j hj => ?_⟩
  exact lt_of_le_of_ne (readOffset_le size out err j) (Nat.find_min hsome hj)

/-- The first reads deliver the first bytes, each of them once. -/
theorem flatten_readPiece (k : ℕ) :
    ((List.range k).map (readPiece size out err)).flatten =
      (out ++ err).take (readOffset size out err k) := by
  induction k with
  | zero => rfl
  | succ k ih =>
    have hmono := readOffset_mono size out err k
    rw [range_succ, map_append, flatten_append, ih, map_singleton,
      flatten_singleton, readPiece]
    have htake : (out ++ err).take (readOffset size out err k) =
        ((out ++ err).take (readOffset size out err (k + 1))).take (readOffset size out err k) := by
      rw [take_take, Nat.min_eq_left hmono]
    rw [htake, take_append_drop]

theorem queueFrom_eq_nil_iff {offset : ℕ} :
    queueFrom out err offset = [] ↔ out.length + err.length ≤ offset := by
  have hchunk (stream : ShellOutputStream) (data : List UInt8) :
      chunkOf stream data = [] ↔ data = [] := by
    unfold chunkOf
    split_ifs with h <;> simp [h]
  unfold queueFrom
  rw [append_eq_nil_iff, hchunk, hchunk, drop_eq_nil_iff, drop_eq_nil_iff]
  omega

/-- A read of a chunk that ends at byte `stop` takes its first bytes, and leaves the rest of it. -/
theorem nextOutputChunk_cons {queue : List OutputChunk} (stream : ShellOutputStream)
    (data : List UInt8) (rest : List OutputChunk) {max_bytes : Option ℕ}
    {max_stream_chunk_bytes offset stop n : ℕ}
    (hn : n = min (max (max_bytes.getD max_stream_chunk_bytes) 1) max_stream_chunk_bytes)
    (hqueue : queue = ⟨stream, data⟩ :: rest)
    (hdata : data = ((out ++ err).take stop).drop offset) (hstop : stop ≤ out.length + err.length)
    (hrest : queueFrom out err (min (offset + n) stop) =
      if n < data.length then ⟨stream, data.drop n⟩ :: rest else rest) :
    nextOutputChunk queue max_bytes max_stream_chunk_bytes =
      ((stream, ((out ++ err).take (min (offset + n) stop)).drop offset,
          decide (min (offset + n) stop = out.length + err.length)),
        queueFrom out err (min (offset + n) stop)) := by
  have hpiece : ((out ++ err).take (min (offset + n) stop)).drop offset = data.take n := by
    rw [hdata, take_drop, take_take]
  have heof : queueFrom out err (min (offset + n) stop) = [] ↔
      min (offset + n) stop = out.length + err.length := by
    rw [queueFrom_eq_nil_iff]
    omega
  unfold nextOutputChunk
  rw [hqueue, ← hn]
  dsimp only
  rw [hpiece, ← hrest, decide_eq_decide.mpr heof]

/-- A read of a queue that something is left in, or that was empty from the start. -/
theorem nextOutputChunk_queueFrom (max_bytes : Option ℕ) (max_stream_chunk_bytes k : ℕ)
    (hsize : size k = min (max (max_bytes.getD max_stream_chunk_bytes) 1) max_stream_chunk_bytes)
    (hk : readOffset size out err k < out.length + err.length ∨ out ++ err = []) :
    nextOutputChunk (queueFrom out err (readOffset size out err k)) max_bytes
        max_stream_chunk_bytes =
      ((readStreamOf size out err k, readPiece size out err k,
          decide (readOffset size out err (k + 1) = out.length + err.length)),
        queueFrom out err (readOffset size out err (k + 1))) := by
  have hchunk (stream : ShellOutputStream) {data : List UInt8} (hdata : 0 < data.length) :
      chunkOf stream data = [⟨stream, data⟩] := if_neg (ne_nil_of_length_pos hdata)
  have hnone (stream : ShellOutputStream) {data : List UInt8} (hdata : data.length = 0) :
      chunkOf stream data = [] := if_pos (length_eq_zero_iff.mp hdata)
  unfold readStreamOf readPiece
  rw [readOffset]
  generalize readOffset size out err k = offset at hk
  generalize size k = n at hsize
  by_cases hout : offset < out.length
  · -- the read is of standard output
    rw [if_pos hout, if_pos (.inl hout)]
    refine nextOutputChunk_cons out err .stdout (out.drop offset) (chunkOf .stderr err) hsize ?_ ?_
      (Nat.le_add_right _ _) ?_
    · unfold queueFrom
      rw [hchunk _ (by simpa using hout), Nat.sub_eq_zero_of_le hout.le]
      rfl
    · rw [take_left]
    · unfold queueFrom
      rw [length_drop, drop_drop]
      split_ifs with hmore
      · rw [Nat.min_eq_left (by omega), hchunk _ (by rw [length_drop]; omega),
          Nat.sub_eq_zero_of_le (by omega)]
        rfl
      · rw [Nat.min_eq_right (by omega), hnone _ (by simp), Nat.sub_self]
        rfl
  · rw [if_neg hout]
    by_cases herr : err = []
    · -- nothing was written
      have hempty : out = [] := by
        rcases hk with hlt | hempty
        · rw [herr, length_nil] at hlt
          omega
        · exact (append_eq_nil_iff.mp hempty).1
      subst herr hempty
      rw [if_pos (.inr rfl)]
      simp [queueFrom, chunkOf, nextOutputChunk]
    · rw [if_neg (not_or.mpr ⟨hout, herr⟩)]
      have hlt : offset < out.length + err.length :=
        hk.resolve_right fun h => herr (append_eq_nil_iff.mp h).2
      refine nextOutputChunk_cons out err .stderr (err.drop (offset - out.length)) [] hsize ?_ ?_
        (le_refl _) ?_
      · unfold queueFrom
        rw [hnone _ (by rw [length_drop]; omega), hchunk _ (by rw [length_drop]; omega)]
        rfl
      · rw [← length_append, take_length, drop_append,
          drop_eq_nil_of_le (not_lt.mp hout), nil_append]
      · unfold queueFrom
        rw [length_drop, drop_drop, hnone .stdout (by rw [length_drop]; omega)]
        split_ifs with hmore
        · rw [Nat.min_eq_left (by omega), hchunk _ (by rw [length_drop]; omega),
            show offset + n - out.length = offset - out.length + n by omega]
          rfl
        · rw [Nat.min_eq_right (by omega), hnone _ (by rw [length_drop]; omega)]
          rfl

/-- The reads of standard output come first, and the two parts are those of the two streams. -/
theorem exists_seam {last : ℕ}
    (hlast : readOffset size out err last = out.length + err.length) :
    ∃ seam ≤ last, (∀ k < seam, readStreamOf size out err k = .stdout) ∧
      (∀ k, seam ≤ k → k < last → readStreamOf size out err k = .stderr) ∧
      ((List.range seam).map (readPiece size out err)).flatten = out := by
  by_cases herr : err = []
  · refine ⟨last, le_refl _, fun k _ => if_pos (.inr herr), fun k hk hlt => absurd hk ?_, ?_⟩
    · exact not_le.mpr hlt
    · rw [flatten_readPiece, hlast, ← length_append, take_length, herr, append_nil]
  · have hmono : Monotone (readOffset size out err) :=
      monotone_nat_of_le_succ (readOffset_mono size out err)
    have hsome : ∃ k, out.length ≤ readOffset size out err k :=
      ⟨last, by rw [hlast]; exact Nat.le_add_right _ _⟩
    obtain ⟨seam, hseam, hfirst⟩ : ∃ seam, out.length ≤ readOffset size out err seam ∧
        ∀ k < seam, readOffset size out err k < out.length :=
      ⟨Nat.find hsome, Nat.find_spec hsome, fun k hk => not_le.mp (Nat.find_min hsome hk)⟩
    have hexact : readOffset size out err seam = out.length := by
      cases seam with
      | zero => exact le_antisymm (Nat.zero_le _) hseam
      | succ k =>
        have hbefore := hfirst k (Nat.lt_succ_self k)
        rw [readOffset, if_pos hbefore] at hseam ⊢
        omega
    refine ⟨seam, ?_, fun k hk => if_pos (.inl (hfirst k hk)), fun k hk _ => if_neg ?_, ?_⟩
    · by_contra hlt
      have hbefore := hfirst last (not_le.mp hlt)
      omega
    · exact not_or.mpr ⟨not_lt.mpr (hseam.trans (hmono hk)), herr⟩
    · rw [flatten_readPiece, hexact, take_left]

end

/-! ## Faithful reads -/

/-- The chunks are the texts of pieces of standard output and then of standard error, which make up
the two streams, and their texts make up the text of both. -/
structure Delivers (chunks : List StreamOutputChunk) (out err : List UInt8) : Prop where
  pieces : ∃ outs errs : List (List UInt8), outs.flatten = out ∧ errs.flatten = err ∧
    chunks.map (fun chunk => (chunk.stream, chunk.data)) =
      outs.map (fun data => (.stdout, fromUtf8Lossy data)) ++
        errs.map (fun data => (.stderr, fromUtf8Lossy data))
  text : String.join (chunks.map StreamOutputChunk.data) = fromUtf8Lossy (out ++ err)

/-- The reads of a client end, and deliver the two streams. -/
def StreamsFaithfully {σ : Type*} (read : σ → Option ℕ → Option (StreamOutputChunk × σ))
    (requests : ℕ → Option ℕ) (s : σ) (out err : List UInt8) : Prop :=
  ∃ rounds chunks, readToEof read requests rounds 0 s = some chunks ∧ Delivers chunks out err

/-- The size of the `k`-th read. -/
def readSize (limits : StreamLimits) (requests : ℕ → Option ℕ) (k : ℕ) : ℕ :=
  min (max ((requests k).getD limits.max_stream_chunk_bytes) 1) limits.max_stream_chunk_bytes

theorem readSize_pos (limits : StreamLimits) (requests : ℕ → Option ℕ) (k : ℕ) :
    0 < readSize limits requests k :=
  lt_min (lt_max_of_lt_right Nat.one_pos) limits.chunk_pos

/-- No read ends inside a character, or inside an ill-formed sequence that is replaced as one. -/
def CutsBetweenUnits (size : ℕ → ℕ) (out err : List UInt8) : Prop :=
  ∀ k, ¬Inside ((out ++ err).take (readOffset size out err k))
    ((out ++ err).drop (readOffset size out err k))

section

variable {σ : Type*} {read : σ → Option ℕ → Option (StreamOutputChunk × σ)}
  {requests : ℕ → Option ℕ}

/-- A session whose reads are those of the queue that it holds. -/
def ReadsQueue (read : σ → Option ℕ → Option (StreamOutputChunk × σ)) (limits : StreamLimits)
    (holds : σ → List OutputChunk → Prop) : Prop :=
  ∀ s queue max_bytes, holds s queue → ∃ request_id session_id stream data eof rest s',
    nextOutputChunk queue max_bytes limits.max_stream_chunk_bytes = ((stream, data, eof), rest) ∧
    read s max_bytes = some (⟨request_id, session_id, stream, fromUtf8Lossy data, eof⟩, s') ∧
    holds s' rest

/-- More rounds than are needed change nothing. -/
theorem readToEof_mono {rounds k : ℕ} {s : σ} {chunks : List StreamOutputChunk}
    (h : readToEof read requests rounds k s = some chunks) (more : ℕ) :
    readToEof read requests (rounds + more) k s = some chunks := by
  induction rounds generalizing k s chunks with
  | zero => exact nomatch h
  | succ rounds ih =>
    rw [Nat.add_right_comm]
    rw [readToEof] at h ⊢
    cases hread : read s (requests k) with
    | none =>
      rw [hread] at h
      exact nomatch h
    | some result =>
      obtain ⟨chunk, s'⟩ := result
      rw [hread] at h
      dsimp only at h ⊢
      split_ifs at h ⊢ with heof
      · exact h
      · obtain ⟨rest, hrest, rfl⟩ := Option.map_eq_some_iff.mp h
        rw [ih hrest]
        rfl

theorem readToEof_unique {rounds rounds' k : ℕ} {s : σ} {chunks chunks' : List StreamOutputChunk}
    (h : readToEof read requests rounds k s = some chunks)
    (h' : readToEof read requests rounds' k s = some chunks') : chunks = chunks' := by
  have hmore := readToEof_mono h rounds'
  rw [Nat.add_comm, readToEof_mono h' rounds] at hmore
  exact (Option.some.inj hmore).symm

variable {limits : StreamLimits} {holds : σ → List OutputChunk → Prop} {out err : List UInt8}

/-- The `k`-th read, of a session that holds what is left behind the reads before it. -/
theorem read_eq (hreads : ReadsQueue read limits holds) (k : ℕ)
    (hk : readOffset (readSize limits requests) out err k < out.length + err.length ∨
      out ++ err = []) {s : σ}
    (hs : holds s (queueFrom out err (readOffset (readSize limits requests) out err k))) :
    ∃ request_id session_id s', read s (requests k) =
      some (⟨request_id, session_id, readStreamOf (readSize limits requests) out err k,
        fromUtf8Lossy (readPiece (readSize limits requests) out err k),
        decide (readOffset (readSize limits requests) out err (k + 1) = out.length + err.length)⟩,
        s') ∧
      holds s' (queueFrom out err (readOffset (readSize limits requests) out err (k + 1))) := by
  obtain ⟨request_id, session_id, stream, data, eof, rest, s', hnext, hread, hs'⟩ :=
    hreads s _ (requests k) hs
  have hqueue := nextOutputChunk_queueFrom (readSize limits requests) out err (requests k)
    limits.max_stream_chunk_bytes k rfl hk
  rw [hqueue] at hnext
  simp only [Prod.mk.injEq] at hnext
  obtain ⟨⟨rfl, rfl, rfl⟩, rfl⟩ := hnext
  exact ⟨request_id, session_id, s', hread, hs'⟩

/-- The reads from the `k`-th on, of which the last one leaves nothing. -/
theorem readToEof_eq (hreads : ReadsQueue read limits holds) {last : ℕ}
    (hlast : readOffset (readSize limits requests) out err last = out.length + err.length)
    (hmore : ∀ k, 0 < k → k < last →
      readOffset (readSize limits requests) out err k < out.length + err.length)
    (hstart : 0 < out.length + err.length ∨ out ++ err = []) (rounds k : ℕ)
    (hk : k + (rounds + 1) = last) {s : σ}
    (hs : holds s (queueFrom out err (readOffset (readSize limits requests) out err k))) :
    ∃ chunks, readToEof read requests (rounds + 1) k s = some chunks ∧
      chunks.map (fun chunk => (chunk.stream, chunk.data)) =
        (List.range' k (rounds + 1)).map fun k =>
          (readStreamOf (readSize limits requests) out err k,
            fromUtf8Lossy (readPiece (readSize limits requests) out err k)) := by
  have hleft : ∀ k < last,
      readOffset (readSize limits requests) out err k < out.length + err.length ∨
        out ++ err = [] := by
    intro k hk
    cases k with
    | zero => exact hstart
    | succ k => exact .inl (hmore (k + 1) (Nat.succ_pos k) hk)
  induction rounds generalizing k s with
  | zero =>
    obtain ⟨request_id, session_id, s', hread, -⟩ := read_eq hreads k (hleft k (by omega)) hs
    obtain rfl : k + 1 = last := hk
    rw [readToEof, hread]
    dsimp only
    rw [if_pos (decide_eq_true hlast)]
    exact ⟨_, rfl, rfl⟩
  | succ rounds ih =>
    obtain ⟨request_id, session_id, s', hread, hs'⟩ := read_eq hreads k (hleft k (by omega)) hs
    have hnot := hmore (k + 1) (Nat.succ_pos k) (by omega)
    obtain ⟨chunks, hchunks, hmap⟩ := ih (k + 1) (by omega) hs'
    rw [readToEof, hread]
    dsimp only
    rw [if_neg (by simpa using hnot.ne), hchunks]
    refine ⟨_, rfl, ?_⟩
    rw [map_cons, hmap]
    conv_rhs => rw [List.range'_succ, map_cons]

/-- The texts of the pieces make up the text of the whole exactly where no piece ends inside a
character. -/
theorem flatten_lossy_pieces_iff (size : ℕ → ℕ) (out err : List UInt8) {last : ℕ}
    (hlast : readOffset size out err last = out.length + err.length) :
    (((List.range last).map (readPiece size out err)).map lossy).flatten = lossy (out ++ err) ↔
      CutsBetweenUnits size out err := by
  have hall : ((List.range last).map (readPiece size out err)).flatten = out ++ err := by
    rw [flatten_readPiece, hlast, ← length_append, take_length]
  -- a cut in the list of pieces is the end of a read
  have hcut (k : ℕ) (hk : k ≤ last) : ∀ before later,
      (List.range last).map (readPiece size out err) = before ++ later → before.length = k →
        before.flatten = (out ++ err).take (readOffset size out err k) ∧
          later.flatten = (out ++ err).drop (readOffset size out err k) := by
    rintro before later h rfl
    have hbefore : before = (List.range before.length).map (readPiece size out err) := by
      have htake := congrArg (List.take before.length) h
      rw [take_left, ← map_take, take_range, Nat.min_eq_left hk] at htake
      exact htake.symm
    have hflat := congrArg List.flatten hbefore
    rw [flatten_readPiece] at hflat
    refine ⟨hflat, ?_⟩
    rw [h, flatten_append, hflat] at hall
    exact append_cancel_left (hall.trans (take_append_drop _ _).symm)
  conv_lhs => rw [← hall]
  rw [flatten_lossy_iff]
  constructor
  · intro h k
    rcases Nat.lt_or_ge last k with hgt | hle
    · have hend : readOffset size out err k = out.length + err.length := by
        have hmono : Monotone (readOffset size out err) :=
          monotone_nat_of_le_succ (readOffset_mono size out err)
        have hge := hmono hgt.le
        have hle := readOffset_le size out err k
        omega
      rw [hend, drop_eq_nil_of_le (by simp)]
      exact fun ⟨_, _, _, hb, _⟩ => nomatch hb
    · have hsplit : (List.range last).map (readPiece size out err) =
          ((List.range last).map (readPiece size out err)).take k ++
            ((List.range last).map (readPiece size out err)).drop k :=
        (take_append_drop _ _).symm
      have hnone := h _ _ hsplit
      obtain ⟨hbefore, hlater⟩ := hcut k hle _ _ hsplit (by simp [hle])
      rwa [hbefore, hlater] at hnone
  · intro h before later hsplit
    have hk : before.length ≤ last := by
      have hlength := congrArg List.length hsplit
      rw [length_map, length_range, length_append] at hlength
      omega
    obtain ⟨hbefore, hlater⟩ := hcut before.length hk before later hsplit rfl
    rw [hbefore, hlater]
    exact h _

theorem join_fromUtf8Lossy (pieces : List (List UInt8)) :
    String.join (pieces.map fromUtf8Lossy) = String.ofList (pieces.map lossy).flatten := by
  apply String.toList_injective
  rw [String.toList_join, flatMap_map, String.toList_ofList, flatMap_def]
  simp only [fromUtf8Lossy, String.toList_ofList]

/-- The reads of a session that holds what a command has written. -/
theorem streamsFaithfully_iff (hreads : ReadsQueue read limits holds) {s : σ}
    (hs : holds s (queueFrom out err 0)) :
    StreamsFaithfully read requests s out err ↔
      CutsBetweenUnits (readSize limits requests) out err := by
  obtain ⟨total, htotal, hbefore⟩ := exists_readOffset_eq (readSize limits requests) out err
    (readSize_pos limits requests)
  -- a client reads once also where nothing was written
  obtain ⟨rounds, hrounds⟩ : ∃ rounds, rounds + 1 = max total 1 := ⟨max total 1 - 1, by omega⟩
  have hlast : readOffset (readSize limits requests) out err (rounds + 1) =
      out.length + err.length := by
    have hmono := monotone_nat_of_le_succ (readOffset_mono (readSize limits requests) out err)
    have hge := hmono (show total ≤ rounds + 1 by omega)
    have hle := readOffset_le (readSize limits requests) out err (rounds + 1)
    omega
  have hmore : ∀ k, 0 < k → k < rounds + 1 →
      readOffset (readSize limits requests) out err k < out.length + err.length :=
    fun k hpos hk => hbefore k (by omega)
  have hstart : 0 < out.length + err.length ∨ out ++ err = [] := by
    rcases Nat.eq_zero_or_pos (out.length + err.length) with hzero | hpos
    · exact .inr (length_eq_zero_iff.mp (by rw [length_append, hzero]))
    · exact .inl hpos
  obtain ⟨chunks, hchunks, hmap⟩ := readToEof_eq hreads hlast hmore hstart rounds 0
    (Nat.zero_add _) hs
  have hdata : chunks.map StreamOutputChunk.data =
      ((List.range (rounds + 1)).map
        (readPiece (readSize limits requests) out err)).map fromUtf8Lossy := by
    have hsnd := congrArg (List.map Prod.snd) hmap
    rw [map_map, map_map] at hsnd
    rw [map_map, range_eq_range']
    exact hsnd
  rw [← flatten_lossy_pieces_iff _ out err hlast]
  constructor
  · rintro ⟨rounds', chunks', hchunks', hdelivers⟩
    obtain rfl := readToEof_unique hchunks hchunks'
    have htext := hdelivers.text
    rw [hdata, join_fromUtf8Lossy] at htext
    exact String.ofList_injective htext
  · intro htext
    refine ⟨rounds + 1, chunks, hchunks, ?_, ?_⟩
    · obtain ⟨seam, hseam, hout, herr, hflat⟩ :=
        exists_seam (readSize limits requests) out err hlast
      have hsplit : List.range' 0 (rounds + 1) =
          List.range' 0 seam ++ List.range' seam (rounds + 1 - seam) := by
        have happend : List.range' 0 seam ++ List.range' (0 + seam) (rounds + 1 - seam) =
            List.range' 0 (seam + (rounds + 1 - seam)) := List.range'_append_1
        rwa [Nat.zero_add, Nat.add_sub_cancel' hseam, eq_comm] at happend
      refine ⟨(List.range' 0 seam).map (readPiece (readSize limits requests) out err),
        (List.range' seam (rounds + 1 - seam)).map (readPiece (readSize limits requests) out err),
        ?_, ?_, ?_⟩
      · rw [← range_eq_range', hflat]
      · have hall := flatten_readPiece (readSize limits requests) out err (rounds + 1)
        rw [hlast, ← length_append, take_length, range_eq_range', hsplit,
          map_append, flatten_append, ← range_eq_range', hflat] at hall
        exact append_cancel_left hall
      · rw [hmap, hsplit, map_append, map_map, map_map]
        congr 1
        · refine map_congr_left fun k hk => ?_
          rw [mem_range'_1] at hk
          rw [hout k (by omega)]
          rfl
        · refine map_congr_left fun k hk => ?_
          rw [mem_range'_1] at hk
          rw [herr k hk.1 (by omega)]
          rfl
    · rw [hdata, join_fromUtf8Lossy, htext]
      rfl

end

/-! ## The two sessions -/

/-- A local session that is ready reads from its queue. -/
theorem readsQueue_readLocal (limits : StreamLimits) :
    ReadsQueue readLocal limits fun session queue =>
      session.status = .ready ∧ session.limits = limits ∧ session.output_queue = queue := by
  rintro session queue max_bytes ⟨hstatus, rfl, rfl⟩
  obtain ⟨status, session_id, limits, output_queue, next_request_number⟩ := session
  obtain rfl : status = .ready := hstatus
  exact ⟨_, _, _, _, _, _, _, rfl, rfl, rfl, rfl, rfl⟩

/-- A session of the daemon reads from its queue. -/
theorem readsQueue_readDaemon (limits : StreamLimits) (request_id session_id : String) :
    ReadsQueue (readDaemon request_id session_id) limits fun manager queue =>
      manager.max_stream_chunk_bytes = limits.max_stream_chunk_bytes ∧
        ∃ session, manager.sessions session_id = some session ∧ session.output_queue = queue := by
  rintro manager queue max_bytes ⟨hlimit, session, hsession, rfl⟩
  let result := nextOutputChunk session.output_queue max_bytes limits.max_stream_chunk_bytes
  let left : SessionManager := { manager with
    sessions := update manager.sessions session_id
      (some { session with output_queue := result.2 }) }
  have hread : readDaemon request_id session_id manager max_bytes =
      some (⟨request_id, session_id, result.1.1, fromUtf8Lossy result.1.2.1, result.1.2.2⟩,
        left) := by
    unfold readDaemon handleRequest
    dsimp only
    rw [SessionManager.nextStreamChunk_eq hsession]
    simp only [left, result, hlimit]
  exact ⟨request_id, session_id, _, _, _, _, left, rfl, hread, hlimit, _,
    update_self .., rfl⟩

/-- Behind a command, the reads of a session end and deliver the bytes that are kept, whose text
their texts make up exactly where no read ends inside a character: of a local session, and of one of
the daemon. -/
theorem streamOutput_faithful_iff (limits : StreamLimits) (stdout stderr : List UInt8)
    (requests : ℕ → Option ℕ) (session : LocalProcessShellSession)
    (hready : session.status = .ready) (hlimits : session.limits = limits)
    (manager stored : SessionManager) (request_id session_id : String)
    (houtput : manager.max_session_output_bytes = limits.max_session_output_bytes)
    (hchunk : manager.max_stream_chunk_bytes = limits.max_stream_chunk_bytes)
    (hstored : manager.storeCommandOutput session_id stdout stderr = .ok stored) :
    (StreamsFaithfully readLocal requests (session.withOutput stdout stderr)
        (keptOut limits stdout) (keptErr limits stdout stderr) ↔
      CutsBetweenUnits (readSize limits requests) (keptOut limits stdout)
        (keptErr limits stdout stderr)) ∧
    (StreamsFaithfully (readDaemon request_id session_id) requests stored
        (keptOut limits stdout) (keptErr limits stdout stderr) ↔
      CutsBetweenUnits (readSize limits requests) (keptOut limits stdout)
        (keptErr limits stdout stderr)) := by
  constructor
  · refine streamsFaithfully_iff (readsQueue_readLocal limits) ⟨hready, hlimits, ?_⟩
    rw [← buildOutputQueue_eq, ← hlimits]
    rfl
  · refine streamsFaithfully_iff (readsQueue_readDaemon limits request_id session_id) ?_
    unfold SessionManager.storeCommandOutput at hstored
    split at hstored
    · exact nomatch hstored
    · cases hstored
      refine ⟨hchunk, _, update_self .., ?_⟩
      rw [← buildOutputQueue_eq, ← houtput]

/-- The limits of the default configuration. -/
def defaultStreamLimits : StreamLimits := ⟨65536, 8192, by decide, by decide⟩

/-- A local session behind its start. -/
def startedSession : LocalProcessShellSession :=
  ⟨.ready, "local-session-1", defaultStreamLimits, [], 0⟩

/-- A session of the daemon that nothing has run in. -/
def startedManager : SessionManager :=
  { sessions := update (fun _ => none) "session-000001" (some ⟨⟨"sh", none, []⟩, []⟩) }

/-- `ok`, read byte by byte. -/
theorem streamOutput_ok_faithful :
    StreamsFaithfully readLocal (fun _ => some 1) (startedSession.withOutput [0x6F, 0x6B] [])
        [0x6F, 0x6B] [] ∧
      StreamsFaithfully (readDaemon "1" "session-000001") (fun _ => some 1)
        { startedManager with
          sessions := update startedManager.sessions "session-000001"
            (some ⟨⟨"sh", none, []⟩, [⟨.stdout, [0x6F, 0x6B]⟩]⟩) } [0x6F, 0x6B] [] := by
  have hcuts : CutsBetweenUnits (readSize defaultStreamLimits fun _ => some 1) [0x6F, 0x6B] [] := by
    intro k
    have hle := readOffset_le (readSize defaultStreamLimits fun _ => some 1) [0x6F, 0x6B] [] k
    generalize readOffset _ _ _ k = offset at hle
    revert hle
    revert offset
    decide
  have hiff := streamOutput_faithful_iff defaultStreamLimits [0x6F, 0x6B] [] (fun _ => some 1)
    startedSession rfl rfl startedManager _ "1" "session-000001" rfl rfl rfl
  exact ⟨hiff.1.mpr hcuts, hiff.2.mpr hcuts⟩

/-- `é`, read byte by byte: its two bytes are decoded each for itself. -/
theorem streamOutput_split_not_faithful :
    ¬StreamsFaithfully readLocal (fun _ => some 1) (startedSession.withOutput [0xC3, 0xA9] [])
      (keptOut defaultStreamLimits [0xC3, 0xA9]) (keptErr defaultStreamLimits [0xC3, 0xA9] []) := by
  rw [streamsFaithfully_iff (readsQueue_readLocal defaultStreamLimits) ⟨rfl, rfl, rfl⟩]
  exact fun hcuts => hcuts 1 (by decide)

end Oxydra
