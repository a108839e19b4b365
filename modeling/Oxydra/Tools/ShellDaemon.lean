import Oxydra.Library.TextLaws

/-!
# The shell daemon

`ShellDaemonServer` of `crates/oxydra-shelld/src/lib.rs` and the messages of its protocol
(`crates/types/src/runner.rs`). The daemon holds sessions under numbered names. It runs a command in
the runtime of a session, keeps what the command wrote, and hands that out in chunks. Each request
of a connection gets one reply, and the reply carries the id of the request.

The system decides what becomes of a command (`CommandRun`), and another connection may change the
sessions while it runs, so both are inputs of `handleRequest`.
-/

namespace Oxydra

/-! ## Messages -/

inductive ShellOutputStream where
  | stdout
  | stderr
  deriving DecidableEq, Repr

structure SpawnSession where
  request_id : String
  shell : Option String
  cwd : Option String
  env : List (String × String)
  deriving DecidableEq, Repr

structure ExecCommand where
  request_id : String
  session_id : String
  command : String
  timeout_secs : Option ℕ
  deriving DecidableEq, Repr

structure StreamOutput where
  request_id : String
  session_id : String
  max_bytes : Option ℕ
  deriving DecidableEq, Repr

structure KillSession where
  request_id : String
  session_id : String
  deriving DecidableEq, Repr

inductive ShellDaemonRequest where
  | spawnSession (request : SpawnSession)
  | execCommand (request : ExecCommand)
  | streamOutput (request : StreamOutput)
  | killSession (request : KillSession)
  deriving DecidableEq, Repr

structure SpawnSessionAck where
  request_id : String
  session_id : String
  deriving DecidableEq, Repr

structure ExecCommandAck where
  request_id : String
  accepted : Bool
  deriving DecidableEq, Repr

structure StreamOutputChunk where
  request_id : String
  session_id : String
  stream : ShellOutputStream
  data : String
  eof : Bool
  deriving DecidableEq, Repr

structure KillSessionAck where
  request_id : String
  killed : Bool
  deriving DecidableEq, Repr

structure ShellDaemonError where
  request_id : Option String
  message : String
  deriving DecidableEq, Repr

inductive ShellDaemonResponse where
  | spawnSession (ack : SpawnSessionAck)
  | execCommand (ack : ExecCommandAck)
  | streamOutput (chunk : StreamOutputChunk)
  | killSession (ack : KillSessionAck)
  | error (failure : ShellDaemonError)
  deriving DecidableEq, Repr

/-- The id of a request. -/
def ShellDaemonRequest.requestId : ShellDaemonRequest → String
  | .spawnSession request => request.request_id
  | .execCommand request => request.request_id
  | .streamOutput request => request.request_id
  | .killSession request => request.request_id

/-- The session that a request is for; a new session has no name yet. -/
def ShellDaemonRequest.sessionId : ShellDaemonRequest → Option String
  | .spawnSession _ => none
  | .execCommand request => some request.session_id
  | .streamOutput request => some request.session_id
  | .killSession request => some request.session_id

/-- The id of the request that a response is for. -/
def ShellDaemonResponse.requestId : ShellDaemonResponse → Option String
  | .spawnSession ack => some ack.request_id
  | .execCommand ack => some ack.request_id
  | .streamOutput chunk => some chunk.request_id
  | .killSession ack => some ack.request_id
  | .error failure => failure.request_id

/-- The session that a response names. -/
def ShellDaemonResponse.sessionId : ShellDaemonResponse → Option String
  | .streamOutput chunk => some chunk.session_id
  | _ => none

/-- A name with a number of at least six digits: `format!("{name}-{:06}")`. -/
def numberedId (name : String) (number : ℕ) : String :=
  name ++ "-" ++ String.ofList (Text.zeroPad 6 number)

/-- The number of a numbered name is read back. -/
theorem numberedId_inj {name other : String} {m n : ℕ}
    (h : numberedId name m = numberedId other n) : m = n := by
  have hlists := congrArg String.toList h
  simp only [numberedId, String.toList_append, String.toList_ofList, List.append_assoc] at hlists
  exact Text.zeroPad_after_dash (a := name.toList) (b := other.toList) hlists

/-! ## Sessions -/

structure SessionRuntime where
  shell : String
  cwd : Option String
  env : List (String × String)
  deriving DecidableEq, Repr

structure OutputChunk where
  stream : ShellOutputStream
  data : List UInt8
  deriving DecidableEq, Repr

/-- `Session`. -/
structure DaemonSession where
  runtime : SessionRuntime
  output_queue : List OutputChunk
  deriving DecidableEq, Repr

structure SessionManager where
  next_session_number : ℕ := 0
  max_session_output_bytes : ℕ := 65536
  max_stream_chunk_bytes : ℕ := 8192
  sessions : String → Option DaemonSession := fun _ => none

inductive SessionError where
  | unknownSession (session_id : String)
  | emptyCommand
  | commandTimeout (timeout_secs : ℕ)
  | executeCommand (error : String)
  deriving DecidableEq, Repr

/-- The `Display` text of a `SessionError`. -/
def SessionError.display : SessionError → String
  | .unknownSession session_id => s!"session `{session_id}` not found"
  | .emptyCommand => "command must not be empty"
  | .commandTimeout timeout_secs => s!"command execution timed out after {timeout_secs}s"
  | .executeCommand error => s!"failed to execute command: {error}"

/-- `normalize_optional_value`. -/
def normalizeOptionalValue (value : String) : Option String :=
  if Text.trim value = "" then none else some (Text.trim value)

/-- `push_bounded_chunk`: the queue, and the bytes that remain. -/
def pushBoundedChunk (queue : List OutputChunk) (stream : ShellOutputStream) (data : List UInt8)
    (remaining : ℕ) : List OutputChunk × ℕ :=
  if remaining = 0 ∨ data = [] then (queue, remaining)
  else
    let take := min data.length remaining
    (queue ++ [⟨stream, data.take take⟩], remaining - take)

/-- `build_output_queue`. -/
def buildOutputQueue (stdout stderr : List UInt8) (max_output_bytes : ℕ) : List OutputChunk :=
  let (queue, remaining) := pushBoundedChunk [] .stdout stdout max_output_bytes
  (pushBoundedChunk queue .stderr stderr remaining).1

namespace SessionManager

variable (manager : SessionManager)

/-- `spawn_session`. -/
def spawnSession (request : SpawnSession) : SpawnSessionAck × SessionManager :=
  let number := manager.next_session_number + 1
  let session_id := numberedId "session" number
  let runtime : SessionRuntime :=
    { shell := (request.shell.bind normalizeOptionalValue).getD "/bin/sh"
      cwd := request.cwd.bind normalizeOptionalValue
      env := request.env }
  (⟨request.request_id, session_id⟩,
    { manager with
      next_session_number := number
      sessions := Function.update manager.sessions session_id (some ⟨runtime, []⟩) })

/-- `session_runtime`. -/
def sessionRuntime (session_id : String) : Except SessionError SessionRuntime :=
  match manager.sessions session_id with
  | some session => .ok session.runtime
  | none => .error (.unknownSession session_id)

/-- `store_command_output`. -/
def storeCommandOutput (session_id : String) (stdout stderr : List UInt8) :
    Except SessionError SessionManager :=
  match manager.sessions session_id with
  | none => .error (.unknownSession session_id)
  | some session =>
    let output_queue := buildOutputQueue stdout stderr manager.max_session_output_bytes
    .ok { manager with
      sessions := Function.update manager.sessions session_id (some { session with output_queue }) }

/-- `next_stream_chunk`. -/
def nextStreamChunk (session_id : String) (max_bytes : Option ℕ) :
    Except SessionError ((ShellOutputStream × List UInt8 × Bool) × SessionManager) :=
  match manager.sessions session_id with
  | none => .error (.unknownSession session_id)
  | some session =>
    let bounded_max :=
      min (max (max_bytes.getD manager.max_stream_chunk_bytes) 1) manager.max_stream_chunk_bytes
    match session.output_queue with
    | [] => .ok ((.stdout, [], true), manager)
    | chunk :: rest =>
      let output_queue :=
        if bounded_max < chunk.data.length then ⟨chunk.stream, chunk.data.drop bounded_max⟩ :: rest
        else rest
      .ok ((chunk.stream, chunk.data.take bounded_max, output_queue = []),
        { manager with
          sessions :=
            Function.update manager.sessions session_id (some { session with output_queue }) })

/-- `kill_session`. -/
def killSession (session_id : String) : Bool × SessionManager :=
  ((manager.sessions session_id).isSome,
    { manager with sessions := Function.update manager.sessions session_id none })

end SessionManager

/-! ## Requests -/

/-- What the system makes of a command: its shell is not started, or it is, and ends in time or not
with what it wrote or with an error. -/
inductive CommandRun where
  | notStarted (error : String)
  | started (in_time : Bool) (output : Except String (List UInt8 × List UInt8))

/-- `run_shell_command`: the output, or why there is none. -/
def runShellCommand (run : CommandRun) (timeout_secs : Option ℕ) :
    Except SessionError (List UInt8 × List UInt8) :=
  match run with
  | .notStarted error => .error (.executeCommand error)
  | .started in_time output =>
    match timeout_secs, in_time with
    | some timeout_secs, false => .error (.commandTimeout timeout_secs)
    | _, _ => output.mapError .executeCommand

/-- `exec_command`; the sessions are those of `meanwhile` when the command has ended. -/
def SessionManager.execCommand (manager meanwhile : SessionManager) (run : CommandRun)
    (request : ExecCommand) : Except SessionError ExecCommandAck × SessionManager :=
  if Text.trim request.command = "" then (.error .emptyCommand, manager)
  else
    match manager.sessionRuntime request.session_id with
    | .error error => (.error error, manager)
    | .ok _ =>
      match runShellCommand run request.timeout_secs with
      | .error error => (.error error, meanwhile)
      | .ok (stdout, stderr) =>
        match meanwhile.storeCommandOutput request.session_id stdout stderr with
        | .error error => (.error error, meanwhile)
        | .ok stored => (.ok ⟨request.request_id, true⟩, stored)

/-- `to_error_response`. -/
def toErrorResponse (request_id : Option String) (error : SessionError) : ShellDaemonResponse :=
  .error ⟨request_id, error.display⟩

/-- `handle_request`, and the sessions after it. -/
def handleRequest (from_utf8_lossy : List UInt8 → String) (manager meanwhile : SessionManager)
    (run : CommandRun) : ShellDaemonRequest → ShellDaemonResponse × SessionManager
  | .spawnSession request =>
    let (ack, manager) := manager.spawnSession request
    (.spawnSession ack, manager)
  | .execCommand request =>
    match manager.execCommand meanwhile run request with
    | (.ok ack, manager) => (.execCommand ack, manager)
    | (.error error, manager) => (toErrorResponse request.request_id error, manager)
  | .streamOutput request =>
    match manager.nextStreamChunk request.session_id request.max_bytes with
    | .ok ((stream, data, eof), manager) =>
      (.streamOutput ⟨request.request_id, request.session_id, stream, from_utf8_lossy data, eof⟩,
        manager)
    | .error error => (toErrorResponse request.request_id error, manager)
  | .killSession request =>
    let (killed, manager) := manager.killSession request.session_id
    (.killSession ⟨request.request_id, killed⟩, manager)

/-- Whether the daemon starts a shell for a command. -/
def executes (manager : SessionManager) (run : CommandRun) (request : ExecCommand) : Bool :=
  Text.trim request.command ≠ "" && (manager.sessions request.session_id).isSome &&
    match run with
    | .notStarted _ => false
    | .started _ _ => true

/-- A command that is acknowledged was run. -/
theorem SessionManager.execCommand_ok {manager meanwhile : SessionManager} {run : CommandRun}
    {request : ExecCommand} {ack : ExecCommandAck}
    (h : (manager.execCommand meanwhile run request).1 = .ok ack) :
    executes manager run request ∧ ack = ⟨request.request_id, true⟩ := by
  unfold execCommand sessionRuntime at h
  unfold executes
  by_cases hempty : Text.trim request.command = ""
  · simp [hempty] at h
  rw [if_neg hempty] at h
  cases hsession : manager.sessions request.session_id with
  | none => simp [hsession] at h
  | some session =>
    simp only [hsession] at h
    cases hrun : runShellCommand run request.timeout_secs with
    | error error => simp [hrun] at h
    | ok output =>
      simp only [hrun] at h
      have hstarted : ∃ in_time output, run = .started in_time output := by
        cases run with
        | notStarted error => simp [runShellCommand] at hrun
        | started in_time output => exact ⟨in_time, output, rfl⟩
      obtain ⟨in_time, written, rfl⟩ := hstarted
      split at h
      · cases h
      · exact ⟨by simp [hempty], (Except.ok.inj h).symm⟩

/-- A response is for a request: it carries its id, and no other session. -/
structure ShellDaemonResponse.IsFor (response : ShellDaemonResponse)
    (request : ShellDaemonRequest) : Prop where
  requestId : response.requestId = some request.requestId
  sessionId : ∀ session_id ∈ response.sessionId, request.sessionId = some session_id

theorem toErrorResponse_isFor (request : ShellDaemonRequest) (error : SessionError) :
    (toErrorResponse request.requestId error).IsFor request := by
  constructor
  · rfl
  · intro session_id h
    cases h

/-- What the daemon replies to a request is for that request. -/
theorem handleRequest_isFor (from_utf8_lossy : List UInt8 → String)
    (manager meanwhile : SessionManager) (run : CommandRun) (request : ShellDaemonRequest) :
    (handleRequest from_utf8_lossy manager meanwhile run request).1.IsFor request := by
  cases request with
  | spawnSession request => exact ⟨rfl, by simp [handleRequest, ShellDaemonResponse.sessionId]⟩
  | killSession request => exact ⟨rfl, by simp [handleRequest, ShellDaemonResponse.sessionId]⟩
  | execCommand request =>
    simp only [handleRequest]
    split
    · next ack after h =>
      have hack := (SessionManager.execCommand_ok (congrArg Prod.fst h)).2
      exact ⟨by rw [hack]; rfl, by simp [ShellDaemonResponse.sessionId]⟩
    · exact toErrorResponse_isFor (.execCommand request) _
  | streamOutput request =>
    simp only [handleRequest]
    split
    · exact ⟨rfl, by simp [ShellDaemonResponse.sessionId, ShellDaemonRequest.sessionId]⟩
    · exact toErrorResponse_isFor (.streamOutput request) _

end Oxydra
