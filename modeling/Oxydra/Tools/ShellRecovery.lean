import Oxydra.Tools.ShellConnection

/-!
# Recovery of a shell session

`VsockShellSession` of `crates/tools/src/sandbox/mod.rs`: `exec_command` sends a command to the
daemon, and where that fails with an error that may come of stale replies, it opens a new connection
with a new session and sends the command again. Errors that the daemon itself replies count as such,
a timeout of the command among them, so what has run may run again. `at_most_once_iff` says when.

What the connection makes of a request is an input (`Exchange`): whether its frame is sent, whether
and with which sessions the daemon comes to handle it, and what is read.
-/

namespace Oxydra

/-! ## The session -/

inductive SidecarTransport where
  | unix
  | vsock
  deriving DecidableEq, Repr

structure SidecarEndpoint where
  transport : SidecarTransport
  address : String
  deriving DecidableEq, Repr

/-- `SessionStatus`; a session on a local process has a type of its own. -/
inductive SessionStatus where
  | ready (transport : SidecarTransport) (address : String)
  | unavailable (reason : SessionUnavailableReason) (detail : String)
  deriving DecidableEq, Repr

/-- `status_error`. -/
def SessionStatus.error : SessionStatus → SandboxError
  | .unavailable reason detail => .sessionUnavailable reason detail
  | .ready _ _ => .sessionUnavailable .protocolError "session runtime is not initialized"

/-- `ShellSessionConfig`, the fields that a new session is opened with. -/
structure ShellSessionConfig where
  shell : Option String := none
  cwd : Option String := none
  env : List (String × String) := []
  deriving DecidableEq, Repr

/-- `VsockShellSession`, with its client by the number of its last request. -/
structure VsockShellSession where
  status : SessionStatus
  session_id : Option String
  client : Option ℕ
  reconnect_endpoint : Option SidecarEndpoint
  reconnect_config : ShellSessionConfig
  deriving DecidableEq, Repr

/-- `sidecar_unix_bridge_path`. -/
def sidecarUnixBridgePath (address : String) : Option String :=
  let address := (Text.trim address).toList
  if address = [] then none
  else if "unix://".toList.isPrefixOf address then
    let path := address.drop "unix://".toList.length
    if path = [] then none else some (String.ofList path)
  else if address.head? = some '/' then some (String.ofList address)
  else none

/-! ## One request -/

/-- What a client reads after its request. -/
inductive Reading where
  | own
  | stale (response : ShellDaemonResponse)
  | closed
  | failed (error : String)
  | undecodable (error : String)

/-- The daemon comes to a request: the sessions then, those when its command has ended, and what
becomes of the command. -/
structure Handling where
  manager : SessionManager
  meanwhile : SessionManager
  run : CommandRun

/-- What becomes of one request: whether its frame is sent, whether the daemon handles it, at once
or later, and what the client reads. -/
structure Exchange where
  sent : Except String Unit
  handled : Option Handling
  reading : Reading

namespace Exchange

variable (exchange : Exchange)

/-- `send_request` and `read_response`. -/
def response (from_utf8_lossy : List UInt8 → String) (request : ShellDaemonRequest) :
    Except SandboxError ShellDaemonResponse :=
  match exchange.sent, exchange.reading with
  | .error error, _ => .error (.transport error)
  | .ok _, .own =>
    match exchange.handled with
    | none => .error .connectionClosed
    | some handling =>
      .ok (handleRequest from_utf8_lossy handling.manager handling.meanwhile handling.run request).1
  | .ok _, .stale response => .ok response
  | .ok _, .closed => .error .connectionClosed
  | .ok _, .failed error => .error (.transport error)
  | .ok _, .undecodable error => .error (.deserializeResponse error)

/-- Whether the daemon runs the command of a request. -/
def runs (request : ExecCommand) : Bool :=
  exchange.sent.isOk && exchange.handled.any fun handling =>
    executes handling.manager handling.run request

/-- Only a command with text runs. -/
theorem runs_command {exchange : Exchange} {request : ExecCommand} (h : exchange.runs request) :
    Text.trim request.command ≠ "" := by
  unfold runs executes at h
  simp only [Bool.and_eq_true, Option.any_eq_true, decide_eq_true_eq] at h
  obtain ⟨_, _, _, ⟨hcommand, _⟩, _⟩ := h
  exact hcommand

end Exchange

/-- The outcome of `exec_command`: its result, the session, and how often the daemon runs the
command. -/
structure ExecOutcome where
  result : Except SandboxError ExecCommandAck
  session : VsockShellSession
  executions : ℕ

/-- What becomes of the requests of one call: the command, a new connection with the request for a
session on it, and the command again. -/
structure CallPattern where
  first : Exchange
  connected : Except String Unit
  spawned : Exchange
  second : Exchange

namespace VsockShellSession

variable (from_utf8_lossy : List UInt8 → String) (session : VsockShellSession)

/-- `is_recoverable_desync`. -/
def isRecoverableDesync : SandboxError → Bool
  | .unexpectedResponse _ _ => true
  | .shellDaemon _ _ => true
  | .connectionClosed => true
  | .transport _ => true
  | .deserializeResponse _ => true
  | .sessionUnavailable _ _ => false
  | .emptyCommand => false
  | .shellDaemonRejected _ => false

/-- The acknowledgement of a command that a client takes from a response. -/
def takeAck (request : ExecCommand) (response : ShellDaemonResponse) :
    Except SandboxError ExecCommandAck :=
  match takeResponse (.execCommand request) response with
  | .error error => .error error
  | .ok (.execCommand ack) => .ok ack
  | .ok other => .error (.unexpectedResponse "exec_command" (responseLabel other))

/-- `rpc_exec_command`. -/
def rpcExecCommand (exchange : Exchange) (command : String) (timeout_secs : Option ℕ) :
    ExecOutcome :=
  match session.session_id, session.client with
  | some session_id, some number =>
    let request : ExecCommand :=
      ⟨numberedId "exec" (number + 1), session_id, command, timeout_secs⟩
    { result := exchange.response from_utf8_lossy (.execCommand request) >>= takeAck request
      session := { session with client := some (number + 1) }
      executions := if exchange.runs request then 1 else 0 }
  | _, _ => ⟨.error session.status.error, session, 0⟩

/-- The request for a session on a new connection. -/
def spawnRequest (config : ShellSessionConfig) : ShellDaemonRequest :=
  .spawnSession
    ⟨numberedId "spawn" 1, config.shell, config.cwd.bind normalizeOptionalValue, config.env⟩

/-- The acknowledgement of a new session that a client takes from a response. -/
def takeOpened (request : ShellDaemonRequest) (response : ShellDaemonResponse) :
    Except SandboxError SpawnSessionAck :=
  match takeResponse request response with
  | .error error => .error error
  | .ok (.spawnSession ack) => .ok ack
  | .ok other => .error (.unexpectedResponse "spawn_session" (responseLabel other))

/-- `reconnect`. -/
def reconnect (connected : Except String Unit) (spawned : Exchange) :
    Except SandboxError Unit × VsockShellSession :=
  match session.reconnect_endpoint with
  | none =>
    (.error (.sessionUnavailable .protocolError "cannot reconnect: no sidecar endpoint stored"),
      session)
  | some endpoint =>
    let session := { session with client := none, session_id := none }
    match sidecarUnixBridgePath endpoint.address with
    | none =>
      (.error (.sessionUnavailable .invalidAddress
        s!"cannot reconnect: unable to resolve socket path from `{endpoint.address}`"), session)
    | some socket_path =>
      match connected with
      | .error error =>
        (.error (.sessionUnavailable .connectionFailed
          s!"reconnect failed: could not connect to `{socket_path}`: {error}"), session)
      | .ok _ =>
        let request := spawnRequest session.reconnect_config
        match spawned.response from_utf8_lossy request >>= takeOpened request with
        | .error error => (.error error, session)
        | .ok ack =>
          (.ok (), { session with
            session_id := some ack.session_id
            client := some 1
            status := .ready endpoint.transport endpoint.address })

/-- `exec_command`. -/
def execCommand (pattern : CallPattern) (command : String) (timeout_secs : Option ℕ) :
    ExecOutcome :=
  if Text.trim command = "" then ⟨.error .emptyCommand, session, 0⟩
  else
    let first := session.rpcExecCommand from_utf8_lossy pattern.first command timeout_secs
    match first.result with
    | .ok _ => first
    | .error error =>
      if isRecoverableDesync error && first.session.reconnect_endpoint.isSome then
        match first.session.reconnect from_utf8_lossy pattern.connected pattern.spawned with
        | (.error error, session) => { first with result := .error error, session }
        | (.ok (), session) =>
          let second := session.rpcExecCommand from_utf8_lossy pattern.second command timeout_secs
          { second with executions := first.executions + second.executions }
      else first

/-! ## How often a command runs -/

/-- The command runs on the first request, what is read for it is no acknowledgement, a new
connection and a session on it are to be had, and there the command runs again. -/
def RunsAgain (pattern : CallPattern) (command : String) (timeout_secs : Option ℕ) : Prop :=
  ∃ (session_id : String) (number : ℕ) (endpoint : SidecarEndpoint) (opened : SpawnSessionAck),
    session.session_id = some session_id ∧ session.client = some number ∧
    let request : ExecCommand :=
      ⟨numberedId "exec" (number + 1), session_id, command, timeout_secs⟩
    pattern.first.runs request ∧
    (∀ ack, pattern.first.response from_utf8_lossy (.execCommand request) ≠
      .ok (.execCommand ack)) ∧
    session.reconnect_endpoint = some endpoint ∧
    (sidecarUnixBridgePath endpoint.address).isSome ∧ pattern.connected = .ok () ∧
    pattern.spawned.response from_utf8_lossy (spawnRequest session.reconnect_config) =
      .ok (.spawnSession opened) ∧
    pattern.second.runs ⟨numberedId "exec" 2, opened.session_id, command, timeout_secs⟩

variable {from_utf8_lossy : List UInt8 → String} {session : VsockShellSession}

/-- Every failure to get a response is recoverable. -/
theorem isRecoverableDesync_of_response {exchange : Exchange} {request : ShellDaemonRequest}
    {error : SandboxError} (h : exchange.response from_utf8_lossy request = .error error) :
    isRecoverableDesync error := by
  unfold Exchange.response at h
  split at h
  · cases h
    rfl
  · split at h
    · cases h
      rfl
    · cases h
  · cases h
  all_goals
    cases h
    rfl

/-- An error is recoverable exactly when it does not come of an acknowledgement. -/
theorem isRecoverableDesync_iff {exchange : Exchange} {request : ExecCommand} {error : SandboxError}
    (h : exchange.response from_utf8_lossy (.execCommand request) >>= takeAck request =
      .error error) :
    isRecoverableDesync error ↔
      ∀ ack, exchange.response from_utf8_lossy (.execCommand request) ≠ .ok (.execCommand ack) := by
  cases hresponse : exchange.response from_utf8_lossy (.execCommand request) with
  | error failure =>
    rw [hresponse] at h
    cases h
    simp [isRecoverableDesync_of_response hresponse]
  | ok response =>
    rw [hresponse] at h
    change takeAck request response = .error error at h
    cases response with
    | execCommand ack =>
      simp only [takeAck, takeResponse] at h
      split_ifs at h with haccepted
      cases h
      simp [isRecoverableDesync]
    | error failure =>
      cases h
      simp [isRecoverableDesync]
    | _ =>
      cases h
      simp [isRecoverableDesync]

/-- What `rpc_exec_command` comes to, in a session that is open. -/
theorem rpcExecCommand_eq (from_utf8_lossy : List UInt8 → String) {session_id : String} {number : ℕ}
    (hid : session.session_id = some session_id) (hclient : session.client = some number)
    (exchange : Exchange) (command : String) (timeout_secs : Option ℕ) :
    let request : ExecCommand := ⟨numberedId "exec" (number + 1), session_id, command, timeout_secs⟩
    session.rpcExecCommand from_utf8_lossy exchange command timeout_secs =
      { result := exchange.response from_utf8_lossy (.execCommand request) >>= takeAck request
        session := { session with client := some (number + 1) }
        executions := if exchange.runs request then 1 else 0 } := by
  simp only [rpcExecCommand, hid, hclient]

/-- One request runs a command at most once, and only in a session that is open. -/
theorem rpcExecCommand_executions (from_utf8_lossy : List UInt8 → String)
    (session : VsockShellSession) (exchange : Exchange) (command : String)
    (timeout_secs : Option ℕ) :
    (session.rpcExecCommand from_utf8_lossy exchange command timeout_secs).executions ≤ 1 ∧
      (0 < (session.rpcExecCommand from_utf8_lossy exchange command timeout_secs).executions →
        ∃ session_id number, session.session_id = some session_id ∧
          session.client = some number ∧
          exchange.runs ⟨numberedId "exec" (number + 1), session_id, command, timeout_secs⟩) := by
  unfold rpcExecCommand
  split
  · next session_id number hid hclient =>
    dsimp only
    split_ifs with hruns
    · exact ⟨Nat.le_refl 1, fun _ => ⟨session_id, number, hid, hclient, hruns⟩⟩
    · simp
  · simp

/-- A new session is opened by its acknowledgement and by nothing else. -/
theorem opened_eq_ok_iff {exchange : Exchange} {config : ShellSessionConfig}
    {opened : SpawnSessionAck} :
    exchange.response from_utf8_lossy (spawnRequest config) >>= takeOpened (spawnRequest config) =
        .ok opened ↔
      exchange.response from_utf8_lossy (spawnRequest config) = .ok (.spawnSession opened) := by
  cases exchange.response from_utf8_lossy (spawnRequest config) with
  | error error => simp [bind, Except.bind]
  | ok response =>
    change takeOpened (spawnRequest config) response = .ok opened ↔ _
    cases response <;>
      simp [takeOpened, takeResponse, spawnRequest, responseLabel, ShellDaemonRequest.expected]

/-- A session is open again when a connection is to be had and the daemon opens a session on it. -/
theorem reconnect_eq_ok_iff {connected : Except String Unit} {spawned : Exchange}
    {after : VsockShellSession} :
    session.reconnect from_utf8_lossy connected spawned = (.ok (), after) ↔
      ∃ endpoint opened, session.reconnect_endpoint = some endpoint ∧
        (sidecarUnixBridgePath endpoint.address).isSome ∧ connected = .ok () ∧
        spawned.response from_utf8_lossy (spawnRequest session.reconnect_config) =
          .ok (.spawnSession opened) ∧
        { session with
          session_id := some opened.session_id
          client := some 1
          status := .ready endpoint.transport endpoint.address } = after := by
  simp only [← opened_eq_ok_iff]
  unfold reconnect
  cases hendpoint : session.reconnect_endpoint with
  | none => simp
  | some endpoint =>
    cases hpath : sidecarUnixBridgePath endpoint.address with
    | none => simp [hpath]
    | some path =>
      cases connected with
      | error error => simp [hpath]
      | ok _ =>
        cases hopened : spawned.response from_utf8_lossy (spawnRequest session.reconnect_config) >>=
            takeOpened (spawnRequest session.reconnect_config) with
        | error error => simp [hpath, hopened]
        | ok opened => simp [hpath, hopened]

/-- Only an acknowledgement of a command is taken for one. -/
theorem response_of_takeAck {exchange : Exchange} {request : ExecCommand} {ack : ExecCommandAck}
    (h : exchange.response from_utf8_lossy (.execCommand request) >>= takeAck request = .ok ack) :
    exchange.response from_utf8_lossy (.execCommand request) = .ok (.execCommand ack) := by
  cases hresponse : exchange.response from_utf8_lossy (.execCommand request) with
  | error failure => simp [hresponse, bind, Except.bind] at h
  | ok response =>
    rw [hresponse] at h
    change takeAck request response = .ok ack at h
    cases response with
    | execCommand other =>
      simp only [takeAck, takeResponse] at h
      split_ifs at h
      rw [Except.ok.inj h]
    | _ => simp [takeAck, takeResponse, responseLabel, ShellDaemonRequest.expected] at h

/-- A command that runs again is run twice. -/
theorem RunsAgain.executions {pattern : CallPattern} {command : String} {timeout_secs : Option ℕ}
    (h : session.RunsAgain from_utf8_lossy pattern command timeout_secs) :
    (session.execCommand from_utf8_lossy pattern command timeout_secs).executions = 2 := by
  obtain ⟨session_id, number, endpoint, opened, hid, hclient, hfirst, hnoack, hendpoint, hpath,
    hconnected, hopened, hsecond⟩ := h
  have hcommand := Exchange.runs_command hfirst
  have hrpc := rpcExecCommand_eq from_utf8_lossy hid hclient pattern.first command timeout_secs
  dsimp only at hcommand hrpc
  set request : ExecCommand := ⟨numberedId "exec" (number + 1), session_id, command, timeout_secs⟩
  -- what is read for the first request is an error to recover from
  have hrecoverable : ∃ error, pattern.first.response from_utf8_lossy (.execCommand request) >>=
      takeAck request = .error error ∧ isRecoverableDesync error := by
    cases hresult : pattern.first.response from_utf8_lossy (.execCommand request) >>=
      takeAck request with
    | ok ack => exact absurd (response_of_takeAck hresult) (hnoack ack)
    | error error => exact ⟨error, rfl, (isRecoverableDesync_iff hresult).2 hnoack⟩
  obtain ⟨error, hresult, herror⟩ := hrecoverable
  have hreconnect := (@reconnect_eq_ok_iff from_utf8_lossy
    { session with client := some (number + 1) } pattern.connected pattern.spawned _).2
    ⟨endpoint, opened, hendpoint, hpath, hconnected, hopened, rfl⟩
  have hsome : session.reconnect_endpoint.isSome := by simp [hendpoint]
  simp only [execCommand, hcommand, if_false, hrpc, hresult, herror, hsome, Bool.and_self, if_true,
    hreconnect, hfirst]
  rw [rpcExecCommand_eq from_utf8_lossy rfl rfl]
  simp only [hsecond, if_true]

/-- A command that is run more than once runs again. -/
theorem runsAgain_of_executions {pattern : CallPattern} {command : String}
    {timeout_secs : Option ℕ}
    (h : 1 < (session.execCommand from_utf8_lossy pattern command timeout_secs).executions) :
    session.RunsAgain from_utf8_lossy pattern command timeout_secs := by
  have ⟨hfirst, hran⟩ :=
    rpcExecCommand_executions from_utf8_lossy session pattern.first command timeout_secs
  unfold execCommand at h
  split_ifs at h with hcommand
  · simp at h
  dsimp only at h
  split at h
  · omega
  · next error hresult =>
    split_ifs at h with hrecoverable
    · split at h
      · dsimp only at h
        omega
      · next after hreconnect =>
        dsimp only at h
        have ⟨hsecond, hran_again⟩ :=
          rpcExecCommand_executions from_utf8_lossy after pattern.second command timeout_secs
        obtain ⟨session_id, number, hid, hclient, hruns⟩ := hran (by omega)
        obtain ⟨opened_id, opened_number, hopened_id, hopened_number, hruns_again⟩ :=
          hran_again (by omega)
        rw [rpcExecCommand_eq from_utf8_lossy hid hclient] at hresult hreconnect
        obtain ⟨endpoint, opened, hendpoint, hpath, hconnected, hopened, rfl⟩ :=
          reconnect_eq_ok_iff.1 hreconnect
        cases hopened_id
        cases hopened_number
        rw [Bool.and_eq_true] at hrecoverable
        exact ⟨session_id, number, endpoint, opened, hid, hclient, hruns,
          (isRecoverableDesync_iff hresult).1 hrecoverable.1, hendpoint, hpath, hconnected, hopened,
          hruns_again⟩
    · omega

/-- One call of `exec_command` makes the daemon run the command at most once exactly when it does
not run again after a first request that was run. -/
theorem at_most_once_iff (from_utf8_lossy : List UInt8 → String) (session : VsockShellSession)
    (pattern : CallPattern) (command : String) (timeout_secs : Option ℕ) :
    (session.execCommand from_utf8_lossy pattern command timeout_secs).executions ≤ 1 ↔
      ¬session.RunsAgain from_utf8_lossy pattern command timeout_secs := by
  constructor
  · intro hle hagain
    have htwo := hagain.executions
    omega
  · intro hnot
    by_contra hgt
    exact hnot (runsAgain_of_executions (by omega))

end VsockShellSession

/-! ## A command that times out -/

/-- A session on a daemon that has opened it. -/
def openSession : VsockShellSession where
  status := .ready .vsock "/run/shell.sock"
  session_id := some "session-000001"
  client := some 1
  reconnect_endpoint := some ⟨.vsock, "/run/shell.sock"⟩
  reconnect_config := {}

/-- The sessions of a daemon that has opened some. -/
def openedSessions (count : ℕ) : SessionManager :=
  (fun manager => (SessionManager.spawnSession manager ⟨"spawn-000001", none, none, []⟩).2)^[count]
    {}

/-- The daemon stops a command at its timeout and says so, opens another session, and runs the
command there to its end. -/
def timedOutOnce : CallPattern where
  first := ⟨.ok (), some ⟨openedSessions 1, openedSessions 1, .started false (.ok ([], []))⟩, .own⟩
  connected := .ok ()
  spawned := ⟨.ok (), some ⟨openedSessions 1, openedSessions 1, .notStarted ""⟩, .own⟩
  second := ⟨.ok (), some ⟨openedSessions 2, openedSessions 2, .started true (.ok ([], []))⟩, .own⟩

/-- A command that times out is run a second time in the same call. -/
theorem timed_out_command_runs_twice :
    (openSession.execCommand (fun _ => "") timedOutOnce "make publish" (some 55)).executions = 2 ∧
      (openSession.execCommand (fun _ => "") timedOutOnce "make publish" (some 55)).result =
        .ok ⟨"exec-000002", true⟩ := by
  decide

end Oxydra
