import Oxydra.Library.LengthPrefix
import Oxydra.Runner.Shutdown

/-!
# The control server

`serve_control_unix_listener` of `crates/runner/src/lib.rs`, which serves one client after the
other, each until its stream ends, with the frames that it reads and writes and the requests that it
handles. An error of one client's stream is the error of the server.

How a request is parsed and a response printed is `serde_json`'s, and a parameter here. What a
client sends, how its stream ends, and whether it is still there for a reply is up to the client.

`controlServer_serves_iff` says for every run so far which client the server survives and answers.
-/

namespace Oxydra

open Lts

variable {client : ControlClient} {sent : List UInt8} {startup : RunnerStartup} {number : ℕ}

/-! ## Requests -/

inductive LogRole where
  | runtime
  | sidecar
  | all
  deriving DecidableEq, Repr

inductive LogStream where
  | stdout
  | stderr
  | both
  deriving DecidableEq, Repr

structure RunnerControlLogsRequest where
  role : LogRole := .runtime
  stream : LogStream := .both
  tail : Option ℕ := none
  since : Option String := none
  deriving DecidableEq, Repr

inductive RunnerControl where
  | healthCheck
  | shutdownUser (user_id : String)
  | logs (request : RunnerControlLogsRequest)
  deriving DecidableEq, Repr

/-- What stands around a request: what fails of a shutdown, what the log files have for a request of
logs, and whether the client is there for the reply. -/
structure ControlExchange where
  faults : ShutdownFaults := {}
  logs : RunnerControlLogsRequest → RunnerControlLogsResponse := fun _ => ⟨[], false, []⟩
  connected : Bool := true

namespace RunnerStartup

/-- `control_health_message`. -/
def controlHealthMessage (startup : RunnerStartup) : Option String :=
  if startup.shutdown_complete then some "runtime is shut down"
  else if startup.warnings = [] then none
  else some (" | ".intercalate startup.warnings)

/-- `control_startup_status`. -/
def controlStartupStatus (startup : RunnerStartup) : StartupStatusReport :=
  let status :=
    { startup.startup_status with
      shell_available := startup.shell_available
      browser_available := startup.browser_available
      sidecar_available := startup.shell_available || startup.browser_available }
  if startup.shutdown_complete then status.pushReason .runtimeShutdown "runtime is shut down"
  else status

/-- `handle_control_async`. -/
def handleControl (exchange : ControlExchange) (startup : RunnerStartup) :
    RunnerControl → RunnerControlResponse × RunnerStartup
  | .healthCheck =>
    let startup_status := startup.controlStartupStatus
    let runtime_container_name :=
      match startup.launch.runtime.handle.lifecycle with
      | .dockerContainer container_name => some container_name
      | _ => none
    (.healthStatus {
      user_id := startup.user_id
      healthy := !startup.shutdown_complete
      sandbox_tier := startup.sandbox_tier
      startup_status
      shell_available := startup_status.shell_available
      browser_available := startup_status.browser_available
      shutdown := startup.shutdown_complete
      message := startup.controlHealthMessage
      log_dir := some startup.log_dir
      runtime_pid := startup.launch.runtime.handle.pid
      runtime_container_name }, startup)
  | .logs request =>
    if startup.shutdown_complete then
      (.logs ⟨[], false, ["runtime is shut down; logs may be incomplete"]⟩, startup)
    else (.logs (exchange.logs request), startup)
  | .shutdownUser user_id => startup.shutdownUser .awaited exchange.faults user_id

end RunnerStartup

/-! ## Frames -/

/-- `RUNNER_CONTROL_MAX_FRAME_BYTES`. -/
def runnerControlMaxFrameBytes : ℕ := 128 * 1024

inductive RunnerControlTransportError where
  | transport (source : String)
  | serialization (message : String)
  | frameTooLarge (actual_bytes max_bytes : ℕ)
  deriving DecidableEq, Repr

/-- How the stream of a client ends, once it has sent all that it sends. -/
inductive ClientEnd where
  | closed
  | reset
  | silent
  deriving DecidableEq, Repr

/-- What a read of a frame comes to. -/
inductive FrameRead where
  | frame (payload rest : List UInt8)
  | ended
  | failed (error : RunnerControlTransportError)
  | waiting
  deriving DecidableEq, Repr

/-- What a read of more bytes than are there comes to. -/
def readPastEnd (eof : FrameRead) : ClientEnd → FrameRead
  | .closed => eof
  | .reset => .failed (.transport "connection reset by peer")
  | .silent => .waiting

/-- `read_runner_control_frame`. -/
def readRunnerControlFrame (sent : List UInt8) (stream_end : ClientEnd) : FrameRead :=
  if sent.length < 4 then readPastEnd .ended stream_end
  else
    let frame_len := LengthPrefix.ofBytes (sent.take 4)
    let rest := sent.drop 4
    if runnerControlMaxFrameBytes < frame_len then
      .failed (.frameTooLarge frame_len runnerControlMaxFrameBytes)
    else if rest.length < frame_len then
      readPastEnd (.failed (.transport "early eof")) stream_end
    else .frame (rest.take frame_len) (rest.drop frame_len)

/-- `write_runner_control_frame`, with the bytes that the client receives. -/
def writeRunnerControlFrame (payload : List UInt8) (connected : Bool) :
    Except RunnerControlTransportError (List UInt8) :=
  if runnerControlMaxFrameBytes < payload.length then
    .error (.frameTooLarge payload.length runnerControlMaxFrameBytes)
  else if connected then .ok (LengthPrefix.frame payload)
  else .error (.transport "broken pipe")

/-! ## Serving a client -/

/-- `serde_json`, of requests and responses. -/
structure ControlJson where
  from_slice : List UInt8 → Except String RunnerControl
  to_vec : RunnerControlResponse → Except String (List UInt8)

/-- A client: the bytes that it sends, how its stream ends, and what stands around each of its
requests. -/
structure ControlClient where
  sent : List UInt8
  stream_end : ClientEnd
  exchanges : ℕ → ControlExchange := fun _ => {}

/-- How the service of a client ends, if it does. -/
inductive ServiceEnd where
  | returned (result : Except RunnerControlTransportError Unit)
  | waiting

/-- The service of a client: how it ends, the bytes that the client receives for each request, and
the startup after it. -/
structure Service where
  ended : ServiceEnd
  replies : List (List UInt8)
  startup : RunnerStartup

/-- A frame that is read is the first of what the client sent, and not too long. -/
theorem readRunnerControlFrame_frame_iff {sent payload rest : List UInt8} {stream_end : ClientEnd} :
    readRunnerControlFrame sent stream_end = .frame payload rest ↔
      LengthPrefix.first sent = some (payload, rest) ∧
        payload.length ≤ runnerControlMaxFrameBytes := by
  have hpast : ∀ eof, (∀ payload rest, eof ≠ .frame payload rest) →
      readPastEnd eof stream_end ≠ .frame payload rest := by
    intro eof heof
    cases stream_end with
    | closed => exact heof payload rest
    | reset => simp [readPastEnd]
    | silent => simp [readPastEnd]
  unfold readRunnerControlFrame LengthPrefix.first
  by_cases hlength : sent.length < 4
  · rw [if_pos hlength, if_pos (.inl hlength)]
    exact iff_of_false (hpast _ (by simp)) (by simp)
  dsimp only
  rw [if_neg hlength]
  by_cases hshort : (sent.drop 4).length < LengthPrefix.ofBytes (sent.take 4)
  · have hincomplete : sent.length < 4 ∨
        (sent.drop 4).length < LengthPrefix.ofBytes (sent.take 4) := .inr hshort
    rw [if_pos hshort, if_pos hincomplete]
    refine iff_of_false ?_ (by simp)
    split
    · simp
    · exact hpast _ (by simp)
  · rw [if_neg hshort, if_neg (not_or.2 ⟨hlength, hshort⟩)]
    have htake : ((sent.drop 4).take (LengthPrefix.ofBytes (sent.take 4))).length =
        LengthPrefix.ofBytes (sent.take 4) := List.length_take_of_le (Nat.le_of_not_lt hshort)
    constructor
    · intro h
      split at h
      · cases h
      · next hfits =>
        cases h
        exact ⟨rfl, htake.symm ▸ Nat.le_of_not_lt hfits⟩
    · rintro ⟨hsome, hfits⟩
      cases hsome
      rw [htake] at hfits
      rw [if_neg (Nat.not_lt_of_le hfits)]

/-- A client is done where it closes its stream with less than a length to go. -/
theorem readRunnerControlFrame_ended_iff {stream_end : ClientEnd} :
    readRunnerControlFrame sent stream_end = .ended ↔ sent.length < 4 ∧ stream_end = .closed := by
  unfold readRunnerControlFrame
  by_cases hlength : sent.length < 4
  · rw [if_pos hlength]
    cases stream_end <;> simp [readPastEnd, hlength]
  · rw [if_neg hlength]
    dsimp only
    refine iff_of_false ?_ (fun h => hlength h.1)
    split
    · simp
    · split
      · cases stream_end <;> simp [readPastEnd]
      · simp

namespace ControlJson

variable (json : ControlJson)

/-- The response to a request frame. -/
def respond (exchange : ControlExchange) (startup : RunnerStartup) (frame : List UInt8) :
    RunnerControlResponse × RunnerStartup :=
  match json.from_slice frame with
  | .ok request => startup.handleControl exchange request
  | .error error =>
    (.error .invalidRequest s!"invalid runner control request frame: {error}", startup)

/-- The response as it is written. -/
def writeResponse (exchange : ControlExchange) (response : RunnerControlResponse) :
    Except RunnerControlTransportError (List UInt8) :=
  match json.to_vec response with
  | .error message => .error (.serialization message)
  | .ok payload => writeRunnerControlFrame payload exchange.connected

/-- `serve_control_stream`, from the request with a number. -/
def serveControlStream (client : ControlClient) (number : ℕ) (startup : RunnerStartup)
    (sent : List UInt8) : Service :=
  match _h : readRunnerControlFrame sent client.stream_end with
  | .ended => ⟨.returned (.ok ()), [], startup⟩
  | .failed error => ⟨.returned (.error error), [], startup⟩
  | .waiting => ⟨.waiting, [], startup⟩
  | .frame frame rest =>
    let exchange := client.exchanges number
    let (response, startup) := json.respond exchange startup frame
    match json.writeResponse exchange response with
    | .error error => ⟨.returned (.error error), [], startup⟩
    | .ok reply =>
      let service := serveControlStream client (number + 1) startup rest
      { service with replies := reply :: service.replies }
termination_by sent.length
decreasing_by
  have hlength := LengthPrefix.length_of_first (readRunnerControlFrame_frame_iff.1 _h).1
  omega

/-- A frame that is read is answered, and then the next one, unless the answer fails. -/
theorem serveControlStream_frame {sent frame rest : List UInt8}
    (h : readRunnerControlFrame sent client.stream_end = .frame frame rest) :
    json.serveControlStream client number startup sent =
      match json.writeResponse (client.exchanges number)
          (json.respond (client.exchanges number) startup frame).1 with
      | .error error =>
        ⟨.returned (.error error), [],
          (json.respond (client.exchanges number) startup frame).2⟩
      | .ok reply =>
        let service := json.serveControlStream client (number + 1)
          (json.respond (client.exchanges number) startup frame).2 rest
        { service with replies := reply :: service.replies } := by
  rw [serveControlStream]
  split
  · next heq => simp [h] at heq
  · next heq => simp [h] at heq
  · next heq => simp [h] at heq
  · next heq =>
    rw [h] at heq
    cases heq
    rfl

/-- Where no frame is read, the service is what comes of the read. -/
theorem serveControlStream_end (number : ℕ) (startup : RunnerStartup)
    (h : ∀ frame rest, readRunnerControlFrame sent client.stream_end ≠ .frame frame rest) :
    (json.serveControlStream client number startup sent).replies = [] ∧
      ((json.serveControlStream client number startup sent).ended = .returned (.ok ()) ↔
        sent.length < 4 ∧ client.stream_end = .closed) := by
  rw [serveControlStream, ← readRunnerControlFrame_ended_iff]
  split
  · next heq => simp [heq]
  · next heq => simp [heq]
  · next heq => simp [heq]
  · next heq => exact absurd heq (h _ _)

variable {json} in
/-- A client that closes its stream behind its frames is done. -/
theorem serveControlStream_closed (h : client.stream_end = .closed) :
    json.serveControlStream client number startup [] =
      ⟨.returned (.ok ()), [], startup⟩ := by
  have hended := readRunnerControlFrame_ended_iff.2 ⟨(by decide : ([] : List UInt8).length < 4), h⟩
  rw [serveControlStream]
  split
  · rfl
  · next heq => simp [hended] at heq
  · next heq => simp [hended] at heq
  · next heq => simp [hended] at heq

/-- A response can be written to the client, which is there for it. -/
def Writes (exchange : ControlExchange) (response : RunnerControlResponse) : Prop :=
  exchange.connected = true ∧ ∃ payload, json.to_vec response = .ok payload ∧
    payload.length ≤ runnerControlMaxFrameBytes

theorem writes_iff (exchange : ControlExchange) (response : RunnerControlResponse) :
    json.Writes exchange response ↔ ∃ reply, json.writeResponse exchange response = .ok reply := by
  unfold Writes writeResponse writeRunnerControlFrame
  cases json.to_vec response with
  | error message => simp
  | ok payload =>
    by_cases hlong : runnerControlMaxFrameBytes < payload.length
    · simp [hlong]
    · cases exchange.connected <;> simp [hlong, Nat.le_of_not_lt hlong]

/-- Each of some frames is not too long, and its response can be written. -/
def Answerable (client : ControlClient) : ℕ → RunnerStartup → List (List UInt8) → Prop
  | _, _, [] => True
  | number, startup, frame :: frames =>
    let (response, after) := json.respond (client.exchanges number) startup frame
    frame.length ≤ runnerControlMaxFrameBytes ∧
      json.Writes (client.exchanges number) response ∧
      Answerable client (number + 1) after frames

/-- The service of a client returns without an error exactly if each of its frames can be answered
and it closes its stream after a frame, or in a length. Then there is one reply for each frame: by
induction on what the client sends. -/
theorem serveControlStream_ok_iff (client : ControlClient) (number : ℕ) (startup : RunnerStartup)
    (sent : List UInt8) :
    ((json.serveControlStream client number startup sent).ended = .returned (.ok ()) ↔
      json.Answerable client number startup (LengthPrefix.split sent).1 ∧
        (LengthPrefix.split sent).2.length < 4 ∧ client.stream_end = .closed) ∧
    ((json.serveControlStream client number startup sent).ended = .returned (.ok ()) →
      (json.serveControlStream client number startup sent).replies.length =
        (LengthPrefix.split sent).1.length) := by
  induction hn : sent.length using Nat.strongRecOn generalizing number startup sent with
  | ind n ih =>
  subst hn
  cases hfirst : LengthPrefix.first sent with
  | none =>
    have hnone : ∀ frame rest,
        readRunnerControlFrame sent client.stream_end ≠ .frame frame rest := by
      intro frame rest hread
      simp [readRunnerControlFrame_frame_iff, hfirst] at hread
    obtain ⟨hreplies, hended⟩ := json.serveControlStream_end number startup hnone
    rw [LengthPrefix.split_of_none hfirst, hended, hreplies]
    exact ⟨⟨fun h => ⟨trivial, h⟩, fun h => h.2⟩, fun _ => rfl⟩
  | some cut =>
    obtain ⟨frame, rest⟩ := cut
    rw [LengthPrefix.split_of_some hfirst]
    unfold Answerable
    by_cases hfits : frame.length ≤ runnerControlMaxFrameBytes
    · have hread : readRunnerControlFrame sent client.stream_end = .frame frame rest :=
        readRunnerControlFrame_frame_iff.2 ⟨hfirst, hfits⟩
      have hlength := LengthPrefix.length_of_first hfirst
      rw [json.serveControlStream_frame hread]
      obtain ⟨response, after⟩ := json.respond (client.exchanges number) startup frame
      have hwrites := json.writes_iff (client.exchanges number) response
      cases hwrite : json.writeResponse (client.exchanges number) response with
      | error error =>
        have hnot : ¬json.Writes (client.exchanges number) response := by
          rw [hwrites, hwrite]
          simp
        simp [hnot]
      | ok reply =>
        have hcan : json.Writes (client.exchanges number) response := hwrites.2 ⟨reply, hwrite⟩
        obtain ⟨hiff, hcount⟩ :
            (_ ↔ json.Answerable client (number + 1) after (LengthPrefix.split rest).1 ∧ _) ∧ _ :=
          ih rest.length (by omega) _ _ rest rfl
        simp only [hfits, hcan, true_and]
        exact ⟨hiff, fun hended => congrArg (· + 1) (hcount hended)⟩
    · -- the frame is too long, and the service fails
      have hnone : ∀ frame rest,
          readRunnerControlFrame sent client.stream_end ≠ .frame frame rest := by
        intro frame' rest' hread
        obtain ⟨hsome, hfits'⟩ := readRunnerControlFrame_frame_iff.1 hread
        rw [hfirst] at hsome
        cases hsome
        exact hfits hfits'
      obtain ⟨-, hended⟩ := json.serveControlStream_end number startup hnone
      have hlength := LengthPrefix.length_of_first hfirst
      have hnot :
          (json.serveControlStream client number startup sent).ended ≠ .returned (.ok ()) := by
        intro h
        have hshort := (hended.1 h).1
        omega
      exact ⟨iff_of_false hnot fun h => hfits h.1.1, fun h => absurd h hnot⟩

end ControlJson

/-! ## The server -/

/-- Where the control server is: at an accept, at a client that sends nothing more, or returned. -/
inductive ServerStatus where
  | accepting
  | waiting
  | returned (result : Except RunnerControlTransportError Unit)

/-- The control server of a launch. -/
structure ControlServer where
  startup : RunnerStartup
  status : ServerStatus := .accepting

namespace ControlServer

variable (json : ControlJson) (server : ControlServer)

/-- The service of a client that is accepted. -/
def service (client : ControlClient) : Service :=
  json.serveControlStream client 0 server.startup client.sent

/-- One round of `serve_control_unix_listener`, with what the accept comes to. -/
def serveControlUnixListener : Except String ControlClient → ControlServer
  | .error source => { server with status := .returned (.error (.transport source)) }
  | .ok client =>
    let service := server.service json client
    match service.ended with
    | .waiting => ⟨service.startup, .waiting⟩
    | .returned (.error error) => ⟨service.startup, .returned (.error error)⟩
    | .returned (.ok _) =>
      if service.startup.shutdown_complete then ⟨service.startup, .returned (.ok ())⟩
      else ⟨service.startup, .accepting⟩

/-- The server accepts clients, or has returned because the runtime is shut down. -/
def Up : Prop :=
  (server.status = .accepting ∧ server.startup.shutdown_complete = false) ∨
    (server.status = .returned (.ok ()) ∧ server.startup.shutdown_complete = true)

/-- The number of the frames that a client is owed a reply for: they are complete and not too long,
and the client is there. -/
def owed (client : ControlClient) : ℕ :=
  ((LengthPrefix.split client.sent).1.zipIdx.filter fun (frame, number) =>
    frame.length ≤ runnerControlMaxFrameBytes && (client.exchanges number).connected).length

/-- The server survives what an accept comes to, and a client receives one reply for each request
that it is owed one for. -/
def Serves (arrival : Except String ControlClient) : Prop :=
  (server.serveControlUnixListener json arrival).Up ∧
    ∀ client, arrival = .ok client → (server.service json client).replies.length = owed client

/-- An accept does not fail, and the client sends complete frames of at most
`RUNNER_CONTROL_MAX_FRAME_BYTES` to which it can be replied, and then at most three bytes and
closes its stream. -/
def Behaves (arrival : Except String ControlClient) : Prop :=
  ∃ client, arrival = .ok client ∧
    json.Answerable client 0 server.startup (LengthPrefix.split client.sent).1 ∧
    (LengthPrefix.split client.sent).2.length < 4 ∧ client.stream_end = .closed

/-- All runs of the control server. -/
def system : System ControlServer (Except String ControlClient) where
  init server := server.status = .accepting ∧ server.startup.shutdown_complete = false
  step server arrival after :=
    server.status = .accepting ∧ server.serveControlUnixListener json arrival = after

/-- What is replied to is owed a reply: by induction on the frames. -/
theorem owed_of_answerable {frames : List (List UInt8)}
    (h : json.Answerable client number startup frames) :
    ((frames.zipIdx number).filter fun (frame, number) =>
      frame.length ≤ runnerControlMaxFrameBytes && (client.exchanges number).connected).length =
        frames.length := by
  induction frames generalizing number startup with
  | nil => rfl
  | cons frame frames ih =>
    obtain ⟨hfits, hwrites, hrest⟩ := h
    simp [List.zipIdx_cons, hfits, hwrites.1, ih hrest]

variable {json server}

/-- The server survives a client, and answers it, exactly if the client behaves. -/
theorem serves_iff (arrival : Except String ControlClient) :
    server.Serves json arrival ↔ server.Behaves json arrival := by
  cases arrival with
  | error source =>
    refine iff_of_false ?_ ?_
    · rintro ⟨⟨hstatus, -⟩ | ⟨hstatus, -⟩, -⟩ <;> cases hstatus
    · rintro ⟨_, ⟨⟩, -⟩
  | ok client =>
    obtain ⟨hended, hcount⟩ :=
      json.serveControlStream_ok_iff client 0 server.startup client.sent
    have hbehaves : server.Behaves json (.ok client) ↔
        (server.service json client).ended = .returned (.ok ()) := by
      rw [ControlServer.service, hended]
      constructor
      · rintro ⟨_, ⟨⟩, h⟩
        exact h
      · exact fun h => ⟨client, rfl, h⟩
    rw [hbehaves]
    constructor
    · rintro ⟨hup, -⟩
      unfold serveControlUnixListener at hup
      dsimp only at hup
      split at hup
      · obtain ⟨hstatus, -⟩ | ⟨hstatus, -⟩ := hup <;> cases hstatus
      · obtain ⟨hstatus, -⟩ | ⟨hstatus, -⟩ := hup <;> cases hstatus
      · next heq => exact heq
    · intro h
      refine ⟨?_, ?_⟩
      · unfold serveControlUnixListener
        dsimp only
        rw [h]
        dsimp only
        split
        · next hcomplete => exact .inr ⟨rfl, hcomplete⟩
        · next hcomplete => exact .inl ⟨rfl, by simpa using hcomplete⟩
      · rintro _ ⟨⟩
        exact (hcount h).trans (owed_of_answerable json (hended.1 h).1).symm

/-- After clients that behaved the server is up, and it survives the next one, and answers it,
exactly if that one behaves. -/
theorem controlServer_serves_iff
    (h : (system json).ReachWithin (fun server => server.Behaves json) server) :
    server.Up ∧ ∀ arrival, server.Serves json arrival ↔ server.Behaves json arrival := by
  refine ⟨?_, serves_iff⟩
  refine h.invariant (fun _ hinit => .inl hinit) ?_
  rintro server arrival _ - hbehaves ⟨-, rfl⟩
  exact ((serves_iff arrival).2 hbehaves).1

/-! ## Health checks -/

/-- A text of a request or a response, as bytes. -/
def textBytes (text : String) : List UInt8 := text.toUTF8.toList

/-- A health check in JSON. -/
def healthCheckText : String := "\x7b\"op\":\"health_check\"\x7d"

/-- The response to it of a startup of the process tier. -/
def healthStatusText : String :=
  "\x7b\"op\":\"health_status\",\"payload\":\x7b\"user_id\":\"alice\",\"healthy\":true," ++
    "\"sandbox_tier\":\"process\",\"startup_status\":\x7b\"sandbox_tier\":\"process\"," ++
    "\"sidecar_available\":false,\"shell_available\":false,\"browser_available\":false," ++
    "\"degraded_reasons\":[\x7b\"code\":\"insecure_process_tier\",\"detail\":" ++
    "\"no isolation\"\x7d]\x7d,\"shell_available\":false,\"browser_available\":false," ++
    "\"shutdown\":false,\"log_dir\":\"\",\"runtime_pid\":4242\x7d\x7d"

/-- `serde_json` on the two. -/
def healthCheckJson : ControlJson where
  from_slice frame :=
    if frame = textBytes healthCheckText then .ok .healthCheck else .error "not read here"
  to_vec response :=
    if response = (RunnerStartup.processStartup.handleControl {} .healthCheck).1 then
      .ok (textBytes healthStatusText)
    else .error "not printed here"

/-- A client that asks for the health of the runtime, reads the reply, and goes. -/
def healthCheckClient : ControlClient where
  sent := LengthPrefix.frame (textBytes healthCheckText)
  stream_end := .closed

/-- The frame that it sends is the one that is read, and nothing is left. -/
theorem split_healthCheckClient :
    LengthPrefix.split healthCheckClient.sent = ([textBytes healthCheckText], []) := by
  have hlength : ∀ payload ∈ [textBytes healthCheckText], payload.length < 2^32 := by decide +kernel
  have hleft : LengthPrefix.first [] = none := by decide
  simpa [healthCheckClient] using LengthPrefix.split_frames hlength hleft

/-- The response to it, which changes nothing. -/
theorem respond_healthCheck :
    healthCheckJson.respond {} .processStartup (textBytes healthCheckText) =
      RunnerStartup.processStartup.handleControl {} .healthCheck := by
  simp [ControlJson.respond, healthCheckJson]

/-- The reply to it. -/
theorem writeResponse_healthCheck :
    healthCheckJson.writeResponse {} (RunnerStartup.processStartup.handleControl {} .healthCheck).1 =
      .ok (LengthPrefix.frame (textBytes healthStatusText)) := by
  have hfits : ¬runnerControlMaxFrameBytes < (textBytes healthStatusText).length := by
    decide +kernel
  simp [ControlJson.writeResponse, healthCheckJson, writeRunnerControlFrame, hfits]

/-- A startup of the process tier serves it. -/
theorem service_healthCheckClient :
    (⟨.processStartup, .accepting⟩ : ControlServer).service healthCheckJson healthCheckClient =
      ⟨.returned (.ok ()), [LengthPrefix.frame (textBytes healthStatusText)], .processStartup⟩ := by
  have hlength : (textBytes healthCheckText).length < 2^32 := by decide +kernel
  have hread : readRunnerControlFrame healthCheckClient.sent healthCheckClient.stream_end =
      .frame (textBytes healthCheckText) [] := by
    refine readRunnerControlFrame_frame_iff.2 ⟨?_, by decide +kernel⟩
    simpa [healthCheckClient] using LengthPrefix.first_frame hlength []
  have hexchange : healthCheckClient.exchanges 0 = {} := rfl
  rw [ControlServer.service, healthCheckJson.serveControlStream_frame hread, hexchange,
    respond_healthCheck, writeResponse_healthCheck]
  rw [ControlJson.serveControlStream_closed rfl]
  rfl

/-- A client has been served, and so is the next one, with the reply to its request. -/
theorem healthCheck_served :
    ∃ server, (system healthCheckJson).ReachWithin (fun server => server.Behaves healthCheckJson)
        server ∧
      (⟨.processStartup, .accepting⟩ : ControlServer).serveControlUnixListener healthCheckJson
        (.ok healthCheckClient) = server ∧
      server.Up ∧ server.Serves healthCheckJson (.ok healthCheckClient) ∧
      (server.service healthCheckJson healthCheckClient).replies =
        [LengthPrefix.frame (textBytes healthStatusText)] := by
  have hbehaves : (⟨.processStartup, .accepting⟩ : ControlServer).Behaves healthCheckJson
      (.ok healthCheckClient) := by
    refine ⟨_, rfl, ?_, ?_, rfl⟩
    · rw [split_healthCheckClient]
      exact ⟨by decide +kernel,
        (healthCheckJson.writes_iff _ _).2 ⟨_, respond_healthCheck ▸ writeResponse_healthCheck⟩,
        trivial⟩
    · rw [split_healthCheckClient]
      decide
  have hfirst : (⟨.processStartup, .accepting⟩ : ControlServer).serveControlUnixListener
      healthCheckJson (.ok healthCheckClient) = ⟨.processStartup, .accepting⟩ := by
    rw [serveControlUnixListener, service_healthCheckClient]
    rfl
  have hreach : (system healthCheckJson).ReachWithin
      (fun server => server.Behaves healthCheckJson) ⟨.processStartup, .accepting⟩ :=
    .step (.init ⟨rfl, rfl⟩) hbehaves ⟨rfl, hfirst⟩
  obtain ⟨hup, hserves⟩ := controlServer_serves_iff hreach
  exact ⟨_, hreach, hfirst, hup, (hserves _).2 hbehaves, by rw [service_healthCheckClient]⟩

/-- A client sends the length of a frame and goes, and the server returns an error. -/
theorem truncatedFrame_ends_server :
    ¬(⟨.processStartup, .accepting⟩ : ControlServer).Serves healthCheckJson
      (.ok { sent := [0, 0, 0, 5], stream_end := .closed }) := by
  rw [serves_iff]
  rintro ⟨_, ⟨⟩, -, hleft, -⟩
  rw [LengthPrefix.split_of_none (by decide)] at hleft
  exact absurd hleft (by decide)

end ControlServer

end Oxydra
