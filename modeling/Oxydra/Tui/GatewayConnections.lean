import Oxydra.Gateway.TurnRejection
import Oxydra.Gateway.TurnStream
import Oxydra.Tui.ViewModel

/-!
# The terminal's connection to the gateway

Two programs over a websocket. At one end is the terminal: `TuiChannelAdapter` of
`crates/tui/src/channel_adapter.rs` and the main loop of `crates/tui/src/app.rs`. At the other is
the task of one connection: `handle_socket` and `handle_client_frame` of
`crates/gateway/src/lib.rs`. Frames are in flight in both directions, in order, and the connection
can break at any time.

Any number of terminals share the sessions of one gateway. A session's broadcast is the list of all
that was published on it. A connection reads it from the place where it subscribed, and loses frames
that it is too slow for. What turns do to a session is in `Oxydra.Gateway.Turns`. Here their state
changes in any way at any time, and so do the lookups of `Oxydra.Gateway.Sessions` answer anything.

Left out are frames that do not decode, which the terminal never sends, and pings.

A terminal shows the session of the last frame that names one. `terminal_shows_active` says that it
is the active session of its connection, when the frames on the way have come.
-/

namespace Oxydra

open Option Function List Lts

/-! ## Frames -/

/-- `GATEWAY_PROTOCOL_VERSION`. -/
def gatewayProtocolVersion : ℕ := 2

structure GatewaySession where
  user_id : String
  session_id : String

/-- `GatewayClientFrame`. A turn of the terminal has no attachments. -/
inductive GatewayClientFrame where
  | hello (request_id : String) (protocol_version : ℕ) (user_id : String)
      (session_id : Option String) (create_new_session : Bool)
  | sendTurn (request_id session_id turn_id prompt : String)
  | cancelActiveTurn (request_id session_id turn_id : String)
  | cancelAllActiveTurns (request_id : String)
  | healthCheck (request_id : String)
  | createSession (request_id : String) (display_name agent_name : Option String)
  | listSessions (request_id : String) (include_archived include_subagent_sessions : Bool)
  | switchSession (request_id session_id : String)

/-- `GatewayServerFrame`, with the request, the session and the turn that it names. -/
inductive ServerFrame where
  | helloAck (request_id : String) (protocol_version : ℕ) (session : GatewaySession)
      (active_turn : Option GatewayTurnStatus)
  | turnStarted (request_id : String) (session : GatewaySession) (turn : GatewayTurnStatus)
  | assistantDelta (request_id : String) (session : GatewaySession) (turn : GatewayTurnStatus)
      (delta : String)
  | turnCompleted (request_id : String) (session : GatewaySession) (turn : GatewayTurnStatus)
      (response : Response)
  | turnCancelled (request_id : String) (session : GatewaySession) (turn : GatewayTurnStatus)
  | error (request_id : Option String) (session : Option GatewaySession)
      (turn : Option GatewayTurnStatus) (message : String)
  | healthStatus (request_id : String) (healthy : Bool) (session : Option GatewaySession)
      (active_turn : Option GatewayTurnStatus) (message : Option String)
  | turnProgress (request_id : String) (session : GatewaySession) (turn : GatewayTurnStatus)
      (progress : RuntimeProgressEvent)
  | scheduledNotification (schedule_id : String) (schedule_name : Option String) (message : String)
  | sessionCreated (request_id : String) (session : GatewaySession) (display_name : Option String)
      (agent_name : String)
  | sessionList (request_id : String) (sessions : List GatewaySessionSummary)
  | sessionSwitched (request_id : String) (session : GatewaySession)
      (active_turn : Option GatewayTurnStatus)
  | mediaAttachment (request_id : String) (session : GatewaySession) (attachment : MediaAttachment)
      (schedule_id : Option String)
  | policyNotification (event : PolicyStreamEvent)

/-! ## The terminal -/

structure TuiUiState where
  connected : Bool := false
  session_id : Option String := none
  active_turn_id : Option String := none
  prompt_buffer : String := ""
  rendered_output : String := ""
  last_error : Option String := none
  activity_status : Option String := none
  last_scheduled_notification : Option String := none

namespace TuiUiState

variable (s : TuiUiState)

/-- `mark_active_turn`. -/
def markActiveTurn (turn : GatewayTurnStatus) : TuiUiState :=
  if turn.state = .running then { s with active_turn_id := some turn.turn_id } else s

/-- `clear_active_turn`. -/
def clearActiveTurn : TuiUiState := { s with active_turn_id := none }

/-- What a frame says of the active turn. -/
def setActiveTurn : Option GatewayTurnStatus → TuiUiState
  | some turn => s.markActiveTurn turn
  | none => s.clearActiveTurn

/-- `apply_gateway_frame`. -/
def applyGatewayFrame : ServerFrame → TuiUiState
  | .helloAck _ _ session active_turn =>
    { s with connected := true, session_id := some session.session_id,
             last_error := none }.setActiveTurn active_turn
  | .turnStarted _ session turn =>
    { { s with connected := true, session_id := some session.session_id }.markActiveTurn turn with
      rendered_output := "", last_error := none, activity_status := none }
  | .assistantDelta _ session turn delta =>
    let s' :=
      { s with connected := true, session_id := some session.session_id }.markActiveTurn turn
    { s' with rendered_output := s'.rendered_output ++ delta, last_error := none }
  | .turnCompleted _ session _ response =>
    let s' := { s with connected := true, session_id := some session.session_id }.clearActiveTurn
    let rendered_output :=
      if s'.rendered_output = "" then response.message.content.getD "" else s'.rendered_output
    { s' with rendered_output := rendered_output, prompt_buffer := "", last_error := none,
              activity_status := none }
  | .turnCancelled _ session _ =>
    { { s with connected := true, session_id := some session.session_id }.clearActiveTurn with
      last_error := none, activity_status := none }
  | .error _ session turn message =>
    let s' := { s with connected := true,
                       session_id := (session.map GatewaySession.session_id).or s.session_id }
    let s' := match turn with
      | some turn =>
        if turn.state = GatewayTurnState.running then s'.markActiveTurn turn
        else s'.clearActiveTurn
      | none => s'.clearActiveTurn
    { s' with last_error := some message, activity_status := none }
  | .healthStatus _ healthy session active_turn message =>
    let s' := { s with connected := healthy,
                       session_id := (session.map GatewaySession.session_id).or s.session_id }
    { s'.setActiveTurn active_turn with
      last_error := if healthy then none else message.or (some "gateway unhealthy") }
  | .turnProgress _ session turn progress =>
    { { s with connected := true, session_id := some session.session_id }.markActiveTurn turn with
      activity_status := some progress.message }
  | .scheduledNotification schedule_id schedule_name message =>
    let label := schedule_name.getD schedule_id
    { s with last_scheduled_notification := some ("[Scheduled: " ++ label ++ "] " ++ message) }
  | .sessionCreated _ session _ _ =>
    { { s with connected := true, session_id := some session.session_id,
               last_error := none }.clearActiveTurn with activity_status := none }
  | .sessionSwitched _ session active_turn =>
    { s with connected := true, session_id := some session.session_id, last_error := none,
             rendered_output := "", activity_status := none }.setActiveTurn active_turn
  | .sessionList .. | .policyNotification _ | .mediaAttachment .. => s

end TuiUiState

/-- The session that a frame makes the terminal show, if it names one. -/
def ServerFrame.shown : ServerFrame → Option String
  | .helloAck _ _ session _ | .turnStarted _ session _ | .assistantDelta _ session _ _
  | .turnCompleted _ session _ _ | .turnCancelled _ session _ | .turnProgress _ session _ _
  | .sessionCreated _ session _ _ | .sessionSwitched _ session _ => some session.session_id
  | .error _ session _ _ | .healthStatus _ _ session _ _ => session.map GatewaySession.session_id
  | .scheduledNotification .. | .sessionList .. | .mediaAttachment .. | .policyNotification _ =>
    none

/-- A slash command. -/
inductive SlashCommand where
  | new (display_name : Option String)
  | sessions
  | switch (session_id : String)
  | cancel
  | cancelall

/-- `ConnectionState`: the main loop waits to reconnect, it waits in `try_reconnect` for a
`HelloAck`, it is connected, or it has ended. -/
inductive ConnectionPhase where
  | reconnecting
  | handshaking
  | connected
  | exited
  deriving DecidableEq

/-- The terminal: its adapter, and its main loop. -/
structure TuiApp where
  user_id : String
  initial_session_id : Option String := none
  create_new_session_on_connect : Bool := true
  state : TuiUiState := {}
  phase : ConnectionPhase := .reconnecting
  /-- The frames that the adapter enqueued and the main loop did not take yet. -/
  outbox : List GatewayClientFrame := []

namespace TuiApp

variable (app : TuiApp)

/-- `build_hello_frame`. -/
def buildHelloFrame (request_id : String) : GatewayClientFrame :=
  match app.state.session_id with
  | some sid => .hello request_id gatewayProtocolVersion app.user_id (some sid) false
  | none =>
    match app.initial_session_id with
    | some sid => .hello request_id gatewayProtocolVersion app.user_id (some sid) false
    | none => .hello request_id gatewayProtocolVersion app.user_id none
        app.create_new_session_on_connect

/-- `enqueue_client_frame`. The main loop always listens. -/
def enqueueClientFrame (frame : GatewayClientFrame) : TuiApp :=
  { app with outbox := app.outbox ++ [frame] }

/-- `submit_prompt`. -/
def submitPrompt (request_id turn_id prompt : String) : TuiApp :=
  let app := { app with state := { app.state with prompt_buffer := prompt } }
  match app.state.session_id with
  | some session_id => app.enqueueClientFrame (.sendTurn request_id session_id turn_id prompt)
  | none => app

/-- What `try_handle_slash_command` does with a command. An error is only shown. -/
def runCommand (request_id : String) : SlashCommand → TuiApp
  | .new display_name => app.enqueueClientFrame (.createSession request_id display_name none)
  | .sessions => app.enqueueClientFrame (.listSessions request_id false false)
  | .switch session_id => app.enqueueClientFrame (.switchSession request_id session_id)
  | .cancel =>
    match app.state.session_id with
    | some session_id => app.enqueueClientFrame
        (.cancelActiveTurn request_id session_id (app.state.active_turn_id.getD ""))
    | none => app
  | .cancelall =>
    match app.state.session_id with
    | some _ => app.enqueueClientFrame (.cancelAllActiveTurns request_id)
    | none => app

/-- The test that `handle_action` makes before it takes what was typed. -/
def acceptsInput : Bool := app.state.active_turn_id.isNone && app.phase = .connected

/-- `handle_ctrl_c`, and the end of the main loop when there is nothing to cancel. -/
def handleCtrlC (request_id : String) : TuiApp :=
  match app.state.session_id, app.state.active_turn_id with
  | some session_id, some turn_id =>
    app.enqueueClientFrame (.cancelActiveTurn request_id session_id turn_id)
  | _, _ => { app with phase := .exited }

end TuiApp

/-! ## The gateway -/

/-- The gateway's configuration, and its sessions: what each handle stands for. -/
structure GatewayHost where
  config : GatewayConfig := {}
  session : ℕ → GatewaySession
  agent_name : ℕ → String := fun _ => "default"
  /-- The message of a health check, which depends on how the start went. -/
  health_message : String := "tui gateway ready"

/-- What all connections share. -/
structure GatewayHub where
  turns : TurnState
  /-- All frames that were published on a session's broadcast. -/
  events : ℕ → List ServerFrame := fun _ => []

/-- The frame that the gateway sends for a terminal frame of a session. -/
def TerminalFrame.toServer (session : GatewaySession) (frame : TerminalFrame) : ServerFrame :=
  match frame.ending with
  | .completed response =>
    .turnCompleted frame.request_id session ⟨frame.turn_id, .completed⟩ response
  | .cancelled => .turnCancelled frame.request_id session ⟨frame.turn_id, .cancelled⟩
  | .failed message =>
    .error (some frame.request_id) (some session) (some ⟨frame.turn_id, .failed⟩) message

/-- What is published on a session: by the task of one of its turns, or by `notify_user`. -/
inductive Publication where
  | turnStarted (request_id turn_id : String)
  | stream (request_id turn_id : String) (frame : StreamFrame)
  | scheduledNotification (schedule_id : String) (schedule_name : Option String) (message : String)
  /-- A scheduled attachment names the session of the schedule's run. -/
  | scheduledMedia (request_id : String) (session : GatewaySession) (attachment : MediaAttachment)
      (schedule_id : String)

/-- The frame of a publication on a session. -/
def Publication.toServer (session : GatewaySession) : Publication → ServerFrame
  | .turnStarted request_id turn_id => .turnStarted request_id session ⟨turn_id, .running⟩
  | .stream request_id turn_id (.assistantDelta delta) =>
    .assistantDelta request_id session ⟨turn_id, .running⟩ delta
  | .stream request_id turn_id (.turnProgress progress) =>
    .turnProgress request_id session ⟨turn_id, .running⟩ progress
  | .stream request_id _ (.mediaAttachment attachment) =>
    .mediaAttachment request_id session attachment none
  | .stream _ _ (.terminal frame) => frame.toServer session
  | .scheduledNotification schedule_id schedule_name message =>
    .scheduledNotification schedule_id schedule_name message
  | .scheduledMedia request_id run attachment schedule_id =>
    .mediaAttachment request_id run attachment (some schedule_id)

/-- Where the task of a connection is. A handle is that of its active session, and `next` is its
place in that session's broadcast. -/
inductive SocketPhase where
  | hello
  /-- It has subscribed, and did not answer the hello yet. -/
  | greeting (request_id : String) (handle next : ℕ)
  /-- It has sent its `HelloAck`. -/
  | greeted (handle next : ℕ)
  | serving (handle next : ℕ)
  /-- It has subscribed to the session to switch to, and did not say so yet. -/
  | switching (request_id : String) (handle target next : ℕ)
  | closed
  deriving DecidableEq

/-- The active session of a connection that was acknowledged. -/
def SocketPhase.active : SocketPhase → Option ℕ
  | .greeted handle _ | .serving handle _ | .switching _ handle _ _ => some handle
  | .hello | .greeting .. | .closed => none

/-- What the rest of the gateway answers: the session that a lookup finds or why there is none, how
many turns a cancellation of all of them reaches, and a listing. -/
structure GatewayAnswer where
  session : Except String ℕ
  cancelled : ℕ := 0
  listing : Except String (List GatewaySessionSummary) := .ok []

section

variable (host : GatewayHost) (hub : GatewayHub)

/-- `active_turn_status`. -/
def GatewayHub.activeTurnStatus (handle : ℕ) : Option GatewayTurnStatus :=
  (hub.turns.sessions handle).active_turn.map fun active => ⟨active.1, .running⟩

/-- The place of a new subscriber to a session. -/
def GatewayHub.subscribe (handle : ℕ) : ℕ := (hub.events handle).length

/-- An error frame that names a session and no turn. -/
def GatewayHost.errorFrame (handle : ℕ) (request_id : Option String) (message : String) :
    ServerFrame := .error request_id (some (host.session handle)) none message

/-- The answer to a turn or a cancellation that names a session other than the active one. -/
def sessionMismatch : String := "session_id does not match active session"

/-- The start of `handle_socket`, with the first frame. -/
def greet (answer : GatewayAnswer) : GatewayClientFrame → SocketPhase × Option ServerFrame
  | .hello request_id protocol_version _ _ _ =>
    if protocol_version ≠ gatewayProtocolVersion then
      (.closed, some (.error (some request_id) none none
        s!"unsupported protocol version {protocol_version}; expected {gatewayProtocolVersion}"))
    else
      match answer.session with
      | .error message => (.closed, some (.error (some request_id) none none message))
      | .ok handle => (.greeting request_id handle (hub.subscribe handle), none)
  | _ => (.closed, some (.error none none none "expected hello as first frame"))

/-- `handle_client_frame`, up to the first wait for a lock after a switch was resolved. -/
def handleClientFrame (handle next : ℕ) (answer : GatewayAnswer) :
    GatewayClientFrame → GatewayHub × SocketPhase × Option ServerFrame
  | .hello .. => (hub, .serving handle next,
      some (host.errorFrame handle none "hello already negotiated for this websocket connection"))
  | .sendTurn request_id session_id turn_id _ =>
    if session_id ≠ (host.session handle).session_id then
      (hub, .serving handle next, some (host.errorFrame handle (some request_id) sessionMismatch))
    else
      let (turns, rejection) :=
        startTurnWithOrigin host.config hub.turns handle ⟨request_id, turn_id, []⟩
      ({ hub with turns := turns }, .serving handle next, rejection.map fun rejection =>
        .error (some rejection.request_id) (some (host.session handle))
          (rejection.turn.map (⟨·, .running⟩)) rejection.message)
  | .cancelActiveTurn request_id session_id _ =>
    if session_id ≠ (host.session handle).session_id then
      (hub, .serving handle next, some (host.errorFrame handle (some request_id) sessionMismatch))
    else
      match (hub.turns.sessions handle).active_turn with
      | some (_, token) =>
        let cancelled := update hub.turns.cancelled token true
        ({ hub with turns := { hub.turns with cancelled } }, .serving handle next, none)
      | none => (hub, .serving handle next,
          some (host.errorFrame handle (some request_id) "no active turn to cancel"))
  | .cancelAllActiveTurns request_id =>
    (hub, .serving handle next, if answer.cancelled = 0 then
      some (host.errorFrame handle (some request_id) "no active turns to cancel") else none)
  | .healthCheck request_id =>
    (hub, .serving handle next, some (.healthStatus request_id true (some (host.session handle))
      (hub.activeTurnStatus handle) (some host.health_message)))
  | .createSession request_id display_name _ =>
    match answer.session with
    | .ok target => (hub, .serving target (hub.subscribe target),
        some (.sessionCreated request_id (host.session target) display_name
          (host.agent_name target)))
    | .error message =>
      (hub, .serving handle next, some (host.errorFrame handle (some request_id) message))
  | .listSessions request_id _ _ =>
    (hub, .serving handle next, some <| match answer.listing with
      | .ok sessions => .sessionList request_id sessions
      | .error message => host.errorFrame handle (some request_id) message)
  | .switchSession request_id _ =>
    match answer.session with
    | .ok target => (hub, .switching request_id handle target (hub.subscribe target), none)
    | .error message =>
      (hub, .serving handle next, some (host.errorFrame handle (some request_id) message))

/-- How the task goes on where it does not wait for a frame: it acknowledges the hello, sends the
terminal frame of the session's last turn if none is running, or says that it has switched. -/
def SocketPhase.proceed : SocketPhase → Option (SocketPhase × Option ServerFrame)
  | .greeting request_id handle next => some (.greeted handle next,
      some (.helloAck request_id gatewayProtocolVersion (host.session handle)
        (hub.activeTurnStatus handle)))
  | .greeted handle next =>
    let outcome := if (hub.activeTurnStatus handle).isNone then
        (hub.turns.sessions handle).latest_terminal_frame else none
    some (.serving handle next, outcome.map (·.toServer (host.session handle)))
  | .switching request_id _ target next => some (.serving target next,
      some (.sessionSwitched request_id (host.session target) (hub.activeTurnStatus target)))
  | .hello | .serving .. | .closed => none

end

/-! ## Both ends -/

/-- A terminal, the connection's task, and the frames between them. -/
structure GatewayLink where
  app : TuiApp
  socket : SocketPhase := .closed
  /-- The frames on the way to the gateway. -/
  up : List GatewayClientFrame := []
  /-- The frames on the way to the terminal. -/
  down : List ServerFrame := []

/-- What happens at a terminal, at its connection's task, or elsewhere in the gateway. -/
inductive LinkAction where
  /-- A prompt is entered. -/
  | submit (request_id turn_id prompt : String)
  | command (request_id : String) (command : SlashCommand)
  | ctrlC (request_id : String)
  | quit
  /-- The timer asks for the gateway's health. -/
  | tick (request_id : String)
  /-- The main loop takes a frame from the adapter. -/
  | forward
  /-- The adapter's ring laps its reader, and a frame is lost. -/
  | lose (k : ℕ)
  /-- The terminal takes a frame from the gateway. -/
  | receive
  | connect (request_id : String)
  /-- `try_reconnect` fails. -/
  | giveUp
  /-- The terminal sees that the connection is gone. -/
  | disconnect
  /-- The task reads a frame. -/
  | read (answer : GatewayAnswer)
  | proceed
  /-- The task takes a frame from its session's broadcast and sends it. -/
  | update
  /-- It was too slow, and loses frames of the broadcast. -/
  | lag (k : ℕ)
  /-- The connection ends, and only the first frames that were sent arrive. -/
  | close (k : ℕ)
  /-- Turns of any session take steps. -/
  | turns (turns : TurnState)
  | publish (handle : ℕ) (publication : Publication)

/-- The frame that the task sends, if there is one, goes on its way. -/
def GatewayLink.send (link : GatewayLink) (socket : SocketPhase) (frame : Option ServerFrame) :
    GatewayLink :=
  { link with socket := socket, down := link.down ++ frame.toList }

/-- The terminal takes a frame. A `HelloAck` ends `try_reconnect`, and the main loop listens to the
adapter anew. -/
def TuiApp.receive (app : TuiApp) (frame : ServerFrame) : TuiApp :=
  let app := { app with state := app.state.applyGatewayFrame frame }
  match app.phase, frame with
  | .handshaking, .helloAck .. => { app with phase := .connected, outbox := [] }
  | _, _ => app

section

variable (host : GatewayHost) (hub : GatewayHub) (link : GatewayLink)

/-- A step of the terminal. -/
def terminalStep : LinkAction → Option GatewayLink
  | .submit request_id turn_id prompt =>
    if link.app.acceptsInput then
      some { link with app := link.app.submitPrompt request_id turn_id prompt }
    else none
  | .command request_id command =>
    if link.app.acceptsInput then
      some { link with app := link.app.runCommand request_id command }
    else none
  | .ctrlC request_id =>
    match link.app.phase with
    | .reconnecting | .connected =>
      some { link with app := link.app.handleCtrlC request_id }
    | .handshaking | .exited => none
  | .quit => some { link with app := { link.app with phase := .exited } }
  | .tick request_id =>
    if link.app.phase = .connected then
      some { link with up := link.up ++ [.healthCheck request_id] }
    else none
  | .forward =>
    match link.app.phase, link.app.outbox with
    | .connected, frame :: rest =>
      some { link with app := { link.app with outbox := rest }, up := link.up ++ [frame] }
    -- without a connection the frame is dropped
    | .reconnecting, _ :: rest => some { link with app := { link.app with outbox := rest } }
    | _, _ => none
  | .lose k => some { link with app := { link.app with outbox := link.app.outbox.eraseIdx k } }
  | .receive =>
    match link.app.phase, link.down with
    | .handshaking, frame :: rest | .connected, frame :: rest =>
      some { link with app := link.app.receive frame, down := rest }
    | _, _ => none
  | .connect request_id =>
    if link.app.phase = .reconnecting then
      some { app := { link.app with phase := .handshaking }, socket := .hello,
             up := [link.app.buildHelloFrame request_id], down := [] }
    else none
  | .giveUp =>
    if link.app.phase = .handshaking then
      some { app := { link.app with phase := .reconnecting }, socket := .closed, up := [],
             down := [] }
    else none
  | .disconnect =>
    -- the reader has ended, and what it read before was taken
    if link.app.phase = .connected ∧ link.socket = .closed ∧ link.down = [] then
      let state := { link.app.state with connected := false }
      some { link with app := { link.app with phase := .reconnecting, state := state }, up := [] }
    else none
  | _ => none

/-- A step of the connection's task. -/
def socketStep : LinkAction → Option (GatewayHub × GatewayLink)
  | .read answer =>
    match link.socket, link.up with
    | .hello, frame :: rest =>
      let (socket, sent) := greet hub answer frame
      some (hub, { link with up := rest }.send socket sent)
    | .serving handle next, frame :: rest =>
      let (hub', socket, sent) := handleClientFrame host hub handle next answer frame
      some (hub', { link with up := rest }.send socket sent)
    | _, _ => none
  | .proceed =>
    (link.socket.proceed host hub).map fun (socket, sent) => (hub, link.send socket sent)
  | .update =>
    match link.socket with
    | .serving handle next => ((hub.events handle)[next]?).map fun frame =>
        (hub, link.send (.serving handle (next + 1)) (some frame))
    | _ => none
  | .lag k =>
    match link.socket with
    | .serving handle next =>
      if next + k ≤ (hub.events handle).length then
        some (hub, { link with socket := .serving handle (next + k) })
      else none
    | _ => none
  | .close k => some (hub, { link with socket := .closed, up := [], down := link.down.take k })
  | _ => none

/-- One step of one connection, or of the rest of the gateway. -/
def linkStep : LinkAction → Option (GatewayHub × GatewayLink)
  | .turns turns => some ({ hub with turns := turns }, link)
  | .publish handle publication =>
    let frame := publication.toServer (host.session handle)
    let events := update hub.events handle (hub.events handle ++ [frame])
    some ({ hub with events := events }, link)
  | act =>
    match terminalStep link act with
    | some link => some (hub, link)
    | none => socketStep host hub link act

end

/-- All runs of any number of terminals and one gateway. No terminal is connected at first. -/
def linkSystem (ι : Type) [DecidableEq ι] (host : GatewayHost) :
    System (Threads ι GatewayHub GatewayLink) (ι × LinkAction) :=
  interleave (fun s => (∀ h, s.shared.events h = []) ∧ ∀ i, ∃ app : TuiApp,
    s.threads i = { app := app } ∧ app.state = {} ∧ app.phase = .reconnecting ∧ app.outbox = [])
    (linkStep host)

/-! ## The session that is shown -/

section

variable (s : TuiUiState)

/-- The session stays. -/
@[simp]
theorem session_id_markActiveTurn (turn : GatewayTurnStatus) :
    (s.markActiveTurn turn).session_id = s.session_id := by
  unfold TuiUiState.markActiveTurn
  split <;> rfl

/-- The session stays. -/
@[simp]
theorem session_id_setActiveTurn (turn : Option GatewayTurnStatus) :
    (s.setActiveTurn turn).session_id = s.session_id := by
  cases turn with
  | none => rfl
  | some turn => exact session_id_markActiveTurn s turn

/-- A frame that names a session shows it, and another leaves what is shown. -/
theorem session_id_applyGatewayFrame (frame : ServerFrame) :
    (s.applyGatewayFrame frame).session_id = frame.shown.or s.session_id := by
  cases frame with
  | error _ session turn =>
    unfold TuiUiState.applyGatewayFrame ServerFrame.shown
    cases turn with
    | none => rfl
    | some turn =>
      dsimp only
      split
      · exact session_id_markActiveTurn _ turn
      · rfl
  | _ => simp [TuiUiState.applyGatewayFrame, ServerFrame.shown, TuiUiState.clearActiveTurn]

end

/-- Which session is shown after some frames depends on the one that was shown before. -/
theorem session_id_foldl_congr {s s' : TuiUiState} (h : s.session_id = s'.session_id)
    (frames : List ServerFrame) :
    (frames.foldl TuiUiState.applyGatewayFrame s).session_id =
      (frames.foldl TuiUiState.applyGatewayFrame s').session_id := by
  induction frames generalizing s s' with
  | nil => exact h
  | cons frame frames ih =>
    refine ih ?_
    rw [session_id_applyGatewayFrame, session_id_applyGatewayFrame, h]

/-! ## What the gateway sends -/

/-- A frame names the session of a handle, or none. -/
def ServerFrame.OfSession (host : GatewayHost) (handle : ℕ) (frame : ServerFrame) : Prop :=
  ∀ id ∈ frame.shown, (host.session handle).session_id = id

/-- What the task of a connection may send when it goes from one phase to another: a frame that
names the session which is active from now on; or it stays at its session, and a frame names that or
none. -/
def Sends (host : GatewayHost) (socket socket' : SocketPhase) (sent : Option ServerFrame) : Prop :=
  ∀ handle ∈ socket'.active,
    (∃ frame ∈ sent, frame.shown = some (host.session handle).session_id) ∨
      handle ∈ socket.active ∧ ∀ frame ∈ sent, frame.OfSession host handle

section

variable {host : GatewayHost} {hub : GatewayHub}

/-- A terminal frame names its session. -/
theorem ofSession_terminal (handle : ℕ) (frame : TerminalFrame) :
    (frame.toServer (host.session handle)).OfSession host handle := by
  unfold TerminalFrame.toServer
  cases frame.ending <;> exact fun _ hid => some.inj hid

/-- Whatever is published on a session names it or none. -/
theorem ofSession_publication (handle : ℕ) (publication : Publication) :
    (publication.toServer (host.session handle)).OfSession host handle := by
  cases publication with
  | stream request_id turn_id frame =>
    cases frame with
    | terminal frame => exact ofSession_terminal handle frame
    | mediaAttachment attachment => exact fun _ hid => absurd hid (not_mem_none _)
    | _ => exact fun _ hid => some.inj hid
  | turnStarted => exact fun _ hid => some.inj hid
  | scheduledNotification => exact fun _ hid => absurd hid (not_mem_none _)
  | scheduledMedia => exact fun _ hid => absurd hid (not_mem_none _)

/-- A connection that stays at its session sends frames of that session. -/
theorem sends_stay {socket socket' : SocketPhase} {handle : ℕ} {sent : Option ServerFrame}
    (hactive : socket.active = some handle) (hactive' : socket'.active = some handle)
    (hsent : ∀ frame ∈ sent, frame.OfSession host handle) : Sends host socket socket' sent := by
  intro handle' hmem
  obtain rfl := mem_unique hactive' hmem
  exact .inr ⟨hactive, hsent⟩

/-- A closed socket sends nothing. -/
theorem sends_closed {socket socket' : SocketPhase} {sent : Option ServerFrame}
    (h : socket'.active = none) : Sends host socket socket' sent :=
  fun _ hmem => absurd (h ▸ hmem) (not_mem_none _)

/-- Before the hello is acknowledged, no session is active. -/
theorem active_greet (hub : GatewayHub) (answer : GatewayAnswer) (frame : GatewayClientFrame) :
    (greet hub answer frame).1.active = none := by
  cases frame with
  | hello =>
    unfold greet
    dsimp only
    split
    · rfl
    · cases answer.session <;> rfl
  | _ => rfl

/-- The answers to a client. -/
theorem handleClientFrame_sends (handle next : ℕ) (answer : GatewayAnswer)
    (frame : GatewayClientFrame) :
    Sends host (.serving handle next) (handleClientFrame host hub handle next answer frame).2.1
      (handleClientFrame host hub handle next answer frame).2.2 := by
  have hstay : ∀ frame : ServerFrame, frame.OfSession host handle →
      Sends host (.serving handle next) (.serving handle next) (some frame) := by
    intro frame hframe
    refine sends_stay rfl rfl fun frame' hmem => ?_
    exact some.inj hmem ▸ hframe
  have herror : ∀ request_id message, Sends host (.serving handle next) (.serving handle next)
      (some (host.errorFrame handle request_id message)) :=
    fun _ _ => hstay _ fun _ hid => some.inj hid
  have hquiet : ∀ next', Sends host (.serving handle next) (.serving handle next') none :=
    fun _ => sends_stay rfl rfl fun _ hmem => absurd hmem (not_mem_none _)
  cases frame with
  | hello => exact herror _ _
  | sendTurn request_id session_id turn_id =>
    unfold handleClientFrame
    dsimp only
    split
    · exact herror _ _
    · cases (startTurnWithOrigin host.config hub.turns handle ⟨request_id, turn_id, []⟩).2 with
      | none => exact hquiet _
      | some rejection => exact hstay _ fun _ hid => some.inj hid
  | cancelActiveTurn request_id session_id =>
    unfold handleClientFrame
    dsimp only
    split
    · exact herror _ _
    · cases (hub.turns.sessions handle).active_turn with
      | none => exact herror _ _
      | some active => exact hquiet _
  | cancelAllActiveTurns request_id =>
    unfold handleClientFrame
    dsimp only
    split
    · exact herror _ _
    · exact hquiet _
  | healthCheck => exact hstay _ fun _ hid => some.inj hid
  | createSession request_id display_name =>
    unfold handleClientFrame
    dsimp only
    cases answer.session with
    | error message => exact herror _ _
    | ok target => exact fun _ hmem => .inl ⟨_, rfl, some.inj hmem ▸ rfl⟩
  | listSessions request_id =>
    unfold handleClientFrame
    cases answer.listing with
    | error message => exact herror _ _
    | ok sessions => exact hstay _ fun _ hid => absurd hid (not_mem_none _)
  | switchSession request_id =>
    unfold handleClientFrame
    cases answer.session with
    | error message => exact herror _ _
    | ok target => exact sends_stay rfl rfl fun _ hmem => absurd hmem (not_mem_none _)

/-- One step of a socket. -/
theorem proceed_sends {socket : SocketPhase} {out : SocketPhase × Option ServerFrame}
    (h : socket.proceed host hub = some out) : Sends host socket out.1 out.2 := by
  cases socket with
  | greeting | switching =>
    cases h
    exact fun _ hmem => .inl ⟨_, rfl, some.inj hmem ▸ rfl⟩
  | greeted handle next =>
    cases h
    refine sends_stay rfl rfl fun frame hmem => ?_
    obtain ⟨outcome, -, rfl⟩ := map_eq_some_iff.mp hmem
    exact ofSession_terminal handle outcome
  | hello | serving | closed => cases h

end

/-! ## Agreement -/

/-- The frames that were published on a session name it or none. -/
def EventsNamed (host : GatewayHost) (hub : GatewayHub) : Prop :=
  ∀ handle, ∀ frame ∈ hub.events handle, frame.OfSession host handle

/-- When the frames on their way have come, the active session of the connection is shown. -/
def ShowsActive (host : GatewayHost) (link : GatewayLink) : Prop :=
  ∀ handle ∈ link.socket.active,
    (link.down.foldl TuiUiState.applyGatewayFrame link.app.state).session_id =
      some (host.session handle).session_id

section

variable {host : GatewayHost} {hub hub' : GatewayHub} {link link' : GatewayLink} {act : LinkAction}

/-- A connection without a session shows nothing wrong. -/
theorem showsActive_of_none (h : link.socket.active = none) : ShowsActive host link :=
  fun _ hmem => absurd (h ▸ hmem) (not_mem_none _)

/-- A frame is sent. -/
theorem ShowsActive.send (h : ShowsActive host link) {socket : SocketPhase}
    {sent : Option ServerFrame} (hsends : Sends host link.socket socket sent) :
    ShowsActive host (link.send socket sent) := by
  have hlast : ∀ frame : ServerFrame,
      ((link.down ++ [frame]).foldl TuiUiState.applyGatewayFrame link.app.state).session_id =
        frame.shown.or (link.down.foldl TuiUiState.applyGatewayFrame
          link.app.state).session_id := by
    intro frame
    rw [foldl_append]
    exact session_id_applyGatewayFrame _ frame
  intro handle hmem
  obtain ⟨frame, hsent, hshown⟩ | ⟨hactive, hsent⟩ := hsends handle hmem
  · rw [hsent]
    refine (hlast frame).trans ?_
    rw [hshown, some_or]
  · have hleads := h handle hactive
    cases sent with
    | none =>
      rw [GatewayLink.send, toList_none, append_nil]
      exact hleads
    | some frame =>
      refine (hlast frame).trans ?_
      cases hid : frame.shown with
      | none => exact hleads
      | some id => rw [some_or, hsent frame rfl id hid]

/-- What a step leaves as it is: the session that is shown, the frames on their way, and the session
of the connection, if it has one. -/
theorem ShowsActive.same (h : ShowsActive host link)
    (hsession : link'.app.state.session_id = link.app.state.session_id)
    (hdown : link'.down = link.down)
    (hactive : ∀ handle ∈ link'.socket.active, handle ∈ link.socket.active) :
    ShowsActive host link' := by
  intro handle hmem
  rw [hdown, session_id_foldl_congr hsession]
  exact h handle (hactive handle hmem)

/-- A prompt changes no session. -/
theorem session_id_submitPrompt (app : TuiApp) (request_id turn_id prompt : String) :
    (app.submitPrompt request_id turn_id prompt).state.session_id = app.state.session_id := by
  unfold TuiApp.submitPrompt
  dsimp only
  split <;> rfl

/-- Nor does a command. -/
theorem session_id_runCommand (app : TuiApp) (request_id : String) (command : SlashCommand) :
    (app.runCommand request_id command).state.session_id = app.state.session_id := by
  unfold TuiApp.runCommand
  split <;> first | rfl | (split <;> rfl)

/-- Nor does Ctrl-C. -/
theorem session_id_handleCtrlC (app : TuiApp) (request_id : String) :
    (app.handleCtrlC request_id).state.session_id = app.state.session_id := by
  unfold TuiApp.handleCtrlC
  split <;> rfl

/-- The first frame that is on its way is shown. -/
theorem ShowsActive.receive (h : ShowsActive host link) {frame : ServerFrame}
    {rest : List ServerFrame} (hdown : link.down = frame :: rest) :
    ShowsActive host { link with app := link.app.receive frame, down := rest } := by
  have hstate : (link.app.receive frame).state = link.app.state.applyGatewayFrame frame := by
    unfold TuiApp.receive
    dsimp only
    split <;> rfl
  intro handle hmem
  have hleads := h handle hmem
  rw [hdown, foldl_cons] at hleads
  dsimp only
  rw [hstate]
  exact hleads

/-- A step of the terminal. -/
theorem ShowsActive.terminal (h : ShowsActive host link)
    (hstep : terminalStep link act = some link') : ShowsActive host link' := by
  obtain ⟨app, socket, up, down⟩ := link
  cases act with
  | submit =>
    simp only [terminalStep, ite_none_right_eq_some, some.injEq] at hstep
    obtain ⟨-, rfl⟩ := hstep
    exact h.same (session_id_submitPrompt ..) rfl fun _ hmem => hmem
  | command =>
    simp only [terminalStep, ite_none_right_eq_some, some.injEq] at hstep
    obtain ⟨-, rfl⟩ := hstep
    exact h.same (session_id_runCommand ..) rfl fun _ hmem => hmem
  | ctrlC =>
    unfold terminalStep at hstep
    dsimp only at hstep
    split at hstep <;> cases hstep <;>
      exact h.same (session_id_handleCtrlC ..) rfl fun _ hmem => hmem
  | quit | lose =>
    cases hstep
    exact h.same rfl rfl fun _ hmem => hmem
  | tick | disconnect =>
    simp only [terminalStep, ite_none_right_eq_some, some.injEq] at hstep
    obtain ⟨-, rfl⟩ := hstep
    exact h.same rfl rfl fun _ hmem => hmem
  | forward =>
    unfold terminalStep at hstep
    dsimp only at hstep
    split at hstep <;> cases hstep <;> exact h.same rfl rfl fun _ hmem => hmem
  | receive =>
    unfold terminalStep at hstep
    dsimp only at hstep
    split at hstep <;> cases hstep <;> exact h.receive rfl
  | connect | giveUp =>
    simp only [terminalStep, ite_none_right_eq_some, some.injEq] at hstep
    obtain ⟨-, rfl⟩ := hstep
    exact showsActive_of_none rfl
  | read | proceed | update | lag | close | turns | publish => cases hstep

/-- A frame of a terminal publishes nothing by itself. -/
theorem events_handleClientFrame (host : GatewayHost) (hub : GatewayHub) (handle next : ℕ)
    (answer : GatewayAnswer) (frame : GatewayClientFrame) :
    (handleClientFrame host hub handle next answer frame).1.events = hub.events := by
  cases frame <;> simp only [handleClientFrame] <;> (repeat' split) <;> rfl

/-- A step of the socket. -/
theorem ShowsActive.socket (h : ShowsActive host link) (hevents : EventsNamed host hub)
    (hstep : socketStep host hub link act = some (hub', link')) :
    ShowsActive host link' ∧ hub'.events = hub.events := by
  have hread : ∀ rest, ShowsActive host { link with up := rest } :=
    fun _ => h.same rfl rfl fun _ hmem => hmem
  obtain ⟨app, socket, up, down⟩ := link
  cases act with
  | read answer =>
    unfold socketStep at hstep
    dsimp only at hstep
    split at hstep
    · cases hstep
      exact ⟨(hread _).send (sends_closed (active_greet ..)), rfl⟩
    · cases hstep
      exact ⟨(hread _).send (handleClientFrame_sends _ _ _ _), events_handleClientFrame ..⟩
    · cases hstep
  | proceed =>
    obtain ⟨out, hout, heq⟩ := map_eq_some_iff.mp hstep
    cases heq
    exact ⟨h.send (proceed_sends hout), rfl⟩
  | update =>
    unfold socketStep at hstep
    dsimp only at hstep
    split at hstep
    · next handle next =>
      obtain ⟨frame, hframe, heq⟩ := map_eq_some_iff.mp hstep
      cases heq
      have hnamed := hevents handle frame (mem_of_getElem? hframe)
      refine ⟨h.send (sends_stay rfl rfl fun frame' hmem => ?_), rfl⟩
      exact some.inj hmem ▸ hnamed
    · cases hstep
  | lag k =>
    unfold socketStep at hstep
    dsimp only at hstep
    split at hstep
    · simp only [ite_none_right_eq_some, some.injEq, Prod.mk.injEq] at hstep
      obtain ⟨-, rfl, rfl⟩ := hstep
      exact ⟨h.same rfl rfl fun _ hmem => hmem, rfl⟩
    · cases hstep
  | close k =>
    cases hstep
    exact ⟨showsActive_of_none rfl, rfl⟩
  | _ => cases hstep

/-- A publication adds a frame of its session. -/
theorem mem_events_publish {handle handle' : ℕ} {publication : Publication} {frame : ServerFrame}
    (hmem : frame ∈ update hub.events handle
      (hub.events handle ++ [publication.toServer (host.session handle)]) handle') :
    frame ∈ hub.events handle' ∨ frame.OfSession host handle' := by
  by_cases hhandle : handle' = handle
  · subst hhandle
    rw [update_self] at hmem
    obtain hmem | hmem := mem_append.mp hmem
    · exact .inl hmem
    · rw [mem_singleton.mp hmem]
      exact .inr (ofSession_publication handle' publication)
  · rw [update_of_ne hhandle] at hmem
    exact .inl hmem

/-- A step of either. -/
theorem ShowsActive.step (h : ShowsActive host link) (hevents : EventsNamed host hub)
    (hstep : linkStep host hub link act = some (hub', link')) :
    ShowsActive host link' ∧ EventsNamed host hub' := by
  have hrun : (match terminalStep link act with
      | some link => some (hub, link)
      | none => socketStep host hub link act) = some (hub', link') →
      ShowsActive host link' ∧ EventsNamed host hub' := by
    intro hstep
    split at hstep
    · next hterminal =>
      cases hstep
      exact ⟨h.terminal hterminal, hevents⟩
    · obtain ⟨hlink, hsame⟩ := h.socket hevents hstep
      exact ⟨hlink, fun handle frame hmem => hevents handle frame (hsame ▸ hmem)⟩
  cases act with
  | turns turns =>
    cases hstep
    exact ⟨h, hevents⟩
  | publish handle publication =>
    cases hstep
    refine ⟨h, fun handle' frame hmem => ?_⟩
    exact (mem_events_publish hmem).elim (hevents handle' frame) id
  | _ => exact hrun hstep

variable {ι : Type} [DecidableEq ι]

/-- In every run of any number of terminals and one gateway, whatever is lost or breaks, a terminal
shows the active session of its connection when the frames that are on their way to it have come. -/
theorem terminal_shows_active {s : Threads ι GatewayHub GatewayLink}
    (h : (linkSystem ι host).Reach s) (i : ι) : ShowsActive host (s.threads i) := by
  have hall : EventsNamed host s.shared ∧ ∀ i, ShowsActive host (s.threads i) := by
    apply h.invariant
    · rintro s ⟨hevents, hlinks⟩
      refine ⟨fun handle frame hmem => ?_, fun i => ?_⟩
      · rw [hevents handle] at hmem
        cases hmem
      · obtain ⟨app, hlink, -⟩ := hlinks i
        rw [hlink]
        exact showsActive_of_none rfl
    · rintro s ⟨i, act⟩ t ⟨hevents, hshows⟩ _ hst
      obtain ⟨hub', link', hstep, rfl⟩ := interleave_step hst
      obtain ⟨hlink, hevents'⟩ := (hshows i).step hevents hstep
      refine ⟨hevents', fun j => ?_⟩
      dsimp only
      by_cases hj : j = i
      · subst hj
        rwa [update_self]
      · rw [update_of_ne hj]
        exact hshows j
  exact hall.2 i

end

/-! ## Two terminals and two sessions -/

/-- Two sessions of Alice. -/
def aliceHost : GatewayHost where
  session handle := ⟨"alice", if handle = 0 then "first" else "second"⟩

/-- Two terminals of Alice, and a gateway that runs one turn at a time. -/
def twoTerminals : Threads Bool GatewayHub GatewayLink where
  shared := { turns := { permits := 1 } }
  threads _ := { app := { user_id := "alice" } }

/-- Two terminals at one hub. -/
theorem reach_twoTerminals : (linkSystem Bool aliceHost).Reach twoTerminals :=
  .init ⟨fun _ => rfl, fun _ => ⟨{ user_id := "alice" }, rfl, rfl, rfl, rfl⟩⟩

/-- A terminal connects to the first session and asks for the second one, while a turn of the first
one goes on. The answer to the switch is sent behind what came before. -/
def switchedSession : List (Bool × LinkAction) :=
  [(true, .connect "r1"), (true, .read ⟨.ok 0, 0, .ok []⟩), (true, .proceed), (true, .receive),
    (true, .proceed), (true, .command "r2" (.switch "second")), (true, .forward),
    (false, .publish 0 (.turnStarted "r3" "t1")), (true, .update),
    (true, .read ⟨.ok 1, 0, .ok []⟩), (true, .proceed)]

/-- The terminal still shows the first session, with a frame of it on the way, and comes to show the
second one. -/
theorem terminal_shows_active_switched :
    ∃ s : Threads Bool GatewayHub GatewayLink,
      (s.threads true).app.state.session_id = some "first" ∧
      (s.threads true).socket.active = some 1 ∧ (s.threads true).down.length = 2 ∧
      ShowsActive aliceHost (s.threads true) := by
  have hrun : ((exec (fun _ _ => True) (threadStep (linkStep aliceHost)) twoTerminals
      switchedSession).map fun s => ((s.threads true).app.state.session_id,
        (s.threads true).socket.active, (s.threads true).down.length)) =
      some (some "first", some 1, 2) := by decide +kernel
  obtain ⟨s, hs, heq⟩ := map_eq_some_iff.mp hrun
  simp only [Prod.mk.injEq] at heq
  obtain ⟨hshown, hactive, hdown⟩ := heq
  exact ⟨s, hshown, hactive, hdown,
    terminal_shows_active (reachWithin_exec reach_twoTerminals hs) true⟩

end Oxydra
