import Oxydra.Library.Lts
import Oxydra.Tools.ShellDaemon

/-!
# Requests and replies on a connection

`ShellDaemonRpcClient` of `crates/tools/src/sandbox/mod.rs` and the daemon at the other end of its
connection. The client numbers its requests, sends one, and takes the next frame for the reply to
it; the daemon answers the requests of a connection one after the other. A caller that is cancelled
or times out goes away, while its request is on its way, is answered, and has its reply in the
queue for whoever reads next.

The client does not look at the id of a reply. `correlated_iff` says which replies are right: those
for a request that was sent when no other was left without its reply being read.
-/

namespace Oxydra

open Option List Lts

/-! ## The client -/

inductive SessionUnavailableReason where
  | missingSidecarEndpoint
  | unsupportedTransport
  | invalidAddress
  | connectionFailed
  | protocolError
  | disabled
  deriving DecidableEq, Repr

/-- `SandboxError`, the errors of a shell session. -/
inductive SandboxError where
  | sessionUnavailable (reason : SessionUnavailableReason) (detail : String)
  | emptyCommand
  | transport (error : String)
  | deserializeResponse (error : String)
  | connectionClosed
  | shellDaemon (request_id : Option String) (message : String)
  | unexpectedResponse (expected actual : String)
  | shellDaemonRejected (request_id : String)
  deriving DecidableEq, Repr

/-- `response_label`. -/
def responseLabel : ShellDaemonResponse → String
  | .spawnSession _ => "spawn_session"
  | .execCommand _ => "exec_command"
  | .streamOutput _ => "stream_output"
  | .killSession _ => "kill_session"
  | .error _ => "error"

/-- The label of the response that a request expects. -/
def ShellDaemonRequest.expected : ShellDaemonRequest → String
  | .spawnSession _ => "spawn_session"
  | .execCommand _ => "exec_command"
  | .streamOutput _ => "stream_output"
  | .killSession _ => "kill_session"

/-- What the caller of a request gets for the response that was read: the response itself when it
is of the kind that is expected. -/
def takeResponse (request : ShellDaemonRequest) (response : ShellDaemonResponse) :
    Except SandboxError ShellDaemonResponse :=
  match request, response with
  | .execCommand _, .execCommand ack =>
    if ack.accepted then .ok response else .error (.shellDaemonRejected ack.request_id)
  | _, .error failure => .error (.shellDaemon failure.request_id failure.message)
  | _, _ =>
    if responseLabel response = request.expected then .ok response
    else .error (.unexpectedResponse request.expected (responseLabel response))

/-- A call of the client: a request without its id. -/
inductive ShellCall where
  | spawnSession (shell cwd : Option String) (env : List (String × String))
  | execCommand (session_id command : String) (timeout_secs : Option ℕ)
  | streamOutput (session_id : String) (max_bytes : Option ℕ)
  | killSession (session_id : String)
  deriving DecidableEq, Repr

/-- The request of a call, with `next_request_id`. -/
def ShellCall.request (number : ℕ) : ShellCall → ShellDaemonRequest
  | .spawnSession shell cwd env => .spawnSession ⟨numberedId "spawn" number, shell, cwd, env⟩
  | .execCommand session_id command timeout_secs =>
    .execCommand ⟨numberedId "exec" number, session_id, command, timeout_secs⟩
  | .streamOutput session_id max_bytes =>
    .streamOutput ⟨numberedId "stream" number, session_id, max_bytes⟩
  | .killSession session_id => .killSession ⟨numberedId "kill" number, session_id⟩

theorem ShellCall.requestId_request (call : ShellCall) (number : ℕ) :
    ∃ name, (call.request number).requestId = numberedId name number := by
  cases call <;> exact ⟨_, rfl⟩

/-! ## The connection -/

/-- A response on its way, and the request that the daemon answered with it. -/
structure Reply where
  request : ShellDaemonRequest
  response : ShellDaemonResponse
  deriving DecidableEq, Repr

/-- A request whose caller waits for its reply, and how many requests before it had replies that
were not read when it was sent. -/
structure Waiting where
  request : ShellDaemonRequest
  owed : ℕ
  deriving DecidableEq, Repr

/-- A reply that the caller of a request has read. -/
structure Delivery extends Waiting where
  reply : Reply
  deriving DecidableEq, Repr

/-- A connection: the client's counter, the daemon's sessions, the frames on their way to the daemon
and back, the caller that waits, and what callers have read. -/
structure Connection where
  next_request_number : ℕ := 0
  manager : SessionManager := {}
  requests : List ShellDaemonRequest := []
  replies : List Reply := []
  waiting : Option Waiting := none
  read : List Delivery := []

namespace Connection

/-- The requests whose replies are not read yet. -/
def unread (connection : Connection) : List ShellDaemonRequest :=
  connection.replies.map (·.request) ++ connection.requests

/-- What happens on a connection. A caller that is cancelled, times out or finds the connection
broken abandons its request. -/
inductive Step where
  | send (call : ShellCall)
  | abandon
  | handle (meanwhile : SessionManager) (run : CommandRun)
  | others (manager : SessionManager)
  | receive

/-- One step of a connection, where it is possible. -/
def step (from_utf8_lossy : List UInt8 → String) (connection : Connection) :
    Step → Option Connection
  | .send call =>
    match connection.waiting with
    | some _ => none
    | none =>
      let number := connection.next_request_number + 1
      let request := call.request number
      some { connection with
        next_request_number := number
        requests := connection.requests ++ [request]
        waiting := some ⟨request, connection.unread.length⟩ }
  | .abandon => some { connection with waiting := none }
  | .handle meanwhile run =>
    match connection.requests with
    | [] => none
    | request :: rest =>
      let (response, manager) :=
        handleRequest from_utf8_lossy connection.manager meanwhile run request
      some { connection with
        manager
        requests := rest
        replies := connection.replies ++ [⟨request, response⟩] }
  | .others manager => some { connection with manager }
  | .receive =>
    match connection.waiting, connection.replies with
    | some waiting, reply :: rest =>
      -- the reply is the next frame, whatever request it is for
      some { connection with
        waiting := none
        replies := rest
        read := connection.read ++ [{ waiting with reply }] }
    | _, _ => none

/-- Everything that can happen on a new connection to a daemon. -/
def system (from_utf8_lossy : List UInt8 → String) : System Connection Step :=
  ofStep (fun connection => ∃ manager, connection = { manager }) (step from_utf8_lossy)

end Connection

/-- The caller gets the reply, or its error, and does not find that it is of another kind. -/
def Delivery.IsDelivered (delivery : Delivery) : Prop :=
  ∀ expected actual, takeResponse delivery.request delivery.reply.response ≠
    .error (.unexpectedResponse expected actual)

/-- What the caller gets is the daemon's reply to its own request, with its id and its session. -/
def Delivery.Correlated (delivery : Delivery) : Prop :=
  delivery.reply.request = delivery.request ∧ delivery.reply.response.IsFor delivery.request

/-! ## Which replies are right -/

namespace Connection

/-- What holds of a connection: a reply on its way is for the request it answers, the requests
without a read reply have different ids with numbers up to the counter, the request that is waited
for is the last of them, and a reply that was read is the right one exactly when none was owed. -/
structure Sound (connection : Connection) : Prop where
  replies_isFor : ∀ reply ∈ connection.replies, reply.response.IsFor reply.request
  numbered : ∀ request ∈ connection.unread, ∃ name, ∃ number ≤ connection.next_request_number,
    request.requestId = numberedId name number
  distinct : (connection.unread.map (·.requestId)).Nodup
  last : ∀ waiting ∈ connection.waiting, ∃ earlier,
    connection.unread = earlier ++ [waiting.request] ∧ earlier.length = waiting.owed
  read_iff : ∀ delivery ∈ connection.read, delivery.Correlated ↔ delivery.owed = 0

variable {from_utf8_lossy : List UInt8 → String} {connection after : Connection}

/-- The next frame is the reply to the request that waits for it, if no other reply is owed, and
else to one with another id. -/
theorem Sound.reply_correlated (h : connection.Sound) {waiting : Waiting}
    (hwaiting : connection.waiting = some waiting) {reply : Reply} {rest : List Reply}
    (hreplies : connection.replies = reply :: rest) :
    Delivery.Correlated { waiting with reply } ↔ waiting.owed = 0 := by
  obtain ⟨earlier, hunread, hlength⟩ := h.last waiting hwaiting
  have hhead : connection.unread =
      reply.request :: (rest.map (·.request) ++ connection.requests) := by
    simp [unread, hreplies]
  have hisFor : reply.response.IsFor reply.request := h.replies_isFor reply (by simp [hreplies])
  cases earlier with
  | nil =>
    rw [hhead] at hunread
    obtain ⟨hsame, _⟩ := List.cons.inj hunread
    refine iff_of_true ⟨hsame, ?_⟩ hlength.symm
    exact hsame ▸ hisFor
  | cons first earlier =>
    refine iff_of_false ?_ (by rw [← hlength]; simp)
    rintro ⟨hsame, _⟩
    have hfirst : first = reply.request := by
      rw [hhead] at hunread
      exact (List.cons.inj hunread).1.symm
    have hdistinct := h.distinct
    rw [hunread, hfirst] at hdistinct
    simp only [cons_append, map_cons, map_append, map_nil, nodup_cons,
      mem_append, mem_singleton, not_or] at hdistinct
    exact hdistinct.1.2 (congrArg ShellDaemonRequest.requestId hsame)

/-- A call sends a request with an id of its own. -/
theorem Sound.send (h : connection.Sound) {call : ShellCall}
    (hstep : step from_utf8_lossy connection (.send call) = some after) : after.Sound := by
  obtain ⟨name, hname⟩ := call.requestId_request (connection.next_request_number + 1)
  cases hwaiting : connection.waiting with
  | some waiting => simp [step, hwaiting] at hstep
  | none =>
    simp only [step, hwaiting, some.injEq] at hstep
    have hunread : after.unread =
        connection.unread ++ [call.request (connection.next_request_number + 1)] := by
      simp [← hstep, unread]
    subst hstep
    refine ⟨h.replies_isFor, ?_, ?_, ?_, h.read_iff⟩
    · intro request hrequest
      rw [hunread, mem_append, mem_singleton] at hrequest
      rcases hrequest with hold | rfl
      · obtain ⟨name, number, hle, hid⟩ := h.numbered request hold
        exact ⟨name, number, Nat.le_succ_of_le hle, hid⟩
      · exact ⟨name, _, Nat.le_refl _, hname⟩
    · rw [hunread, map_append, nodup_append]
      refine ⟨h.distinct, by simp, fun id hid new hnew hsame => ?_⟩
      obtain ⟨request, hrequest, rfl⟩ := mem_map.1 hid
      obtain ⟨other, number, hle, hother⟩ := h.numbered request hrequest
      rw [map_singleton, mem_singleton] at hnew
      rw [hnew, hname, hother] at hsame
      have hnumber := numberedId_inj hsame
      omega
    · rintro waiting ⟨⟩
      exact ⟨connection.unread, hunread, rfl⟩

/-- The daemon answers the first request that it was sent. -/
theorem Sound.handle (h : connection.Sound) {meanwhile : SessionManager} {run : CommandRun}
    (hstep : step from_utf8_lossy connection (.handle meanwhile run) = some after) :
    after.Sound := by
  cases hrequests : connection.requests with
  | nil => simp [step, hrequests] at hstep
  | cons request rest =>
    simp only [step, hrequests, some.injEq] at hstep
    subst hstep
    refine ⟨?_, ?_, ?_, ?_, h.read_iff⟩
    · intro reply hreply
      rw [mem_append, mem_singleton] at hreply
      rcases hreply with hold | rfl
      · exact h.replies_isFor reply hold
      · exact handleRequest_isFor from_utf8_lossy connection.manager meanwhile run request
    · simpa [unread, hrequests] using h.numbered
    · simpa [unread, hrequests] using h.distinct
    · simpa [unread, hrequests] using h.last

/-- The caller that waits reads the next frame. -/
theorem Sound.receive (h : connection.Sound)
    (hstep : step from_utf8_lossy connection .receive = some after) : after.Sound := by
  cases hwaiting : connection.waiting with
  | none => simp [step, hwaiting] at hstep
  | some waiting =>
    cases hreplies : connection.replies with
    | nil => simp [step, hwaiting, hreplies] at hstep
    | cons reply rest =>
      simp only [step, hwaiting, hreplies, some.injEq] at hstep
      subst hstep
      have hunread : connection.unread =
          reply.request :: (rest.map (·.request) ++ connection.requests) := by
        simp [unread, hreplies]
      refine ⟨?_, ?_, ?_, by simp, ?_⟩
      · exact fun other hother => h.replies_isFor other (by simp [hreplies, hother])
      · intro request hrequest
        exact h.numbered request (hunread ▸ mem_cons_of_mem _ hrequest)
      · have hdistinct := h.distinct
        rw [hunread, map_cons, nodup_cons] at hdistinct
        exact hdistinct.2
      · intro delivery hdelivery
        rw [mem_append, mem_singleton] at hdelivery
        rcases hdelivery with hold | rfl
        · exact h.read_iff delivery hold
        · exact h.reply_correlated hwaiting hreplies

/-- Every connection is sound. -/
theorem sound_of_reach (h : (system from_utf8_lossy).Reach connection) : connection.Sound := by
  refine h.invariant ?_ ?_
  · rintro _ ⟨manager, rfl⟩
    constructor <;> simp [unread]
  · intro before label after hsound _ hstep
    cases label with
    | send call => exact hsound.send hstep
    | handle meanwhile run => exact hsound.handle hstep
    | receive => exact hsound.receive hstep
    | abandon =>
      cases hstep
      exact ⟨hsound.replies_isFor, hsound.numbered, hsound.distinct, by simp, hsound.read_iff⟩
    | others manager =>
      cases hstep
      exact ⟨hsound.replies_isFor, hsound.numbered, hsound.distinct, hsound.last, hsound.read_iff⟩

/-- On every connection, all that callers get are the daemon's replies to their own requests exactly
when each of those requests was sent when no other had a reply that was not read. -/
theorem correlated_iff (from_utf8_lossy : List UInt8 → String) (connection : Connection)
    (h : (system from_utf8_lossy).Reach connection) :
    (∀ delivery ∈ connection.read, delivery.IsDelivered → delivery.Correlated) ↔
      ∀ delivery ∈ connection.read, delivery.IsDelivered → delivery.owed = 0 := by
  have hread := (sound_of_reach h).read_iff
  refine forall₂_congr fun delivery hmem => ?_
  rw [hread delivery hmem]

/-- A session is opened, a command lists a directory in it, its output is asked for, and the session
is killed: each request is answered, and its reply read, before the next is sent. -/
def listedDirectory : List Step :=
  let opened : SessionManager := {
    next_session_number := 1
    sessions := fun id => if id = "session-000001" then some ⟨⟨"/bin/sh", none, []⟩, []⟩ else none }
  [(.spawnSession none none [], .notStarted ""),
    (.execCommand "session-000001" "ls" (some 55), .started true (.ok ([0x61, 0x0A], []))),
    (.streamOutput "session-000001" none, .notStarted ""),
    (.killSession "session-000001", .notStarted "")].flatMap fun (call, run) =>
      [.send call, .handle opened run, .receive]

/-- The text of ASCII bytes. -/
def asciiText (bytes : List UInt8) : String := String.ofList (bytes.map fun b => .ofNat b.toNat)

/-- The replies of a connection on which no request is given up are read by their own callers. -/
theorem opened_correlated : ∃ connection, (system asciiText).Reach connection ∧
    (connection.read.map fun delivery => delivery.reply.response) =
      [.spawnSession ⟨"spawn-000001", "session-000001"⟩, .execCommand ⟨"exec-000002", true⟩,
        .streamOutput ⟨"stream-000003", "session-000001", .stdout, "a\n", true⟩,
        .killSession ⟨"kill-000004", true⟩] ∧
    ∀ delivery ∈ connection.read, delivery.IsDelivered → delivery.Correlated := by
  obtain ⟨connection, hrun, hread, howed⟩ :
      ∃ connection ∈ exec (fun _ _ => True) (step asciiText) {} listedDirectory,
        (connection.read.map fun delivery => delivery.reply.response) =
          [.spawnSession ⟨"spawn-000001", "session-000001"⟩, .execCommand ⟨"exec-000002", true⟩,
            .streamOutput ⟨"stream-000003", "session-000001", .stdout, "a\n", true⟩,
            .killSession ⟨"kill-000004", true⟩] ∧
        ∀ delivery ∈ connection.read, delivery.owed = 0 := by
    refine ⟨_, rfl, ?_, ?_⟩ <;> decide
  have hinit : (system asciiText).init {} := ⟨{}, rfl⟩
  have hreach := reachWithin_exec (.init hinit) hrun
  refine ⟨connection, hreach, hread, (correlated_iff _ connection hreach).2 ?_⟩
  exact fun delivery hmem _ => howed delivery hmem

end Connection

/-! ## A command that is given up -/

/-- A session is opened, a first command is given up while it runs, and a second one is sent; the
daemon has answered the first by then. -/
def abandonedCommand : List Connection.Step :=
  [.send (.spawnSession none none []), .handle {} (.notStarted ""), .receive,
    .send (.execCommand "session-000001" "sleep 60" (some 55)), .abandon,
    .send (.execCommand "session-000001" "make test" (some 55)),
    .handle { sessions := fun _ => some ⟨⟨"/bin/sh", none, []⟩, []⟩ }
      (.started true (.ok ([], []))),
    .receive]

/-- The caller of the second command gets the acknowledgement of the first. -/
theorem abandoned_command_shifts_replies : ∃ connection,
    (Connection.system fun _ => "").Reach connection ∧
      ∃ delivery ∈ connection.read, delivery.IsDelivered ∧ ¬delivery.Correlated ∧
        delivery.request.requestId = "exec-000003" ∧
        delivery.reply.response = .execCommand ⟨"exec-000002", true⟩ := by
  obtain ⟨connection, hrun, delivery, hread, hrequest, hresponse⟩ :
      ∃ connection ∈ exec (fun _ _ => True) (Connection.step fun _ => "") {} abandonedCommand,
        ∃ delivery ∈ connection.read.getLast?, delivery.request =
          .execCommand ⟨"exec-000003", "session-000001", "make test", some 55⟩ ∧
          delivery.reply.response = .execCommand ⟨"exec-000002", true⟩ := by
    refine ⟨_, rfl, _, rfl, ?_, ?_⟩ <;> decide
  have hinit : (Connection.system fun _ => "").init {} := ⟨{}, rfl⟩
  refine ⟨connection, reachWithin_exec (.init hinit) hrun, delivery,
    mem_of_mem_getLast? hread, ?_, ?_, ?_, hresponse⟩
  · intro expected actual
    simp [hrequest, hresponse, takeResponse]
  · rintro ⟨_, hid, _⟩
    rw [hrequest, hresponse] at hid
    revert hid
    decide
  · rw [hrequest]
    rfl

end Oxydra
