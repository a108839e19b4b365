import Mathlib.Data.List.DropRight
import Oxydra.Library.CharBoundary
import Oxydra.Types.Model

/-!
# The message history of the terminal interface

`apply_server_frame` of `crates/tui/src/ui_model.rs` turns the frames of the gateway into the
entries of the message history, which keeps the newest 1000. A frame other than a delta and
`TurnCompleted` pushes messages (`GatewayServerFrame.messages`), a delta goes to the last entry if
that is of the assistant, and `TurnCompleted` fills in the final content if no text stands there.

A frame is the fields that are read of it. Left out of the view model is what frames do not change.
-/

namespace Oxydra

/-! ## Frames -/

inductive GatewayTurnState where
  | running
  | completed
  | cancelled
  | failed
  deriving DecidableEq, Repr

structure GatewayTurnStatus where
  turn_id : String
  state : GatewayTurnState
  deriving DecidableEq, Repr

/-- `GatewaySessionSummary`, the fields that a listing shows. -/
structure GatewaySessionSummary where
  session_id : String
  agent_name : String
  display_name : Option String
  last_active_at : String
  deriving DecidableEq, Repr

/-- `GatewayServerFrame`, with the fields that the view model reads. -/
inductive GatewayServerFrame where
  | helloAck (active_turn : Option GatewayTurnStatus)
  | turnStarted
  | assistantDelta (delta : String)
  | turnCompleted (response : Response)
  | turnCancelled
  | error (message : String) (turn : Option GatewayTurnStatus)
  | healthStatus
  | turnProgress
  | scheduledNotification (schedule_id : String) (schedule_name : Option String) (message : String)
  | sessionCreated (session_id : String) (display_name : Option String) (agent_name : String)
  | sessionList (sessions : List GatewaySessionSummary)
  | sessionSwitched (session_id : String) (active_turn : Option GatewayTurnStatus)
  | mediaAttachment (attachment : MediaAttachment)
  | policyNotification (event : PolicyStreamEvent)
  deriving DecidableEq, Repr

inductive ChatMessage where
  | user (text : String)
  | assistant (text : String)
  | error (text : String)
  | system (text : String)
  deriving DecidableEq, Repr

/-- The derived `Debug` text of a media type. -/
def MediaType.debug : MediaType → String
  | .photo => "Photo"
  | .audio => "Audio"
  | .document => "Document"
  | .voice => "Voice"
  | .video => "Video"

/-- Whether a turn is running. -/
def isRunning : Option GatewayTurnStatus → Bool
  | some turn => turn.state = .running
  | none => false

/-- The line of a listing: the start of an id is sliced, which panics inside a character. -/
def GatewaySessionSummary.line (s : GatewaySessionSummary) : Option String := do
  let name := s.display_name.getD "-"
  let shortId ← if 13 < s.session_id.utf8ByteSize then Text.sliceTo 13 s.session_id
    else some s.session_id
  return "  " ++ shortId ++ "  " ++ name ++ "  (" ++ s.agent_name ++ ", last active: " ++
    s.last_active_at ++ ")"

/-- The message of a policy notification. -/
def policyMessage : PolicyStreamEvent → String
  | .budgetWarning remaining threshold_pct =>
    "Budget warning: " ++ toString remaining ++ " remaining (threshold: " ++
      toString threshold_pct ++ "%)"
  | .policyStop reason => "Policy stop: " ++ reason.debug
  | .budgetUpdate remaining => "Budget update: " ++ toString remaining ++ " remaining"

/-- The messages that a frame pushes one after the other, or `none` where it panics. A delta and
`TurnCompleted` are not in here. -/
def GatewayServerFrame.messages : GatewayServerFrame → Option (List ChatMessage)
  | .helloAck active_turn => some <|
    if isRunning active_turn then
      [.system "Reconnected — resuming active stream", .assistant ""]
    else []
  | .turnStarted => some [.assistant ""]
  | .turnCancelled => some [.system "Turn cancelled"]
  | .error message turn => some <| .error message :: match turn with
    | some turn =>
      if turn.state = .failed then [.system ("Turn " ++ turn.turn_id ++ " failed")] else []
    | none => []
  | .scheduledNotification schedule_id schedule_name message =>
    some [.system ("[Scheduled: " ++ schedule_name.getD schedule_id ++ "] " ++ message)]
  | .sessionCreated session_id display_name agent_name =>
    some [.system ("New session created: " ++ display_name.getD session_id ++ " (agent: " ++
      agent_name ++ ")")]
  | .sessionList sessions =>
    if sessions.isEmpty then some [.system "No sessions found."]
    else do
      let lines ← sessions.mapM GatewaySessionSummary.line
      return .system "Sessions:" :: lines.map .system ++
        [.system "Use /switch <session_id> to switch sessions."]
  | .sessionSwitched session_id active_turn => some <|
    .system ("Switched to session: " ++ session_id) ::
      if isRunning active_turn then
        [.system "Active turn in progress — resuming stream.", .assistant ""]
      else []
  | .mediaAttachment attachment =>
    some [.system ("📎 Sent " ++ attachment.media_type.debug ++ ": " ++
      attachment.file_name.getD "file")]
  | .policyNotification event => some [.system (policyMessage event)]
  | .assistantDelta _ | .turnCompleted _ | .healthStatus | .turnProgress => some []

/-! ## The view model -/

/-- `MAX_HISTORY_MESSAGES`. -/
@[irreducible]
def maxHistoryMessages : ℕ := 1000

/-- `TuiViewModel`, the fields that frames change. -/
structure TuiViewModel where
  message_history : List ChatMessage := []
  scroll_offset : ℕ := 0
  deriving DecidableEq, Repr

namespace TuiViewModel

section

variable (m : TuiViewModel)

/-- `enforce_history_cap`. -/
def enforceHistoryCap : TuiViewModel :=
  if m.message_history.length > maxHistoryMessages then
    let excess := m.message_history.length - maxHistoryMessages
    { message_history := m.message_history.drop excess, scroll_offset := m.scroll_offset - excess }
  else m

/-- `push_message`. -/
def pushMessage (message : ChatMessage) : TuiViewModel :=
  { m with message_history := m.message_history ++ [message] }.enforceHistoryCap

/-- `append_to_last_assistant`. -/
def appendToLastAssistant (text : String) : TuiViewModel :=
  match m.message_history.getLast? with
  | some (.assistant buf) =>
    { m with message_history := m.message_history.dropLast ++ [.assistant (buf ++ text)] }
  | _ => m.pushMessage (.assistant text)

/-- What `TurnCompleted` does. -/
def completeTurn (response : Response) : TuiViewModel :=
  let final_content := response.message.content.getD ""
  match m.message_history.getLast? with
  | some (.assistant buf) =>
    if buf = "" then
      { m with message_history := m.message_history.dropLast ++ [.assistant final_content] }
    else m
  | _ => if final_content ≠ "" then m.pushMessage (.assistant final_content) else m

/-- `apply_server_frame`, or `none` where it panics. -/
def applyServerFrame : GatewayServerFrame → Option TuiViewModel
  | .assistantDelta delta => some (m.appendToLastAssistant delta)
  | .turnCompleted response => some (m.completeTurn response)
  | frame => frame.messages.map fun messages => messages.foldl pushMessage m

/-- The view model after some frames. -/
def run (frames : List GatewayServerFrame) : Option TuiViewModel :=
  frames.foldlM applyServerFrame m

end

end TuiViewModel

end Oxydra
