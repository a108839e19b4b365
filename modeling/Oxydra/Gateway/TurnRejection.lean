import Oxydra.Gateway.TurnAdmission
import Oxydra.Library.TextSearch

/-!
# Rejected turns

`start_turn_with_origin` of `crates/gateway/src/lib.rs` as a call that nothing interrupts, with its
answers: the frame that says why a turn is rejected, or none when its task was spawned. The call
takes the slot of the session and clears the terminal frame of the turn before, and only then asks
for a place in the queue. Where the queue is full it gives the slot back.

`startTurnWithOrigin_steps` says that these are the steps of a submission in `turnStep`, and
`rejectsAtomically_iff` on what state a rejection leaves what it found.
-/

namespace Oxydra

open Lts

/-! ## Attachments -/

/-- `MAX_INLINE_ATTACHMENTS_PER_TURN`. -/
def maxInlineAttachmentsPerTurn : ℕ := 4

/-- `MAX_INLINE_ATTACHMENT_BYTES`. -/
def maxInlineAttachmentBytes : ℕ := 10 * 1024 * 1024

/-- `MAX_INLINE_ATTACHMENT_TOTAL_BYTES`. -/
def maxInlineAttachmentTotalBytes : ℕ := maxInlineAttachmentsPerTurn * maxInlineAttachmentBytes

/-- `is_valid_mime_type`. -/
def isValidMimeType (value : String) : Bool :=
  let trimmed := Text.trim value
  let kind := trimmed.toList.takeWhile (· ≠ '/')
  if trimmed = "" ∨ 255 < trimmed.utf8ByteSize then false
  else
    match trimmed.toList.dropWhile (· ≠ '/') with
    | [] => false
    | _ :: subtype =>
      -- a character beyond ASCII has bytes that are none of these
      kind ≠ [] && subtype ≠ [] &&
        trimmed.toList.all fun c => c.isAlphanum || c ∈ ['/', '-', '.', '+', '_']

/-- The loop of `validate_inline_attachments`, with the bytes so far. -/
def validateAttachmentsFrom (total : ℕ) : List InlineMedia → Except String Unit
  | [] => .ok ()
  | attachment :: rest =>
    let size := attachment.data.length
    let total := U64.saturatingAdd total size
    if !isValidMimeType attachment.mime_type then
      .error s!"invalid attachment mime_type `{attachment.mime_type}`"
    else if maxInlineAttachmentBytes < size then
      .error s!"attachment too large ({size} bytes, limit: {maxInlineAttachmentBytes} bytes)"
    else if maxInlineAttachmentTotalBytes < total then
      .error (s!"total attachment payload too large ({total} bytes, " ++
        s!"limit: {maxInlineAttachmentTotalBytes} bytes)")
    else validateAttachmentsFrom total rest

/-- `validate_inline_attachments`. -/
def validateInlineAttachments (attachments : List InlineMedia) : Except String Unit :=
  if maxInlineAttachmentsPerTurn < attachments.length then
    .error s!"too many attachments (limit: {maxInlineAttachmentsPerTurn})"
  else validateAttachmentsFrom 0 attachments

/-! ## The call -/

/-- `GatewaySendTurn`, the parts that are read before the turn is accepted. -/
structure SendTurn where
  request_id : String
  turn_id : String
  attachments : List InlineMedia := []

/-- The `Error` frame for a rejected turn, with the id of the turn that is running. -/
structure RejectionFrame where
  request_id : String
  session : ℕ
  turn : Option String
  message : String
  deriving DecidableEq

section

variable (config : GatewayConfig) (g : TurnState) (session : ℕ) (send_turn : SendTurn)

/-- `try_enqueue_turn`, when no other thread changes the counter. -/
def tryEnqueueTurn : Option TurnState :=
  if config.maxQueuedTurns ≤ g.queued_turns then none
  else some { g with queued_turns := g.queued_turns + 1 }

/-- The turn that a call submits. -/
def SendTurn.turn : Turn := ⟨session, send_turn.request_id, send_turn.turn_id, g.next_token⟩

/-- The slot of the session is taken, and then the frame of the turn before is cleared. -/
def takeSlot : TurnState :=
  let taken := { g.modifySession session fun c =>
      { c with active_turn := some (send_turn.turn_id, g.next_token) } with
    next_token := g.next_token + 1 }
  taken.modifySession session fun c => { c with latest_terminal_frame := none }

/-- `start_turn_with_origin`: the state it leaves, and the frame of a rejection. -/
def startTurnWithOrigin : TurnState × Option RejectionFrame :=
  match validateInlineAttachments send_turn.attachments with
  | .error message => (g, some ⟨send_turn.request_id, session, none, message⟩)
  | .ok _ =>
    match (g.sessions session).active_turn with
    | some existing =>
      (g, some ⟨send_turn.request_id, session, some existing.1,
        "an active turn is already running"⟩)
    | none =>
      let g' := takeSlot g session send_turn
      match tryEnqueueTurn config g' with
      | none =>
        -- the slot is given back; the frame that was cleared is not
        (g'.modifySession session fun c => { c with active_turn := none },
          some ⟨send_turn.request_id, session, none,
            s!"too many queued turns (queue limit: {config.maxQueuedTurns})"⟩)
      | some g' =>
        ({ g' with accepted := g'.accepted ++ [send_turn.turn g session] }, none)

/-- What is observed of a session and of its user's queue is the same. -/
structure SameObservation (before after : TurnState) : Prop where
  active_turn : (after.sessions session).active_turn = (before.sessions session).active_turn
  latest_terminal_frame : (after.sessions session).latest_terminal_frame =
    (before.sessions session).latest_terminal_frame
  last_activity : (after.sessions session).last_activity = (before.sessions session).last_activity
  queued_turns : after.queued_turns = before.queued_turns

/-- A turn that the call rejects leaves what is observed as it was. -/
def RejectsAtomically : Prop :=
  ∀ frame, (startTurnWithOrigin config g session send_turn).2 = some frame →
    SameObservation session g (startTurnWithOrigin config g session send_turn).1

/-- Steps of one thread with none of another in between. -/
def stepsAlone : TurnState × TurnPhase → List TurnAction → Option (TurnState × TurnPhase)
  | s, [] => some s
  | (g, phase), act :: acts =>
    match turnStep config g phase act with
    | some s => stepsAlone s acts
    | none => none

end

/-- The call is the submission of a turn, up to its end or to where its task waits for a permit. -/
theorem startTurnWithOrigin_steps (config : GatewayConfig) (g : TurnState) (session : ℕ)
    (send_turn : SendTurn) :
    ∃ n, stepsAlone config (g, none)
      (.submit session send_turn.request_id send_turn.turn_id
        (validateInlineAttachments send_turn.attachments).toBool :: List.replicate n .next) =
      some ((startTurnWithOrigin config g session send_turn).1,
        match (startTurnWithOrigin config g session send_turn).2 with
        | some _ => none
        | none => some (send_turn.turn g session, .waiting)) := by
  unfold startTurnWithOrigin
  cases validateInlineAttachments send_turn.attachments with
  | error message => exact ⟨0, rfl⟩
  | ok _ =>
    cases hactive : (g.sessions session).active_turn with
    | some existing =>
      refine ⟨0, ?_⟩
      simp [stepsAlone, turnStep, submitTurn, hactive, Except.toBool]
    | none =>
      refine ⟨3, ?_⟩
      have hsubmit : turnStep config g none
          (.submit session send_turn.request_id send_turn.turn_id true) =
          some ({ g.modifySession session fun c =>
              { c with active_turn := some (send_turn.turn_id, g.next_token) } with
            next_token := g.next_token + 1 }, some (send_turn.turn g session, .started)) := by
        simp [turnStep, submitTurn, hactive, SendTurn.turn]
      have hclear : turnStep config { g.modifySession session fun c =>
            { c with active_turn := some (send_turn.turn_id, g.next_token) } with
          next_token := g.next_token + 1 } (some (send_turn.turn g session, .started)) .next =
          some (takeSlot g session send_turn, some (send_turn.turn g session, .cleared)) := rfl
      by_cases hfull : config.maxQueuedTurns ≤ (takeSlot g session send_turn).queued_turns
      · have hrefuse : turnStep config (takeSlot g session send_turn)
            (some (send_turn.turn g session, .cleared)) .next =
            some (takeSlot g session send_turn, some (send_turn.turn g session, .refused)) := by
          simp [turnStep, nextStep, hfull]
        simp only [List.replicate, Except.toBool, stepsAlone, hsubmit, hclear, hrefuse,
          tryEnqueueTurn, if_pos hfull]
        rfl
      · have hload : turnStep config (takeSlot g session send_turn)
            (some (send_turn.turn g session, .cleared)) .next =
            some (takeSlot g session send_turn, some (send_turn.turn g session,
              .loaded (takeSlot g session send_turn).queued_turns)) := by
          simp [turnStep, nextStep, hfull]
        simp only [List.replicate, Except.toBool, stepsAlone, hsubmit, hclear, hload,
          tryEnqueueTurn, if_neg hfull]
        simp [turnStep, nextStep]

/-- A full queue is met by a turn that has the slot of its session: the slot is free again then, and
the terminal frame is gone. -/
theorem sameObservation_refused (g : TurnState) (session : ℕ) (send_turn : SendTurn)
    (hfree : (g.sessions session).active_turn = none) :
    SameObservation session g ((takeSlot g session send_turn).modifySession session fun c =>
      { c with active_turn := none }) ↔ (g.sessions session).latest_terminal_frame = none := by
  have hcell : (((takeSlot g session send_turn).modifySession session fun c =>
      { c with active_turn := none }).sessions session) =
        { g.sessions session with active_turn := none, latest_terminal_frame := none } := by
    simp [takeSlot, sessions_modifySession]
  constructor
  · intro h
    have hframe := h.latest_terminal_frame
    rw [hcell] at hframe
    exact hframe.symm
  · intro hframe
    refine ⟨?_, ?_, ?_, rfl⟩
    · rw [hcell, hfree]
    · rw [hcell, hframe]
    · rw [hcell]

/-- A rejected turn leaves what is observed as it was unless the queue is full and the session had a
terminal frame: where attachments are invalid or a turn is active nothing was written yet, and where
there is no frame, what was written is undone. -/
theorem rejectsAtomically_iff (config : GatewayConfig) (g : TurnState) (session : ℕ)
    (send_turn : SendTurn) :
    RejectsAtomically config g session send_turn ↔
      (validateInlineAttachments send_turn.attachments).toBool = false ∨
      (g.sessions session).active_turn.isSome ∨ g.queued_turns < config.maxQueuedTurns ∨
      (g.sessions session).latest_terminal_frame = none := by
  have hsame : SameObservation session g g := ⟨rfl, rfl, rfl, rfl⟩
  have hqueued : (takeSlot g session send_turn).queued_turns = g.queued_turns := rfl
  unfold RejectsAtomically startTurnWithOrigin
  cases validateInlineAttachments send_turn.attachments with
  | error message => simp [Except.toBool, hsame]
  | ok _ =>
    cases hactive : (g.sessions session).active_turn with
    | some existing => simp [hsame]
    | none =>
      by_cases hfull : config.maxQueuedTurns ≤ g.queued_turns
      · have hrefused := sameObservation_refused g session send_turn hactive
        simp [tryEnqueueTurn, hqueued, hfull, hrefused, Except.toBool, Nat.not_lt.mpr hfull]
      · simp [tryEnqueueTurn, hqueued, hfull, Nat.lt_of_not_le hfull]

/-! ## A lost frame -/

/-- A turn from its permit to its end. -/
def completion {ι : Type} (i : ι) : List (ι × TurnAction) :=
  [(i, .grant), (i, .next), (i, .next), (i, .finish (.failed "no route"))] ++
    List.replicate 5 (i, .next)

/-- The turn of a session to which a client listens ends. Then turns are started in three more
sessions, two of which are evicted: the first has the only permit and the others fill the queue. -/
def fullQueue : List (Fin 4 × TurnAction) :=
  [(0, .subscribe 0)] ++ submission 0 0 "t0" ++ completion 0 ++
    submission 1 1 "t1" ++ [(1, .grant), (1, .tick 3600), (1, .cleanup 1)] ++
    submission 2 2 "t2" ++ [(2, .tick 3600), (2, .cleanup 2)] ++ submission 3 3 "t3"

/-- The next turn of the first session. -/
def nextTurn : SendTurn := ⟨"r4", "t4", []⟩

/-- It is rejected, and the frame of the turn before is lost. -/
theorem fullQueue_loses_frame : ∃ s, (turnSystem (Fin 4) oneAtATime).Reach s ∧
    (startTurnWithOrigin oneAtATime.toGatewayConfig s.shared 0 nextTurn).2 = some
      ⟨"r4", 0, none, "too many queued turns (queue limit: 2)"⟩ ∧
    ¬RejectsAtomically oneAtATime.toGatewayConfig s.shared 0 nextTurn := by
  obtain ⟨s, hs, hrejected, hbefore, hafter⟩ : ∃ s ∈ exec (fun _ _ => True)
      (threadStep (turnStep oneAtATime.toGatewayConfig)) (noTurns (Fin 4) oneAtATime) fullQueue,
      (startTurnWithOrigin oneAtATime.toGatewayConfig s.shared 0 nextTurn).2 = some
          ⟨"r4", 0, none, "too many queued turns (queue limit: 2)"⟩ ∧
        (s.shared.sessions 0).latest_terminal_frame ≠ none ∧
        ((startTurnWithOrigin oneAtATime.toGatewayConfig s.shared 0 nextTurn).1.sessions
          0).latest_terminal_frame = none := by
    decide
  refine ⟨s, reachWithin_exec (.init (init_noTurns _ _)) hs, hrejected, fun hatomic => ?_⟩
  exact hbefore ((hatomic _ hrejected).latest_terminal_frame.symm.trans hafter)

end Oxydra
