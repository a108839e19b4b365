import Oxydra.Gateway.Turns

/-!
# The stream of a turn

The task that `start_turn_with_origin` of `crates/gateway/src/lib.rs` spawns, from `TurnStarted` on.
The runtime sends stream items on an unbounded channel, and the task's `select!` loop races this
channel against the runtime's future: it takes one item, or it takes the result and leaves. What is
still queued then is dropped with the receiver. A turn whose loop leaves only with nothing in the
queue that is to be shown delivers everything (`stream_delivered`), and no other turn does.
-/

namespace Oxydra

open Option List Lts

/-! ## The task -/

/-- A frame that a turn's task publishes, without the request, session, and turn that it names. -/
inductive StreamFrame where
  | assistantDelta (delta : String)
  | turnProgress (progress : RuntimeProgressEvent)
  | mediaAttachment (attachment : MediaAttachment)
  | terminal (frame : TerminalFrame)
  deriving DecidableEq

/-- `SessionState`, the fields that a turn's task writes. -/
structure StreamSession where
  turn_count : ℕ := 0
  budget_remaining : Option ℕ := none
  stop_reason : Option StopReason := none
  /-- The id of the active turn. -/
  active_turn : Option String := none
  latest_terminal_frame : Option TerminalFrame := none
  /-- All that was published on the session's broadcast, in order. -/
  published : List StreamFrame := []
  deriving DecidableEq

/-- `SessionState::publish`. -/
def StreamSession.publish (s : StreamSession) (frame : StreamFrame) : StreamSession :=
  { s with published := s.published ++ [frame] }

/-- What the loop does with an item that it receives. -/
def StreamSession.receive (s : StreamSession) : StreamItem → StreamSession
  | .text delta => s.publish (.assistantDelta delta)
  | .progress progress => { s with turn_count := progress.turn }.publish (.turnProgress progress)
  | .policyEvent (.budgetUpdate remaining) => { s with budget_remaining := some remaining }
  | .policyEvent (.policyStop reason) => { s with stop_reason := some reason }
  | .media attachment => s.publish (.mediaAttachment attachment)
  | _ => s

/-- How the runtime's future ended: with its result, or in a panic that the task catches. -/
inductive TurnOutcome where
  | returned (result : Except RuntimeError Response)
  | panicked (message : String)

namespace TurnOutcome

/-- The message of a turn that panicked. -/
def panicText (message : String) : String := "internal error: turn panicked: " ++ message

/-- The stop reason that the task stores. -/
def stopReason : TurnOutcome → StopReason
  | .returned (.ok _) => .completed
  | .returned (.error .cancelled) => .cancelled
  | .returned (.error .budgetExceeded) => .maxBudgetExceeded
  | .returned (.error .turnLimitExceeded) => .maxTurns
  | .returned (.error .deadlineExceeded) => .maxRuntimeExceeded
  | .returned (.error e) => .error e.display
  | .panicked message => .error (panicText message)

/-- How the turn ended, for its terminal frame. -/
def ending : TurnOutcome → TurnEnd
  | .returned (.ok response) => .completed response
  | .returned (.error .cancelled) => .cancelled
  | .returned (.error e) => .failed e.display
  | .panicked message => .failed (panicText message)

end TurnOutcome

/-- Where a turn's task is. -/
inductive StreamStage where
  /-- In the loop. -/
  | streaming
  /-- It has left the loop, with its terminal frame. -/
  | ending (frame : TerminalFrame)
  | slotCleared (frame : TerminalFrame)
  | stored (frame : TerminalFrame)
  /-- It has published its terminal frame. -/
  | finished (frame : TerminalFrame)
  deriving DecidableEq

/-- A turn's task, with its delta channel. -/
structure TurnTask where
  /-- The items that were sent and not received. -/
  queue : List StreamItem := []
  session : StreamSession
  stage : StreamStage := .streaming
  /-- All that the runtime sent, which no part of the code keeps. -/
  sent : List StreamItem := []
  deriving DecidableEq

/-- What happens: the runtime sends an item, the loop takes one branch or the other, or the task
takes its next step after the loop. -/
inductive StreamAction where
  | send (item : StreamItem)
  | recv
  | complete (outcome : TurnOutcome)
  | next

/-- The terminal frame that a task has published. -/
def StreamStage.terminal : StreamStage → List StreamFrame
  | .finished frame => [.terminal frame]
  | _ => []

/-- One step of a turn's task. Once the channel is closed and empty, `recv` does nothing. -/
def streamStep (turn : Turn) (s : TurnTask) : StreamAction → Option TurnTask
  | .send item =>
    match s.stage with
    | .streaming => some { s with queue := s.queue ++ [item], sent := s.sent ++ [item] }
    | _ => none
  | .recv =>
    match s.stage, s.queue with
    | .streaming, item :: rest => some { s with queue := rest, session := s.session.receive item }
    | _, _ => none
  | .complete outcome =>
    match s.stage with
    -- whatever is queued
    | .streaming => some { s with
        session := { s.session with stop_reason := some outcome.stopReason }
        stage := .ending (turn.frame outcome.ending) }
    | _ => none
  | .next =>
    match s.stage with
    | .streaming | .finished _ => none
    | .ending frame =>
      let active_turn := if s.session.active_turn = some turn.turn_id then none
        else s.session.active_turn
      some { s with session := { s.session with active_turn }, stage := .slotCleared frame }
    | .slotCleared frame => some { s with
        session := { s.session with latest_terminal_frame := some frame }
        stage := .stored frame }
    | .stored frame => some { s with
        session := s.session.publish (.terminal frame)
        stage := .finished frame }

/-- All schedules of a turn's task, on a session in any state. -/
def streamSystem (turn : Turn) (start : StreamSession) : System TurnTask StreamAction :=
  ofStep (fun s => s = { session := start }) (streamStep turn)

/-! ## What is to be delivered -/

/-- The frame in which an item is shown to the user. -/
def StreamItem.shown : StreamItem → Option StreamFrame
  | .text delta => some (.assistantDelta delta)
  | .media attachment => some (.mediaAttachment attachment)
  | _ => none

/-- A frame that shows an item to the user. -/
def StreamFrame.isShown : StreamFrame → Bool
  | .assistantDelta _ | .mediaAttachment _ => true
  | _ => false

/-- The budget that an item reports. -/
def StreamItem.budgetUpdate : StreamItem → Option ℕ
  | .policyEvent (.budgetUpdate remaining) => some remaining
  | _ => none

/-- The last budget that was reported. -/
def lastBudget (items : List StreamItem) : Option ℕ :=
  (items.filterMap StreamItem.budgetUpdate).getLast?

/-- Each text and media item that was sent was published once, in order, and before the terminal
frame, and the session has the last budget that was sent. -/
def Delivered (start : StreamSession) (s : TurnTask) : Prop :=
  ∃ stream frame, s.session.published = start.published ++ stream ++ [.terminal frame] ∧
    stream.filter StreamFrame.isShown = s.sent.filterMap StreamItem.shown ∧
    s.session.budget_remaining = (lastBudget s.sent).or start.budget_remaining

/-- Nothing is lost if the task stops to receive: no text or media is queued, and no budget other
than the one that the session has. -/
def TurnTask.Drained (s : TurnTask) : Prop :=
  s.queue.filterMap StreamItem.shown = [] ∧
    (lastBudget s.queue).or s.session.budget_remaining = s.session.budget_remaining

/-- The loop takes the result of the runtime only when it would lose nothing. -/
def LeavesDrained (s : TurnTask) : StreamAction → Prop
  | .complete _ => s.Drained
  | _ => True

/-! ## What a schedule keeps -/

theorem lastBudget_append (items items' : List StreamItem) :
    lastBudget (items ++ items') = (lastBudget items').or (lastBudget items) := by
  simp only [lastBudget, filterMap_append, List.getLast?_append]

/-- What was sent is what was shown, and then what is queued. -/
structure Streamed (start : StreamSession) (s : TurnTask) : Prop where
  published : ∃ stream, s.session.published = start.published ++ stream ++ s.stage.terminal ∧
    stream.filter StreamFrame.isShown ++ s.queue.filterMap StreamItem.shown =
      s.sent.filterMap StreamItem.shown
  budget : (lastBudget s.queue).or s.session.budget_remaining =
    (lastBudget s.sent).or start.budget_remaining

section

variable {turn : Turn} {start : StreamSession} {s t u : TurnTask} {act : StreamAction}

/-- What the loop publishes for an item. -/
theorem published_receive (s : StreamSession) (item : StreamItem) :
    ∃ frames, (s.receive item).published = s.published ++ frames ∧
      frames.filter StreamFrame.isShown = [item].filterMap StreamItem.shown := by
  unfold StreamSession.receive
  split
  · exact ⟨_, rfl, rfl⟩
  · exact ⟨_, rfl, rfl⟩
  · exact ⟨[], (append_nil _).symm, rfl⟩
  · exact ⟨[], (append_nil _).symm, rfl⟩
  · exact ⟨_, rfl, rfl⟩
  · next htext _ _ _ hmedia =>
    refine ⟨[], (append_nil _).symm, ?_⟩
    cases item with
    | text delta => exact (htext delta rfl).elim
    | media attachment => exact (hmedia attachment rfl).elim
    | _ => rfl

/-- The budget that a session has once the loop has received an item. -/
theorem budget_receive (s : StreamSession) (item : StreamItem) :
    (s.receive item).budget_remaining = (lastBudget [item]).or s.budget_remaining := by
  cases item with
  | policyEvent event => cases event <;> rfl
  | _ => rfl

/-- All that a step can do. -/
inductive StreamEffect (s : TurnTask) : StreamAction → TurnTask → Prop
  | send (item : StreamItem) (hstage : s.stage = .streaming) :
    StreamEffect s (.send item) { s with queue := s.queue ++ [item], sent := s.sent ++ [item] }
  | recv (item : StreamItem) (rest : List StreamItem) (hstage : s.stage = .streaming)
    (hqueue : s.queue = item :: rest) :
    StreamEffect s .recv { s with queue := rest, session := s.session.receive item }
  /-- The loop is left, or a step is taken after it. Only the terminal frame is published. -/
  | after (act : StreamAction) (session : StreamSession) (stage : StreamStage)
    (hact : s.stage = .streaming → ∃ outcome, act = .complete outcome)
    (hstage : stage ≠ .streaming) (hbudget : session.budget_remaining = s.session.budget_remaining)
    (hpublished : ∀ frames, s.session.published = frames ++ s.stage.terminal →
      session.published = frames ++ stage.terminal) :
    StreamEffect s act { s with session := session, stage := stage }

theorem stream_effect (hst : streamStep turn s act = some t) : StreamEffect s act t := by
  cases act with
  | send item =>
    simp only [streamStep] at hst
    split at hst
    · next hstage =>
      cases hst
      exact .send item hstage
    · cases hst
  | recv =>
    simp only [streamStep] at hst
    split at hst
    · next item rest hstage hqueue =>
      cases hst
      exact .recv item rest hstage hqueue
    · cases hst
  | complete outcome =>
    simp only [streamStep] at hst
    split at hst
    · next hstage =>
      cases hst
      refine .after _ _ _ (fun _ => ⟨outcome, rfl⟩) (by simp) rfl fun frames hframes => ?_
      rw [hstage] at hframes
      exact hframes
    · cases hst
  | next =>
    simp only [streamStep] at hst
    split at hst
    · cases hst
    · cases hst
    · next frame hstage =>
      cases hst
      refine .after _ _ _ (by simp [hstage]) (by simp) rfl fun frames hframes => ?_
      rw [hstage] at hframes
      exact hframes
    · next frame hstage =>
      cases hst
      refine .after _ _ _ (by simp [hstage]) (by simp) rfl fun frames hframes => ?_
      rw [hstage] at hframes
      exact hframes
    · next frame hstage =>
      cases hst
      refine .after _ _ _ (by simp [hstage]) (by simp) rfl fun frames hframes => ?_
      rw [hstage] at hframes
      simp only [StreamStage.terminal, append_nil] at hframes
      simp only [StreamSession.publish, StreamStage.terminal, hframes]

/-- Every step keeps what was sent in what was shown and what is queued. -/
theorem Streamed.step (h : Streamed start s) (hst : streamStep turn s act = some t) :
    Streamed start t := by
  obtain ⟨⟨stream, hpublished, hshown⟩, hbudget⟩ := h
  cases stream_effect hst with
  | send item hstage =>
    refine ⟨⟨stream, hpublished, ?_⟩, ?_⟩
    · simp only [filterMap_append, ← append_assoc, hshown]
    · simp only [lastBudget_append, Option.or_assoc, hbudget]
  | recv item rest hstage hqueue =>
    obtain ⟨frames, hframes, hitem⟩ := published_receive s.session item
    rw [hqueue, ← singleton_append] at hshown hbudget
    refine ⟨⟨stream ++ frames, ?_, ?_⟩, ?_⟩
    · simp only [hstage, StreamStage.terminal, append_nil] at hpublished ⊢
      rw [hframes, hpublished, append_assoc]
    · rw [filter_append, hitem, append_assoc, ← filterMap_append, hshown]
    · rw [budget_receive, ← Option.or_assoc, ← lastBudget_append, hbudget]
  | after act session stage hact hstage hbudget' hpublished' =>
    exact ⟨⟨stream, hpublished' _ hpublished, hshown⟩, by rw [← hbudget, hbudget']⟩

theorem streamed (h : (streamSystem turn start).Reach s) : Streamed start s := by
  refine h.invariant (fun s hs => ?_) fun s act t hs _ hst => hs.step hst
  obtain rfl : s = { session := start } := hs
  exact ⟨⟨[], by simp [StreamStage.terminal], rfl⟩, rfl⟩

/-- A turn that has published its terminal frame delivered everything exactly if its queue was
drained. -/
theorem Streamed.delivered_iff (h : Streamed start s) {frame : TerminalFrame}
    (hstage : s.stage = .finished frame) : Delivered start s ↔ s.Drained := by
  obtain ⟨⟨stream, hpublished, hshown⟩, hbudget⟩ := h
  rw [hstage] at hpublished
  constructor
  · rintro ⟨stream', frame', hpublished', hshown', hbudget'⟩
    -- both name the frames between the session's old ones and the terminal frame
    have hstream : stream = stream' := by
      rw [hpublished] at hpublished'
      have hinit := append_inj_left' hpublished' rfl
      exact append_cancel_left hinit
    subst hstream
    rw [← hshown'] at hshown
    exact ⟨append_right_eq_self.mp hshown, by rw [hbudget, hbudget']⟩
  · rintro ⟨hempty, hlast⟩
    rw [hempty, append_nil] at hshown
    exact ⟨stream, frame, hpublished, hshown, by rw [← hbudget, hlast]⟩

/-- What stays as it is once the loop is left. -/
structure LeftWith (s t : TurnTask) : Prop where
  left : t.stage ≠ .streaming
  queue : t.queue = s.queue
  budget : t.session.budget_remaining = s.session.budget_remaining

theorem LeftWith.drained_iff (h : LeftWith s t) : t.Drained ↔ s.Drained := by
  unfold TurnTask.Drained
  rw [h.queue, h.budget]

/-- The loop is left with the queue as it is, and no step after it receives. -/
theorem leftWith_step (hleft : s.stage ≠ .streaming ∨ ∃ outcome, act = .complete outcome)
    (hst : streamStep turn s act = some t) : LeftWith s t := by
  cases stream_effect hst with
  | send item hstage | recv item rest hstage =>
    obtain hleft | ⟨outcome, hact⟩ := hleft
    · exact (hleft hstage).elim
    · cases hact
  | after act session stage hact hstage hbudget hpublished => exact ⟨hstage, rfl, hbudget⟩

/-- A task that only left its loop with a drained queue has one after the loop. -/
theorem drained_of_leavesDrained (h : (streamSystem turn start).ReachWithin LeavesDrained s)
    (hleft : s.stage ≠ .streaming) : s.Drained := by
  induction h with
  | init hs =>
    obtain rfl : _ = _ := hs
    exact (hleft rfl).elim
  | @step s t act hs hg hst ih =>
    by_cases hstage : s.stage = .streaming
    · cases stream_effect hst with
      | send | recv => exact (hleft hstage).elim
      | after act session stage hact =>
        obtain ⟨outcome, rfl⟩ := hact hstage
        exact (leftWith_step (.inr ⟨outcome, rfl⟩) hst).drained_iff.mpr hg
    · exact (leftWith_step (.inl hstage) hst).drained_iff.mpr (ih hstage)

/-- Every schedule in which the loop takes the result of the runtime only with a drained queue
delivers all that the runtime sent. Once it was taken with anything else in the queue, the terminal
frame is published without all of it. -/
theorem stream_delivered (turn : Turn) (start : StreamSession) :
    (∀ s frame, (streamSystem turn start).ReachWithin LeavesDrained s →
      s.stage = .finished frame → Delivered start s) ∧
    (∀ s outcome t, (streamSystem turn start).Reach s → ¬s.Drained →
      streamStep turn s (.complete outcome) = some t →
      ∀ u frame, (ofStep (fun s => s = t) (streamStep turn)).Reach u →
        u.stage = .finished frame → ¬Delivered start u) := by
  constructor
  · intro s frame hs hstage
    have hleft : s.stage ≠ .streaming := by simp [hstage]
    exact ((streamed hs.reach).delivered_iff hstage).mpr (drained_of_leavesDrained hs hleft)
  · intro s outcome t hs hqueued hst u frame hu hstage hdelivered
    have hleave := leftWith_step (.inr ⟨outcome, rfl⟩) hst
    have ht : Streamed start t := (streamed hs).step hst
    -- from here on the queue stays as it is
    have hlater : Streamed start u ∧ LeftWith t u := by
      clear hstage hdelivered
      induction hu with
      | init hu =>
        obtain rfl : _ = _ := hu
        exact ⟨ht, hleave.left, rfl, rfl⟩
      | step hu _ hstep ih =>
        have hstep' := leftWith_step (.inl ih.2.left) hstep
        exact ⟨ih.1.step hstep, hstep'.left, hstep'.queue.trans ih.2.queue,
          hstep'.budget.trans ih.2.budget⟩
    have hdrained := (hlater.1.delivered_iff hstage).mp hdelivered
    exact hqueued (hleave.drained_iff.mp (hlater.2.drained_iff.mp hdrained))

end

instance (s : TurnTask) : Decidable s.Drained :=
  inferInstanceAs (Decidable (_ ∧ _))

instance (s : TurnTask) (act : StreamAction) : Decidable (LeavesDrained s act) :=
  match act with
  | .complete _ => inferInstanceAs (Decidable s.Drained)
  | .send _ | .recv | .next => isTrue trivial

/-- A turn on a new session. -/
def photoTurn : Turn := ⟨0, "r1", "t1", 0⟩

/-- A photo, sent by the last tool call of a turn. -/
def photo : StreamItem :=
  .media { file_path := "/shared/photo.jpg", media_type := .photo, data := [1] }

/-- What the runtime returns after it. -/
def photoSent : TurnOutcome := .returned (.ok { message := { role := .assistant } })

/-- The steps of a task after its loop. -/
def afterLoop : List StreamAction := [.next, .next, .next]

/-- A photo and a budget that are received before the result is taken are delivered. -/
theorem photo_delivered : ∃ s frame,
    (streamSystem photoTurn {}).ReachWithin LeavesDrained s ∧ s.stage = .finished frame ∧
      s.sent = [photo, .policyEvent (.budgetUpdate 7)] ∧ Delivered {} s := by
  obtain ⟨s, hs, hstage, hsent⟩ : ∃ s ∈ exec LeavesDrained (streamStep photoTurn) { session := {} }
      ([.send photo, .send (.policyEvent (.budgetUpdate 7)), .recv, .recv, .complete photoSent] ++
        afterLoop),
      s.stage = .finished (photoTurn.frame photoSent.ending) ∧
        s.sent = [photo, .policyEvent (.budgetUpdate 7)] := by
    decide
  have hreach : (streamSystem photoTurn {}).ReachWithin LeavesDrained s :=
    reachWithin_exec (.init rfl) hs
  exact ⟨s, _, hreach, hstage, hsent, (stream_delivered photoTurn {}).1 s _ hreach hstage⟩

/-- A photo that is sent right before the runtime returns, and a loop that takes the result first:
the turn completes and the photo is never published. -/
theorem photo_lost : ∃ s frame, (streamSystem photoTurn {}).Reach s ∧ s.stage = .finished frame ∧
    s.sent = [photo] ∧ s.session.published = [.terminal frame] ∧ ¬Delivered {} s := by
  obtain ⟨s, hs, hstage, hsent, hpublished, hqueued⟩ : ∃ s ∈ exec (fun _ _ => True)
      (streamStep photoTurn) { session := {} } ([.send photo, .complete photoSent] ++ afterLoop),
      s.stage = .finished (photoTurn.frame photoSent.ending) ∧ s.sent = [photo] ∧
        s.session.published = [.terminal (photoTurn.frame photoSent.ending)] ∧ ¬s.Drained := by
    decide
  have hreach : (streamSystem photoTurn {}).Reach s := reachWithin_exec (.init rfl) hs
  refine ⟨s, _, hreach, hstage, hsent, hpublished, fun hdelivered => ?_⟩
  exact hqueued (((streamed hreach).delivered_iff hstage).mp hdelivered)

end Oxydra
