import Oxydra.Gateway.TurnFrames

/-!
# The replies to the messages of a chat

`handle_message` and `stream_response` of `crates/channels/src/telegram.rs`, for messages whose
sessions are known, together with the turns of the gateway. Each message has a task of its own: it
subscribes to the events of its session, submits a turn, and, when the turn is accepted, reads the
events until a terminal frame arrives, which it shows as the reply. It does not ask which turn the
frame is of.

`reply_of_own_turn` is about the runs in which each message shows the frame of its own turn: no
terminal frame of the session is published between the subscription and the turn, no turn starts
between the last steps of another task of its session, and a receiver that lags does not lose the
frame.
-/

namespace Oxydra

open Option Function List Lts

variable {turnAct : TurnAction} {phase phase' : TurnPhase} {g g' : TurnState}

/-! ## Messages and turns -/

/-- Where the handler of a message is. The receiver of a subscription stands at a place in the record
of what was published. A thread without a message is another client of the gateway. -/
inductive MessageStage where
  | absent
  | resolved (session : ℕ) (request_id turn_id : String)
  | subscribed (session : ℕ) (request_id turn_id : String) (cursor : ℕ)
  /-- In `submit_turn_from_channel`. -/
  | submitting (turn : Turn) (cursor : ℕ)
  /-- In `stream_response`. -/
  | streaming (turn : Turn) (cursor : ℕ)
  /-- The turn that the message submitted, the frame that was read, with its turn, and the text that
  is shown. -/
  | finalized (turn : Turn) (shown : Turn × TerminalFrame) (text : String)
  | ended
  deriving DecidableEq

/-- The handler of a message, and the submission of its turn with the task of the turn. -/
structure MessageThread where
  handler : MessageStage
  phase : TurnPhase := none

/-- What happens in a thread: a step of its turn, or of a client or the gateway, or a step of the
handler. A receiver lags when what it has not read yet is overwritten. -/
inductive MessageAction where
  | turn (act : TurnAction)
  | subscribe
  | submit (valid : Bool)
  | recv
  | lag (skipped : ℕ)
  | leave

/-- The text that is shown for a terminal frame. -/
def TurnEnd.finalText : TurnEnd → String
  | .completed response => response.message.content.getD ""
  | .cancelled => "🛑 Turn cancelled."
  | .failed message => "❌ " ++ message

/-- The next terminal frame for a receiver of a session. -/
def nextFrame (published : List (Turn × TerminalFrame)) (session cursor : ℕ) :
    Option (Turn × TerminalFrame) :=
  (published.drop cursor).find? fun p => p.1.session = session

/-- Where a handler is after a step of its submission: it returns when the turn is accepted or
refused. -/
def MessageStage.follow (handler : MessageStage) (phase : TurnPhase) : MessageStage :=
  match handler, phase with
  | .submitting turn cursor, some (_, .waiting) => .streaming turn cursor
  | .submitting _ _, none => .ended
  | handler, _ => handler

/-- The handler of a message after `submit_turn_from_channel` has checked the slot. -/
def MessageStage.submitted (cursor : ℕ) : TurnPhase → MessageStage
  | some (turn, _) => .submitting turn cursor
  | none => .ended

/-- One step of a thread. -/
def messageStep (config : GatewayConfig) (g : TurnState) (thread : MessageThread) :
    MessageAction → Option (TurnState × MessageThread)
  | .turn act =>
    -- the turn of a message is submitted by its handler
    if act.submitsTo.isSome ∧ thread.handler ≠ .absent then none
    else (turnStep config g thread.phase act).map fun (g', phase') =>
      (g', ⟨thread.handler.follow phase', phase'⟩)
  | .subscribe =>
    match thread.handler with
    | .resolved session request_id turn_id =>
      (turnStep config g thread.phase (.subscribe session)).map fun (g', phase') =>
        (g', ⟨.subscribed session request_id turn_id g.published.length, phase'⟩)
    | _ => none
  | .submit valid =>
    match thread.handler with
    | .subscribed session request_id turn_id cursor =>
      (turnStep config g thread.phase (.submit session request_id turn_id valid)).map
        fun (g', phase') => (g', ⟨.submitted cursor phase', phase'⟩)
    | _ => none
  | .recv =>
    match thread.handler with
    | .streaming turn cursor =>
      -- the ids of the frame are not looked at
      (nextFrame g.published turn.session cursor).map fun shown =>
        (g, { thread with handler := .finalized turn shown shown.2.ending.finalText })
    | _ => none
  | .lag skipped =>
    match thread.handler with
    | .streaming turn cursor =>
      if cursor + skipped ≤ g.published.length then
        some (g, { thread with handler := .streaming turn (cursor + skipped) })
      else none
    | _ => none
  | .leave =>
    match thread.handler with
    | .streaming _ _ => some (g, { thread with handler := .ended })
    | _ => none

/-- All interleavings of messages, other clients, and the turns of a user. -/
def messageSystem (ι : Type) [DecidableEq ι] (config : ValidGatewayConfig) :
    System (Threads ι TurnState MessageThread) (ι × MessageAction) :=
  interleave (fun s => (∃ sessions now, s.shared =
      { permits := config.max_concurrent_turns_per_user, sessions := sessions, now := now } ∧
      ∀ h, (sessions h).active_turn = none ∧ (sessions h).latest_terminal_frame = none) ∧
    ∀ i, (s.threads i).phase = none ∧ ((s.threads i).handler = .absent ∨
      ∃ session request_id turn_id,
        (s.threads i).handler = .resolved session request_id turn_id))
    (messageStep config.toGatewayConfig)

/-! ## What a step does -/

/-- A turn that has published its terminal frame. -/
def TurnStage.isOver : TurnStage → Bool
  | .published _ _ | .finishing _ => true
  | _ => false

/-- A turn that has cleared its slot and is yet to publish its terminal frame. -/
def TurnStage.isClosing : TurnStage → Bool
  | .slotCleared _ _ _ | .stored _ _ _ => true
  | _ => false

/-- A turn that is not over has its slot, or is between its last steps. -/
theorem TurnStage.hasSlot_of_open {stage : TurnStage} (hover : stage.isOver = false)
    (hclosing : stage.isClosing = false) : stage.hasSlot = true := by
  cases stage with
  | slotCleared | stored => cases hclosing
  | published | finishing => cases hover
  | _ => rfl

/-- What a step does to a turn and to what was published. -/
inductive PublishEffect (act : TurnAction) (g : TurnState) (phase : TurnPhase) (g' : TurnState)
    (phase' : TurnPhase) : Prop
  | kept (hphase' : phase' = phase) (hpublished : g'.published = g.published)
  | moved (turn : Turn) (stage stage' : TurnStage) (hphase : phase = some (turn, stage))
    (hphase' : phase' = some (turn, stage')) (hover : stage'.isOver = stage.isOver)
    (htask : stage.isTask → stage'.isTask)
    (haccepted : stage.isTask = false → stage'.isTask → stage' = .waiting)
    (hpublished : g'.published = g.published)
  | started (turn : Turn) (hsubmit : act = .submit turn.session turn.request_id turn.turn_id true)
    (hphase : phase = none) (hphase' : phase' = some (turn, .started))
    (hfree : (g.sessions turn.session).active_turn = none)
    (hpublished : g'.published = g.published)
  | dropped (turn : Turn) (stage : TurnStage) (hphase : phase = some (turn, stage))
    (hphase' : phase' = none) (hstage : stage.isTask → stage.isOver)
    (hpublished : g'.published = g.published)
  | published (turn : Turn) (frame : TerminalFrame) (permit marks : Bool)
    (hphase : phase = some (turn, .stored frame permit marks))
    (hphase' : phase' = some (turn, .published permit marks))
    (hpublished : g'.published = g.published ++ [(turn, frame)])

theorem publish_effect {config : GatewayConfig} {act : TurnAction}
    (h : TurnEffect config g act phase g' phase') :
    PublishEffect act g phase g' phase' := by
  cases h with
  | world _ hworld =>
    obtain ⟨-, -, -, -, hpublished, -⟩ := worldStep_same hworld
    exact .kept rfl hpublished
  | rejected => exact .kept rfl rfl
  | started turn hact hfree htoken => exact .started turn hact rfl rfl hfree rfl
  | moved turn stage hact hmove =>
    cases hmove with
    | accept => exact .moved turn _ _ rfl rfl rfl (fun _ => rfl) (fun _ _ => rfl) rfl
    | refuse => exact .dropped turn _ rfl rfl (fun htask => by cases htask) rfl
    | done => exact .dropped turn _ rfl rfl (fun _ => rfl) rfl
    | publish frame permit marks => exact .published turn frame permit marks rfl rfl rfl
    | mark permit marks =>
      cases marks <;> exact .moved turn _ _ rfl rfl rfl (fun _ => rfl) (fun h => by cases h) rfl
    | clearFrame | full | load | retry =>
      exact .moved turn _ _ rfl rfl rfl (fun htask => by cases htask)
        (fun _ htask => by cases htask) rfl
    | _ => exact .moved turn _ _ rfl rfl rfl (fun _ => rfl) (fun h => by cases h) rfl

/-- What was published stays. -/
theorem PublishEffect.length_le {act : TurnAction} (h : PublishEffect act g phase g' phase') :
    g.published.length ≤ g'.published.length := by
  cases h with
  | published turn frame permit marks hphase hphase' hpublished =>
    rw [hpublished, length_append]
    exact Nat.le_add_right _ _
  | kept _ hpublished | moved _ _ _ _ _ _ _ _ hpublished | started _ _ _ _ _ hpublished
  | dropped _ _ _ _ _ hpublished => rw [hpublished]

theorem PublishEffect.mem {act : TurnAction} (h : PublishEffect act g phase g' phase')
    {p : Turn × TerminalFrame} (hp : p ∈ g.published) :
    p ∈ g'.published := by
  cases h with
  | published turn frame permit marks hphase hphase' hpublished =>
    rw [hpublished]
    exact mem_append_left _ hp
  | kept _ hpublished | moved _ _ _ _ _ _ _ _ hpublished | started _ _ _ _ _ hpublished
  | dropped _ _ _ _ _ hpublished =>
    rw [hpublished]
    exact hp

/-- What a step of a thread can be. -/
inductive MessageEffect (config : GatewayConfig) (g : TurnState) (thread : MessageThread)
    (act : MessageAction) (g' : TurnState) (thread' : MessageThread) : Prop
  | turn (turnAct : TurnAction) (hact : act = .turn turnAct)
    (hsubmit : turnAct.submitsTo = none ∨ thread.handler = .absent)
    (hstep : turnStep config g thread.phase turnAct = some (g', thread'.phase))
    (hhandler' : thread'.handler = thread.handler.follow thread'.phase)
  | subscribed (session : ℕ) (request_id turn_id : String)
    (hhandler : thread.handler = .resolved session request_id turn_id)
    (hstep : turnStep config g thread.phase (.subscribe session) = some (g', thread'.phase))
    (hhandler' : thread'.handler = .subscribed session request_id turn_id g.published.length)
  | submitted (session : ℕ) (request_id turn_id : String) (cursor : ℕ) (valid : Bool)
    (hact : act = .submit valid)
    (hhandler : thread.handler = .subscribed session request_id turn_id cursor)
    (hstep : turnStep config g thread.phase (.submit session request_id turn_id valid) =
      some (g', thread'.phase))
    (hhandler' : thread'.handler = .submitted cursor thread'.phase)
  | received (turn : Turn) (cursor : ℕ) (shown : Turn × TerminalFrame)
    (hhandler : thread.handler = .streaming turn cursor)
    (hshown : nextFrame g.published turn.session cursor = some shown) (hg : g' = g)
    (hthread' : thread' =
      { thread with handler := .finalized turn shown shown.2.ending.finalText })
  | lagged (turn : Turn) (cursor skipped : ℕ) (hact : act = .lag skipped)
    (hhandler : thread.handler = .streaming turn cursor)
    (hle : cursor + skipped ≤ g.published.length) (hg : g' = g)
    (hthread' : thread' = { thread with handler := .streaming turn (cursor + skipped) })
  | left (hg : g' = g) (hthread' : thread' = { thread with handler := .ended })

theorem message_effect {config : GatewayConfig} {thread thread' : MessageThread}
    {act : MessageAction} (h : messageStep config g thread act = some (g', thread')) :
    MessageEffect config g thread act g' thread' := by
  unfold messageStep at h
  cases act with
  | turn turnAct =>
    dsimp only at h
    split_ifs at h with hsubmit
    obtain ⟨⟨g'', phase'⟩, hstep, heq⟩ := map_eq_some_iff.mp h
    cases heq
    refine .turn turnAct rfl ?_ hstep rfl
    rw [not_and_or, not_isSome_iff_eq_none, not_not] at hsubmit
    exact hsubmit
  | subscribe =>
    dsimp only at h
    split at h
    · next session request_id turn_id hhandler =>
      obtain ⟨⟨g'', phase'⟩, hstep, heq⟩ := map_eq_some_iff.mp h
      cases heq
      exact .subscribed session request_id turn_id hhandler hstep rfl
    · cases h
  | submit valid =>
    dsimp only at h
    split at h
    · next session request_id turn_id cursor hhandler =>
      obtain ⟨⟨g'', phase'⟩, hstep, heq⟩ := map_eq_some_iff.mp h
      cases heq
      exact .submitted session request_id turn_id cursor valid rfl hhandler hstep rfl
    · cases h
  | recv =>
    dsimp only at h
    split at h
    · next turn cursor hhandler =>
      obtain ⟨shown, hshown, heq⟩ := map_eq_some_iff.mp h
      cases heq
      exact .received turn cursor shown hhandler hshown rfl rfl
    · cases h
  | lag skipped =>
    dsimp only at h
    split at h
    · next turn cursor hhandler =>
      split_ifs at h with hle
      cases h
      exact .lagged turn cursor skipped rfl hhandler hle rfl rfl
    · cases h
  | leave =>
    dsimp only at h
    split at h
    · cases h
      exact .left rfl rfl
    · cases h

section

variable {ι : Type} {config : ValidGatewayConfig} {s t : Threads ι TurnState MessageThread} {i : ι}
  {act : MessageAction}

/-- The turns without the handlers. -/
def turnsOf (s : Threads ι TurnState MessageThread) : Threads ι TurnState TurnPhase :=
  ⟨s.shared, fun i => (s.threads i).phase⟩

variable [DecidableEq ι]

/-- A step of the system and its effect. -/
theorem messageSystem_step (h : (messageSystem ι config).step s (i, act) t) :
    ∃ thread, t.threads = update s.threads i thread ∧
      MessageEffect config.toGatewayConfig s.shared (s.threads i) act t.shared thread := by
  obtain ⟨g', thread, hstep, rfl⟩ := interleave_step h
  exact ⟨thread, rfl, message_effect hstep⟩

/-- The turns after a step that changes one thread. -/
theorem turnsOf_update {thread : MessageThread}
    (hthreads : t.threads = update s.threads i thread) :
    (turnsOf t).threads = update (turnsOf s).threads i thread.phase := by
  funext j
  show (t.threads j).phase = _
  rw [hthreads]
  by_cases hj : j = i
  · subst hj
    rw [update_self, update_self]
  · rw [update_of_ne hj, update_of_ne hj]
    rfl

/-- A step of a thread whose turn takes a step. -/
theorem turnSystem_of_step {thread : MessageThread}
    (hthreads : t.threads = update s.threads i thread)
    (hstep : turnStep config.toGatewayConfig s.shared (s.threads i).phase turnAct =
      some (t.shared, thread.phase)) :
    (turnSystem ι config).step (turnsOf s) (i, turnAct) (turnsOf t) := by
  have hturns : turnsOf t = ⟨t.shared, update (turnsOf s).threads i thread.phase⟩ := by
    rw [← turnsOf_update hthreads]
    rfl
  rw [hturns]
  exact interleave_of_step hstep

/-- The turns take a step of the gateway with every step, or none. -/
theorem turnsOf_step (h : (messageSystem ι config).step s (i, act) t) :
    (∃ turnAct, (turnSystem ι config).step (turnsOf s) (i, turnAct) (turnsOf t)) ∨
      turnsOf t = turnsOf s := by
  obtain ⟨thread, hthreads, he⟩ := messageSystem_step h
  have hsame : ∀ {handler : MessageStage}, t.shared = s.shared →
      thread = { s.threads i with handler } → turnsOf t = turnsOf s := by
    rintro handler hshared rfl
    have hphases : (turnsOf t).threads = (turnsOf s).threads := by
      rw [turnsOf_update hthreads]
      exact update_eq_self i (turnsOf s).threads
    calc turnsOf t = ⟨t.shared, (turnsOf t).threads⟩ := rfl
      _ = ⟨s.shared, (turnsOf s).threads⟩ := by rw [hshared, hphases]
      _ = turnsOf s := rfl
  cases he with
  | turn turnAct hact hsubmit hstep hhandler' =>
    exact .inl ⟨turnAct, turnSystem_of_step hthreads hstep⟩
  | subscribed session request_id turn_id hhandler hstep hhandler' =>
    exact .inl ⟨_, turnSystem_of_step hthreads hstep⟩
  | submitted session request_id turn_id cursor valid hact hhandler hstep hhandler' =>
    exact .inl ⟨_, turnSystem_of_step hthreads hstep⟩
  | received turn cursor shown hhandler hshown hg hthread' => exact .inr (hsame hg hthread')
  | lagged turn cursor skipped hact hhandler hle hg hthread' => exact .inr (hsame hg hthread')
  | left hg hthread' => exact .inr (hsame hg hthread')

/-- The turns of a run of the messages are those of a run of the gateway. -/
theorem turnsOf_reach (h : (messageSystem ι config).Reach s) :
    (turnSystem ι config).Reach (turnsOf s) := by
  induction h with
  | init hs => exact .init ⟨hs.1, fun i => (hs.2 i).1⟩
  | @step s t l hs _ hst ih =>
    rcases turnsOf_step hst with ⟨turnAct, hstep⟩ | hsame
    · exact .step ih trivial hstep
    · rwa [hsame]

end

/-! ## What a receiver gets -/

section

variable {published : List (Turn × TerminalFrame)} {session cursor : ℕ}

/-- A frame is the next one for a receiver that has no other. -/
theorem nextFrame_append (h : cursor ≤ published.length) (p : Turn × TerminalFrame) :
    nextFrame (published ++ [p]) session cursor =
      (nextFrame published session cursor).or (if p.1.session = session then some p else none) := by
  unfold nextFrame
  rw [drop_append_of_le_length h, List.find?_append]
  by_cases hp : p.1.session = session <;> simp [hp]

/-- A receiver for which there is a frame gets that one. -/
theorem nextFrame_append_some {shown : Turn × TerminalFrame} (h : cursor ≤ published.length)
    (hshown : nextFrame published session cursor = some shown) (p : Turn × TerminalFrame) :
    nextFrame (published ++ [p]) session cursor = some shown := by
  rw [nextFrame_append h, hshown, some_or]

/-- What is lost by a receiver that lags. -/
theorem nextFrame_lag (published : List (Turn × TerminalFrame)) (session cursor skipped : ℕ) :
    nextFrame published session cursor =
      (((published.drop cursor).take skipped).find? fun p => p.1.session = session).or
        (nextFrame published session (cursor + skipped)) := by
  unfold nextFrame
  conv_lhs => rw [← take_append_drop skipped (published.drop cursor)]
  rw [List.find?_append, drop_drop]

end

/-! ## The runs in which replies are right -/

/-- The session in which a step may take the slot. -/
def MessageAction.submitsTo (handler : MessageStage) : MessageAction → Option ℕ
  | .turn act => act.submitsTo
  | .submit true =>
    match handler with
    | .subscribed session _ _ _ => some session
    | _ => none
  | _ => none

section

variable {ι : Type} {config : ValidGatewayConfig} {s t : Threads ι TurnState MessageThread} {i : ι}
  {act : MessageAction}

/-- A message takes no slot once a frame of the session was published since it subscribed, and no
receiver loses the frame of its turn. -/
def MissesNothing (g : TurnState) (handler : MessageStage) : MessageAction → Prop
  | .submit valid =>
    match handler with
    | .subscribed session _ _ cursor => valid = true → (g.sessions session).active_turn = none →
        nextFrame g.published session cursor = none
    | _ => True
  | .lag skipped =>
    match handler with
    | .streaming turn cursor => ∀ p ∈ (g.published.drop cursor).take skipped, p.1 ≠ turn
    | _ => True
  | _ => True

/-- No turn takes a slot while another task of the session has cleared it and is yet to publish its
frame, and no message misses a frame of its session before its turn, or the one of its turn. -/
def AnswersApart (s : Threads ι TurnState MessageThread) (l : ι × MessageAction) : Prop :=
  (∀ session ∈ l.2.submitsTo (s.threads l.1).handler,
    (s.shared.sessions session).active_turn = none →
    ∀ j, ∀ p ∈ (s.threads j).phase, p.1.session = session → p.2.isClosing = false) ∧
  MissesNothing s.shared (s.threads l.1).handler l.2

/-- What a handler can expect: the next frame for it is the one of its turn, or there is none and its
turn is not over. -/
def Hears (published : List (Turn × TerminalFrame)) (thread : MessageThread) : Prop :=
  match thread.handler with
  | .subscribed _ _ _ cursor => cursor ≤ published.length
  | .submitting turn cursor => cursor ≤ published.length ∧
      nextFrame published turn.session cursor = none ∧
      ∃ stage, thread.phase = some (turn, stage) ∧ stage.isTask = false
  | .streaming turn cursor => cursor ≤ published.length ∧
      ((nextFrame published turn.session cursor = none ∧
        ∃ stage, thread.phase = some (turn, stage) ∧ stage.isTask ∧ stage.isOver = false) ∨
      ∃ frame, nextFrame published turn.session cursor = some (turn, frame))
  | .finalized turn shown text =>
    shown.1 = turn ∧ shown ∈ published ∧ text = shown.2.ending.finalText
  | .absent | .resolved _ _ _ | .ended => True

/-- What keeps the replies right: one turn of a session at a time is not over. -/
structure RepliesKept (s : Threads ι TurnState MessageThread) : Prop where
  alone : ∀ i j, ∀ p ∈ (s.threads i).phase, ∀ q ∈ (s.threads j).phase, p.2.isOver = false →
    q.2.isOver = false → p.1.session = q.1.session → i = j
  hears : ∀ i, Hears s.shared.published (s.threads i)

/-- What a message shows is the text of the terminal frame that the turn it submitted published. -/
def RepliesOwn (s : Threads ι TurnState MessageThread) : Prop :=
  ∀ i turn shown text, (s.threads i).handler = .finalized turn shown text →
    shown.1 = turn ∧ shown ∈ s.shared.published ∧ text = shown.2.ending.finalText

/-- A frame that is not of its session, or for a turn that is over, is nothing to a handler. -/
theorem Hears.append {published : List (Turn × TerminalFrame)} {thread : MessageThread}
    (h : Hears published thread) (p : Turn × TerminalFrame)
    (hother : ∀ q ∈ thread.phase, q.2.isOver = false → p.1.session ≠ q.1.session) :
    Hears (published ++ [p]) thread := by
  have hlength : published.length ≤ (published ++ [p]).length := by simp
  unfold Hears at h ⊢
  cases hhandler : thread.handler with
  | absent | resolved | ended => trivial
  | finalized turn shown text =>
    rw [hhandler] at h
    exact ⟨h.1, mem_append_left _ h.2.1, h.2.2⟩
  | subscribed session request_id turn_id cursor =>
    rw [hhandler] at h
    exact h.trans hlength
  | submitting turn cursor =>
    rw [hhandler] at h
    obtain ⟨hle, hnone, stage, hphase, htask⟩ := h
    have hopen : stage.isOver = false := by
      cases stage with
      | published | finishing => cases htask
      | _ => rfl
    refine ⟨hle.trans hlength, ?_, stage, hphase, htask⟩
    rw [nextFrame_append hle, hnone, if_neg (hother _ hphase hopen)]
    rfl
  | streaming turn cursor =>
    rw [hhandler] at h
    obtain ⟨hle, ⟨hnone, stage, hphase, htask, hopen⟩ | ⟨frame, hframe⟩⟩ := h
    · refine ⟨hle.trans hlength, .inl ⟨?_, stage, hphase, htask, hopen⟩⟩
      rw [nextFrame_append hle, hnone, if_neg (hother _ hphase hopen)]
      rfl
    · exact ⟨hle.trans hlength, .inr ⟨frame, nextFrame_append_some hle hframe p⟩⟩

/-- Of the turns of a session that takes a slot, all others are over. -/
theorem RepliesKept.alone_start {session : ℕ} (hslots : SlotsOwned (turnsOf s))
    (hfree : (s.shared.sessions session).active_turn = none)
    (hclosing : ∀ j, ∀ p ∈ (s.threads j).phase, p.1.session = session → p.2.isClosing = false) :
    ∀ j, ∀ p ∈ (s.threads j).phase, p.1.session = session → p.2.isOver = true := by
  intro j p hp hsession
  by_contra hopen
  rw [Bool.not_eq_true] at hopen
  have hown := hslots j p hp (TurnStage.hasSlot_of_open hopen (hclosing j p hp hsession))
  change (s.shared.sessions p.1.session).active_turn = _ at hown
  rw [hsession, hfree] at hown
  cases hown

variable [DecidableEq ι]

section Step

variable {thread : MessageThread} (hthreads : t.threads = update s.threads i thread)
include hthreads

/-- The turns stay alone when the one that steps was in its session before. -/
theorem RepliesKept.alone_of_back (h : RepliesKept s)
    (hback : ∀ p ∈ thread.phase, p.2.isOver = false →
      ∃ q ∈ (s.threads i).phase, q.2.isOver = false ∧ q.1.session = p.1.session) :
    ∀ j k, ∀ p ∈ (t.threads j).phase, ∀ q ∈ (t.threads k).phase, p.2.isOver = false →
      q.2.isOver = false → p.1.session = q.1.session → j = k := by
  have hold : ∀ j, ∀ p ∈ (t.threads j).phase, p.2.isOver = false →
      ∃ q ∈ (s.threads j).phase, q.2.isOver = false ∧ q.1.session = p.1.session := by
    intro j p hp hopen
    rw [hthreads] at hp
    by_cases hj : j = i
    · subst hj
      rw [update_self] at hp
      exact hback p hp hopen
    · rw [update_of_ne hj] at hp
      exact ⟨p, hp, hopen, rfl⟩
  intro j k p hp q hq hpopen hqopen hsession
  obtain ⟨p', hp', hpopen', hpsession⟩ := hold j p hp hpopen
  obtain ⟨q', hq', hqopen', hqsession⟩ := hold k q hq hqopen
  exact h.alone j k p' hp' q' hq' hpopen' hqopen' (by rw [hpsession, hsession, hqsession])

/-- The turns stay alone when the others of the session in which one starts are over. -/
theorem RepliesKept.alone_of_start (h : RepliesKept s) {turn : Turn}
    (hphase' : thread.phase = some (turn, .started))
    (hover : ∀ j, ∀ p ∈ (s.threads j).phase, p.1.session = turn.session → p.2.isOver = true) :
    ∀ j k, ∀ p ∈ (t.threads j).phase, ∀ q ∈ (t.threads k).phase, p.2.isOver = false →
      q.2.isOver = false → p.1.session = q.1.session → j = k := by
  have hnew : ∀ j, ∀ p ∈ (t.threads j).phase,
      (j = i ∧ p = (turn, .started)) ∨ (j ≠ i ∧ p ∈ (s.threads j).phase) := by
    intro j p hp
    rw [hthreads] at hp
    by_cases hj : j = i
    · subst hj
      rw [update_self, hphase'] at hp
      exact .inl ⟨rfl, (some.inj hp).symm⟩
    · rw [update_of_ne hj] at hp
      exact .inr ⟨hj, hp⟩
  intro j k p hp q hq hpopen hqopen hsession
  rcases hnew j p hp with ⟨rfl, rfl⟩ | ⟨-, hp⟩ <;> rcases hnew k q hq with ⟨rfl, rfl⟩ | ⟨-, hq⟩
  · rfl
  · have hqover := hover k q hq hsession.symm
    rw [hqopen] at hqover
    cases hqover
  · have hpover := hover j p hp hsession
    rw [hpopen] at hpover
    cases hpover
  · exact h.alone j k p hp q hq hpopen hqopen hsession

/-- What a step of a turn is for the turns, and for the handlers of the other threads. -/
theorem RepliesKept.others (h : RepliesKept s) (hslots : SlotsOwned (turnsOf s))
    (he : PublishEffect turnAct s.shared (s.threads i).phase t.shared thread.phase)
    (hclosing : ∀ session ∈ turnAct.submitsTo, (s.shared.sessions session).active_turn = none →
      ∀ j, ∀ p ∈ (s.threads j).phase, p.1.session = session → p.2.isClosing = false) :
    (∀ j k, ∀ p ∈ (t.threads j).phase, ∀ q ∈ (t.threads k).phase, p.2.isOver = false →
      q.2.isOver = false → p.1.session = q.1.session → j = k) ∧
    ∀ j, j ≠ i → Hears t.shared.published (t.threads j) := by
  have hsame : t.shared.published = s.shared.published →
      ∀ j, j ≠ i → Hears t.shared.published (t.threads j) := by
    intro hpublished j hj
    rw [hpublished, hthreads, update_of_ne hj]
    exact h.hears j
  cases he with
  | kept hphase' hpublished =>
    refine ⟨h.alone_of_back hthreads fun p hp hopen => ⟨p, hphase' ▸ hp, hopen, rfl⟩,
      hsame hpublished⟩
  | moved turn stage stage' hphase hphase' hover htask haccepted hpublished =>
    refine ⟨h.alone_of_back hthreads fun p hp hopen => ?_, hsame hpublished⟩
    rw [hphase'] at hp
    cases hp
    exact ⟨_, hphase, hover ▸ hopen, rfl⟩
  | started turn hsubmit hphase hphase' hfree hpublished =>
    have hsession : turn.session ∈ turnAct.submitsTo := by rw [hsubmit]; rfl
    exact ⟨h.alone_of_start hthreads hphase'
      (RepliesKept.alone_start hslots hfree (hclosing _ hsession hfree)), hsame hpublished⟩
  | dropped turn stage hphase hphase' hstage hpublished =>
    refine ⟨h.alone_of_back hthreads fun p hp => ?_, hsame hpublished⟩
    rw [hphase'] at hp
    cases hp
  | published turn frame permit marks hphase hphase' hpublished =>
    refine ⟨h.alone_of_back hthreads fun p hp hopen => ?_, fun j hj => ?_⟩
    · rw [hphase'] at hp
      cases hp
      cases hopen
    · rw [hpublished, hthreads, update_of_ne hj]
      refine (h.hears j).append _ fun q hq hopen hsession => ?_
      -- the turn of another thread is not over either, so it is in another session
      exact hj (h.alone j i q hq _ hphase hopen rfl hsession.symm)

end Step

/-- A handler follows its turn. -/
theorem Hears.follow {handler : MessageStage} (h : Hears g.published ⟨handler, phase⟩)
    (he : PublishEffect turnAct g phase g' phase') :
    Hears g'.published ⟨handler.follow phase', phase'⟩ := by
  cases handler with
  | absent | resolved | ended => trivial
  | finalized turn shown text => exact ⟨h.1, he.mem h.2.1, h.2.2⟩
  | subscribed session request_id turn_id cursor =>
    exact le_trans (show cursor ≤ _ from h) he.length_le
  | submitting turn cursor =>
    obtain ⟨hle, hnone, stage, hphase, htask⟩ := h
    subst hphase
    cases he with
    | kept hphase' hpublished =>
      subst hphase'
      rw [hpublished]
      have hstays : (MessageStage.submitting turn cursor).follow (some (turn, stage)) =
          .submitting turn cursor := by
        cases stage with
        | waiting => cases htask
        | _ => rfl
      rw [hstays]
      exact ⟨hle, hnone, stage, rfl, htask⟩
    | moved turn' stage' stage'' hphase hphase' hover htasks haccepted hpublished =>
      cases hphase
      subst hphase'
      rw [hpublished]
      cases htask' : stage''.isTask with
      | true =>
        -- the turn was accepted, and the handler goes on to read
        obtain rfl := haccepted htask htask'
        exact ⟨hle, .inl ⟨hnone, .waiting, rfl, rfl, rfl⟩⟩
      | false =>
        have hstays : (MessageStage.submitting turn cursor).follow (some (turn, stage'')) =
            .submitting turn cursor := by
          cases stage'' with
          | waiting => cases htask'
          | _ => rfl
        rw [hstays]
        exact ⟨hle, hnone, stage'', rfl, htask'⟩
    | started turn' hsubmit' hphase => cases hphase
    | dropped turn' stage' hphase hphase' hstage hpublished =>
      subst hphase'
      trivial
    | published turn' frame permit marks hphase =>
      cases hphase
      cases htask
  | streaming turn cursor =>
    obtain ⟨hle, hcases⟩ := h
    have hstays : (MessageStage.streaming turn cursor).follow phase' = .streaming turn cursor := by
      rcases phase' with - | ⟨turn', stage⟩
      · rfl
      · cases stage <;> rfl
    rw [hstays]
    refine ⟨hle.trans he.length_le, ?_⟩
    rcases hcases with ⟨hnone, stage, hphase, htask, hopen⟩ | ⟨frame, hframe⟩
    · dsimp only at hphase
      subst hphase
      cases he with
      | kept hphase' hpublished =>
        rw [hpublished]
        exact .inl ⟨hnone, stage, hphase', htask, hopen⟩
      | moved turn' stage' stage'' hphase hphase' hover htasks haccepted hpublished =>
        cases hphase
        rw [hpublished]
        exact .inl ⟨hnone, stage'', hphase', htasks htask, hover.trans hopen⟩
      | started turn' hsubmit' hphase => cases hphase
      | dropped turn' stage' hphase hphase' hstage hpublished =>
        cases hphase
        rw [hstage htask] at hopen
        cases hopen
      | published turn' frame permit marks hphase hphase' hpublished =>
        cases hphase
        refine .inr ⟨frame, ?_⟩
        rw [hpublished, nextFrame_append hle, hnone, if_pos rfl]
        rfl
    · refine .inr ⟨frame, ?_⟩
      cases he with
      | published turn' frame' permit marks hphase hphase' hpublished =>
        rw [hpublished]
        exact nextFrame_append_some hle hframe _
      | kept _ hpublished | moved _ _ _ _ _ _ _ _ hpublished | started _ _ _ _ _ hpublished
      | dropped _ _ _ _ _ hpublished =>
        rw [hpublished]
        exact hframe

/-- A submission that is made is the first of its thread. -/
theorem turnStep_submit_none {config : GatewayConfig} {session : ℕ} {request_id turn_id : String}
    {valid : Bool}
    (h : turnStep config g phase (.submit session request_id turn_id valid) = some (g', phase')) :
    phase = none := by
  cases phase with
  | none => rfl
  | some p => cases h

/-- A message that submits its turn has missed no frame since it subscribed. -/
theorem Hears.submit {config : GatewayConfig} {session cursor : ℕ} {request_id turn_id : String}
    {valid : Bool} (hle : cursor ≤ g.published.length)
    (hmissed : valid = true → (g.sessions session).active_turn = none →
      nextFrame g.published session cursor = none)
    (hstep : turnStep config g phase (.submit session request_id turn_id valid) =
      some (g', phase')) :
    Hears g'.published ⟨.submitted cursor phase', phase'⟩ := by
  obtain rfl := turnStep_submit_none hstep
  cases publish_effect (turnStep_effect hstep) with
  | kept hphase' =>
    subst hphase'
    trivial
  | moved _ _ _ hphase | dropped _ _ hphase | published _ _ _ _ hphase => cases hphase
  | started turn hsubmit hphase hphase' hfree hpublished =>
    cases hsubmit
    subst hphase'
    rw [hpublished]
    exact ⟨hle, hmissed rfl hfree, .started, rfl, rfl⟩

/-- A receiver that lags without losing the frame of its turn still gets it. -/
theorem Hears.lag {published : List (Turn × TerminalFrame)} {turn : Turn} {cursor : ℕ}
    (h : Hears published ⟨.streaming turn cursor, phase⟩) {skipped : ℕ}
    (hle : cursor + skipped ≤ published.length)
    (hkeeps : ∀ p ∈ (published.drop cursor).take skipped, p.1 ≠ turn) :
    Hears published ⟨.streaming turn (cursor + skipped), phase⟩ := by
  obtain ⟨-, hcases⟩ := h
  refine ⟨hle, ?_⟩
  have hsplit := nextFrame_lag published turn.session cursor skipped
  rcases hcases with ⟨hnone, hphase⟩ | ⟨frame, hframe⟩
  · rw [hnone] at hsplit
    exact .inl ⟨(or_eq_none_iff.mp hsplit.symm).2, hphase⟩
  · refine .inr ⟨frame, ?_⟩
    rw [hframe] at hsplit
    rcases or_eq_some_iff.mp hsplit.symm with hlost | ⟨-, hnext⟩
    · exact absurd rfl (hkeeps _ (mem_of_find?_eq_some hlost))
    · exact hnext

/-- Every guarded step keeps the replies right. -/
theorem RepliesKept.step (h : RepliesKept s) (hslots : SlotsOwned (turnsOf s))
    (hguard : AnswersApart s (i, act)) (hst : (messageSystem ι config).step s (i, act) t) :
    RepliesKept t := by
  obtain ⟨thread, hthreads, he⟩ := messageSystem_step hst
  obtain ⟨hclosing, hmisses⟩ := hguard
  -- it is enough to look at the handler of the thread
  have hturn : ∀ {turnAct : TurnAction}, turnStep config.toGatewayConfig s.shared
      (s.threads i).phase turnAct = some (t.shared, thread.phase) →
      (∀ session ∈ turnAct.submitsTo, session ∈ act.submitsTo (s.threads i).handler) →
      Hears t.shared.published thread → RepliesKept t := by
    intro turnAct hstep hsubmits hown
    obtain ⟨halone, hothers⟩ := h.others hthreads hslots (publish_effect (turnStep_effect hstep))
      fun session hsession => hclosing session (hsubmits session hsession)
    refine ⟨halone, fun j => ?_⟩
    by_cases hj : j = i
    · subst hj
      rw [hthreads, update_self]
      exact hown
    · exact hothers j hj
  have hread : t.shared = s.shared → thread.phase = (s.threads i).phase →
      Hears s.shared.published thread → RepliesKept t := by
    intro hshared hphase hown
    refine ⟨h.alone_of_back hthreads fun p hp hopen => ⟨p, hphase ▸ hp, hopen, rfl⟩, fun j => ?_⟩
    rw [hshared, hthreads]
    by_cases hj : j = i
    · subst hj
      rw [update_self]
      exact hown
    · rw [update_of_ne hj]
      exact h.hears j
  have hhears := h.hears i
  cases he with
  | turn turnAct hact hsubmit hstep hhandler' =>
    subst hact
    refine hturn hstep (fun session hsession => hsession) ?_
    have hfollows := Hears.follow hhears (publish_effect (turnStep_effect hstep))
    rw [← hhandler'] at hfollows
    exact hfollows
  | subscribed session request_id turn_id hhandler hstep hhandler' =>
    refine hturn hstep (fun session hsession => by cases hsession) ?_
    unfold Hears
    rw [hhandler']
    exact (publish_effect (turnStep_effect hstep)).length_le
  | submitted session request_id turn_id cursor valid hact hhandler hstep hhandler' =>
    subst hact
    unfold Hears at hhears
    dsimp only [MissesNothing] at hmisses
    rw [hhandler] at hhears hmisses
    refine hturn hstep (fun session' hsession => ?_) ?_
    · cases valid with
      | true =>
        cases hsession
        rw [hhandler]
        rfl
      | false => cases hsession
    · have hsubmits := Hears.submit hhears hmisses hstep
      rw [← hhandler'] at hsubmits
      exact hsubmits
  | received turn cursor shown hhandler hshown hg hthread' =>
    subst hthread'
    refine hread hg rfl ?_
    unfold Hears at hhears
    rw [hhandler] at hhears
    obtain ⟨-, ⟨hnone, -⟩ | ⟨frame, hframe⟩⟩ := hhears
    · rw [hshown] at hnone
      cases hnone
    · have hmem : shown ∈ s.shared.published.drop cursor := mem_of_find?_eq_some hshown
      rw [hshown] at hframe
      exact ⟨congrArg Prod.fst (some.inj hframe), mem_of_mem_drop hmem, rfl⟩
  | lagged turn cursor skipped hact hhandler hle hg hthread' =>
    subst hthread' hact
    dsimp only [MissesNothing] at hmisses
    rw [hhandler] at hmisses
    refine hread hg rfl (Hears.lag ?_ hle hmisses)
    rw [← hhandler]
    exact hhears
  | left hg hthread' =>
    subst hthread'
    exact hread hg rfl trivial

theorem repliesKept_init (h : (messageSystem ι config).init s) : RepliesKept s := by
  obtain ⟨-, hthreads⟩ := h
  refine ⟨fun j k p hp => ?_, fun j => ?_⟩
  · rw [(hthreads j).1] at hp
    cases hp
  · unfold Hears
    rcases (hthreads j).2 with habsent | ⟨session, request_id, turn_id, hresolved⟩
    · rw [habsent]
      trivial
    · rw [hresolved]
      trivial

/-- In every run in which no turn takes a slot between the last steps of another task, no frame of a
session is published between the subscription of a message and its turn, and no receiver loses the
frame of its turn, each message shows the terminal frame of its own turn. -/
theorem reply_of_own_turn (h : (messageSystem ι config).ReachWithin AnswersApart s) :
    RepliesOwn s := by
  have hkept : RepliesKept s := by
    induction h with
    | init hs => exact repliesKept_init hs
    | step hs hguard hst ih => exact ih.step (slots_owned (turnsOf_reach hs.reach)) hguard hst
  intro i turn shown text hshown
  have hhears := hkept.hears i
  unfold Hears at hhears
  rw [hshown] at hhears
  exact hhears

end

instance (g : TurnState) (handler : MessageStage) (act : MessageAction) :
    Decidable (MissesNothing g handler act) :=
  match act, handler with
  | .submit valid, .subscribed session _ _ cursor => inferInstanceAs (Decidable (valid = true →
      (g.sessions session).active_turn = none → nextFrame g.published session cursor = none))
  | .lag skipped, .streaming turn cursor =>
    inferInstanceAs (Decidable (∀ p ∈ (g.published.drop cursor).take skipped, p.1 ≠ turn))
  | .submit _, .absent | .submit _, .resolved _ _ _ | .submit _, .submitting _ _
  | .submit _, .streaming _ _ | .submit _, .finalized _ _ _ | .submit _, .ended
  | .lag _, .absent | .lag _, .resolved _ _ _ | .lag _, .subscribed _ _ _ _
  | .lag _, .submitting _ _ | .lag _, .finalized _ _ _ | .lag _, .ended
  | .turn _, _ | .subscribe, _ | .recv, _ | .leave, _ => .isTrue trivial

instance {ι : Type} [Fintype ι] (s : Threads ι TurnState MessageThread) (l : ι × MessageAction) :
    Decidable (AnswersApart s l) :=
  inferInstanceAs (Decidable (_ ∧ _))

section Examples

/-- Two messages of a chat, whose session is 0. -/
def twoMessages : Threads (Fin 2) TurnState MessageThread :=
  ⟨{ permits := twoAtATime.max_concurrent_turns_per_user },
    fun i => { handler := .resolved 0 (if i = 0 then "t1" else "t2") (if i = 0 then "t1" else "t2") }⟩

theorem init_twoMessages : (messageSystem (Fin 2) twoAtATime).init twoMessages :=
  ⟨⟨_, _, rfl, fun _ => ⟨rfl, rfl⟩⟩, fun _ => ⟨rfl, .inr ⟨_, _, _, rfl⟩⟩⟩

/-- A message subscribes. -/
def subscribing (i : Fin 2) : List (Fin 2 × MessageAction) := [(i, .subscribe)]

/-- A message submits its turn, and the turn is accepted. -/
def submitting (i : Fin 2) : List (Fin 2 × MessageAction) :=
  (i, .submit true) :: List.replicate 3 (i, .turn .next)

/-- A turn runs up to the clearing of its slot. -/
def runningToSlot (i : Fin 2) (message : String) : List (Fin 2 × MessageAction) :=
  (runToSlot i message).map fun l => (l.1, .turn l.2)

/-- A turn stores and publishes its terminal frame. -/
def publishing (i : Fin 2) : List (Fin 2 × MessageAction) := List.replicate 2 (i, .turn .next)

/-- The second message comes while the turn of the first is running, and is submitted when the slot
is free. -/
def secondBetween : List (Fin 2 × MessageAction) :=
  subscribing 0 ++ submitting 0 ++ subscribing 1 ++ runningToSlot 0 "first" ++ submitting 1 ++
    publishing 0 ++ [(1, .recv)]

/-- The turn that a message submitted and the turn of the frame that it shows, with the text. -/
def MessageStage.shownIds : MessageStage → Option (String × String × String)
  | .finalized turn shown text => some (turn.turn_id, shown.1.turn_id, text)
  | _ => none

theorem finalized_of_shownIds {handler : MessageStage} {own other text : String}
    (h : handler.shownIds = some (own, other, text)) :
    ∃ turn shown, handler = .finalized turn shown text ∧ turn.turn_id = own ∧
      shown.1.turn_id = other := by
  cases handler with
  | finalized turn shown text' =>
    cases h
    exact ⟨turn, shown, rfl, rfl, rfl⟩
  | _ => cases h

/-- The second message shows the end of the first turn. -/
theorem secondBetween_shows_first : ∃ s, (messageSystem (Fin 2) twoAtATime).Reach s ∧
    (s.threads 1).handler.shownIds = some ("t2", "t1", "❌ first") ∧ ¬RepliesOwn s := by
  obtain ⟨s, hs, hshown⟩ : ∃ s ∈ exec (fun _ _ => True)
      (threadStep (messageStep twoAtATime.toGatewayConfig)) twoMessages secondBetween,
      (s.threads 1).handler.shownIds = some ("t2", "t1", "❌ first") := by
    decide
  refine ⟨s, reachWithin_exec (.init init_twoMessages) hs, hshown, fun hown => ?_⟩
  obtain ⟨turn, shown, hfinalized, hturn, hother⟩ := finalized_of_shownIds hshown
  have hsame := (hown 1 turn shown _ hfinalized).1
  rw [hsame, hturn] at hother
  exact absurd hother (by decide)

/-- The second message comes when the first turn is over. -/
def secondAfter : List (Fin 2 × MessageAction) :=
  subscribing 0 ++ submitting 0 ++ runningToSlot 0 "first" ++ publishing 0 ++ [(0, .recv)] ++
    subscribing 1 ++ submitting 1 ++ runningToSlot 1 "second" ++ publishing 1 ++ [(1, .recv)]

/-- Both messages show the ends of their own turns. -/
theorem secondAfter_shows_own : ∃ s, (messageSystem (Fin 2) twoAtATime).ReachWithin AnswersApart s ∧
    (s.threads 0).handler.shownIds = some ("t1", "t1", "❌ first") ∧
    (s.threads 1).handler.shownIds = some ("t2", "t2", "❌ second") ∧ RepliesOwn s := by
  obtain ⟨s, hs, hfirst, hsecond⟩ : ∃ s ∈ exec AnswersApart
      (threadStep (messageStep twoAtATime.toGatewayConfig)) twoMessages secondAfter,
      (s.threads 0).handler.shownIds = some ("t1", "t1", "❌ first") ∧
        (s.threads 1).handler.shownIds = some ("t2", "t2", "❌ second") := by
    decide
  have hreach : (messageSystem (Fin 2) twoAtATime).ReachWithin AnswersApart s :=
    reachWithin_exec (.init init_twoMessages) hs
  exact ⟨s, hreach, hfirst, hsecond, reply_of_own_turn hreach⟩

end Examples

end Oxydra
