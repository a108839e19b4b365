import Oxydra.Gateway.Sessions
import Oxydra.Library.Word
import Oxydra.Types.Model

/-!
# The life of a turn

`start_turn_with_origin` of `crates/gateway/src/lib.rs`, with the task that it spawns, and
`try_enqueue_turn` and `acquire_turn_permit` of `crates/gateway/src/session.rs`, for the sessions of
one user. Each submission of a turn is a thread, and each lock section or atomic operation is one
step. A turn takes its session's slot (`active_turn`), is counted into the queue or refused, waits
for a permit, runs, and then clears the slot, stores its terminal frame, and publishes it. Meanwhile
clients subscribe, leave, or cancel, time passes, and the cleanup looks for stale sessions.

A `CancellationToken` is a number, and is what tells the turns of all submissions apart.
-/

namespace Oxydra

open Option Lts

/-! ## The state -/

/-- A configuration that passes `GatewayConfig::validate`, in the range of its types. -/
structure ValidGatewayConfig extends GatewayConfig where
  sessions_pos : 0 < max_sessions_per_user
  turns_pos : 0 < max_concurrent_turns_per_user
  ttl_pos : 0 < session_idle_ttl
  fits : max_sessions_per_user < U64.size

/-- `max_queued_turns`, which is the limit on sessions. -/
def GatewayConfig.maxQueuedTurns (config : GatewayConfig) : ℕ := config.max_sessions_per_user

/-- How a turn ended. -/
inductive TurnEnd where
  | completed (response : Response)
  | cancelled
  | failed (message : String)
  deriving DecidableEq

/-- A terminal frame of a turn: `TurnCompleted`, `TurnCancelled`, or `Error`. -/
structure TerminalFrame where
  request_id : String
  turn_id : String
  ending : TurnEnd
  deriving DecidableEq

/-- A turn that was submitted to a session, and its cancellation token. -/
structure Turn where
  session : ℕ
  request_id : String
  turn_id : String
  token : ℕ
  deriving DecidableEq

/-- The terminal frame of a turn. -/
def Turn.frame (turn : Turn) (ending : TurnEnd) : TerminalFrame :=
  ⟨turn.request_id, turn.turn_id, ending⟩

/-- `SessionState`, the parts that turns and the cleanup use. -/
structure SessionCell where
  /-- The turn id and the cancellation token of the active turn. -/
  active_turn : Option (String × ℕ) := none
  latest_terminal_frame : Option TerminalFrame := none
  /-- `last_activity_epoch_secs`. -/
  last_activity : ℕ := 0
  /-- `events.receiver_count()`. -/
  receivers : ℕ := 0
  /-- Whether the user's map holds the session. -/
  in_map : Bool := true
  deriving DecidableEq

/-- What the turns of a user share, and a record of what they did. -/
structure TurnState where
  queued_turns : ℕ := 0
  /-- The permits that `turn_semaphore` has left. -/
  permits : ℕ
  next_token : ℕ := 0
  /-- The tokens that were cancelled. -/
  cancelled : ℕ → Bool := fun _ => false
  sessions : ℕ → SessionCell := fun _ => {}
  /-- The clock, in seconds. -/
  now : ℕ := 0
  /-- The turns that were accepted, in order. -/
  accepted : List Turn := []
  /-- The terminal frames that were published, each with its turn. -/
  published : List (Turn × TerminalFrame) := []

namespace TurnState

variable (g : TurnState)

/-- A change of one session. -/
def modifySession (session : ℕ) (f : SessionCell → SessionCell) : TurnState :=
  { g with sessions := Function.update g.sessions session (f (g.sessions session)) }

/-- `mark_active`. -/
def markActive (session : ℕ) : TurnState :=
  g.modifySession session fun c => { c with last_activity := g.now }

/-- Whether the cleanup would remove a session: nobody listens, and it was not active lately. -/
def evictable (config : GatewayConfig) (now : ℕ) (c : SessionCell) : Bool :=
  c.in_map ∧ c.receivers = 0 ∧ config.session_idle_ttl ≤ now - c.last_activity

end TurnState

/-! ## Steps -/

/-- Where a submission is. -/
inductive TurnStage where
  /-- It has the slot of its session. -/
  | started
  /-- It has cleared the terminal frame of the turn before it, and is in `try_enqueue_turn`. -/
  | cleared
  /-- It has loaded the number of queued turns. -/
  | loaded (current : ℕ)
  /-- The queue was full. -/
  | refused
  /-- It was accepted, and its task is in `acquire_turn_permit`. -/
  | waiting
  /-- It has a permit, or was cancelled, and still counts as queued. -/
  | leaving (permit : Bool)
  /-- It has a permit. -/
  | admitted
  | running
  /-- It has its terminal frame. The turns that ran mark their session as active in the end. -/
  | ending (frame : TerminalFrame) (permit marks : Bool)
  | slotCleared (frame : TerminalFrame) (permit marks : Bool)
  | stored (frame : TerminalFrame) (permit marks : Bool)
  | published (permit marks : Bool)
  | finishing (permit : Bool)
  deriving DecidableEq

/-- A submission: none, or its turn and where it is. -/
abbrev TurnPhase := Option (Turn × TurnStage)

/-- What a thread does: it submits a turn, takes the next step with it, gets a permit, gives up
waiting for one, or its turn ends. In any thread a client cancels the active turn of a session,
subscribes to it, or leaves it, the cleanup comes to a session, or time passes. -/
inductive TurnAction where
  | submit (session : ℕ) (request_id turn_id : String) (valid : Bool)
  | next
  | grant
  | giveUp
  | finish (ending : TurnEnd)
  | cancel (session : ℕ)
  | subscribe (session : ℕ)
  | unsubscribe (session : ℕ)
  | cleanup (session : ℕ)
  | tick (secs : ℕ)

/-- A step that a submission or its task takes. -/
def TurnAction.ofTask : TurnAction → Bool
  | .next | .grant | .giveUp | .finish _ => true
  | _ => false

/-- The slot of a turn is given up, if it is still the turn's own. -/
def SessionCell.clearSlot (turn_id : String) (c : SessionCell) : SessionCell :=
  if c.active_turn.any fun active => active.1 = turn_id then { c with active_turn := none } else c

section

variable (config : GatewayConfig) (g : TurnState)

/-- `start_turn_with_origin`, up to the check of the slot. -/
def submitTurn (session : ℕ) (request_id turn_id : String) (valid : Bool) :
    TurnState × TurnPhase :=
  -- attachments are checked before the slot
  if !valid then (g, none)
  else if (g.sessions session).active_turn.isSome then (g, none)
  else
    -- the slot is taken under the lock that checked it
    let turn : Turn := ⟨session, request_id, turn_id, g.next_token⟩
    ({ g.modifySession session fun c => { c with active_turn := some (turn_id, g.next_token) } with
        next_token := g.next_token + 1 },
      some (turn, .started))

/-- The next step of a submission that does not wait. -/
def nextStep (turn : Turn) : TurnStage → Option (TurnState × TurnPhase)
  | .started =>
    -- the frame is cleared before the turn is known to be accepted
    some (g.modifySession turn.session fun c => { c with latest_terminal_frame := none },
      some (turn, .cleared))
  | .cleared =>
    if config.maxQueuedTurns ≤ g.queued_turns then some (g, some (turn, .refused))
    else some (g, some (turn, .loaded g.queued_turns))
  | .loaded current =>
    -- `compare_exchange`: another thread may have changed the counter since the load
    if g.queued_turns = current then
      some ({ g with queued_turns := current + 1, accepted := g.accepted ++ [turn] },
        some (turn, .waiting))
    else some (g, some (turn, .cleared))
  | .refused =>
    -- whatever turn the slot has
    some (g.modifySession turn.session fun c => { c with active_turn := none }, none)
  | .leaving permit =>
    -- `fetch_sub`, with a permit or without
    let g' := { g with queued_turns := U64.wrappingSub g.queued_turns 1 }
    if permit then some (g', some (turn, .admitted))
    else
      let ending := if g.cancelled turn.token then TurnEnd.cancelled
        else .failed "failed to acquire turn permit"
      some (g', some (turn, .ending (turn.frame ending) false false))
  | .admitted =>
    -- a turn that is cancelled here never marks its session
    if g.cancelled turn.token then
      some (g, some (turn, .ending (turn.frame .cancelled) true false))
    else some (g.markActive turn.session, some (turn, .running))
  | .ending frame permit marks =>
    -- the slot is free from here on, and the frame is not stored yet
    some (g.modifySession turn.session (SessionCell.clearSlot turn.turn_id),
      some (turn, .slotCleared frame permit marks))
  | .slotCleared frame permit marks =>
    some (g.modifySession turn.session fun c => { c with latest_terminal_frame := some frame },
      some (turn, .stored frame permit marks))
  | .stored frame permit marks =>
    some ({ g with published := g.published ++ [(turn, frame)] },
      some (turn, .published permit marks))
  | .published permit marks =>
    some (if marks then g.markActive turn.session else g, some (turn, .finishing permit))
  | .finishing permit =>
    -- the permit is dropped with the task
    some ({ g with permits := g.permits + if permit then 1 else 0 }, none)
  | .waiting | .running => none

/-- What clients, the clock, and the cleanup do. -/
def worldStep : TurnAction → Option TurnState
  | .cancel session =>
    -- the token of whatever turn has the slot
    match (g.sessions session).active_turn with
    | some (_, token) => some { g with cancelled := Function.update g.cancelled token true }
    | none => some g
  | .subscribe session =>
    some (g.modifySession session fun c => { c with receivers := c.receivers + 1 })
  | .unsubscribe session =>
    some (g.modifySession session fun c => { c with receivers := c.receivers - 1 })
  | .cleanup session =>
    -- `active_turn` is not looked at
    if TurnState.evictable config g.now (g.sessions session) then
      some (g.modifySession session fun c => { c with in_map := false })
    else some g
  | .tick secs => some { g with now := g.now + secs }
  | _ => none

/-- One atomic step of one thread. -/
def turnStep (phase : TurnPhase) (act : TurnAction) : Option (TurnState × TurnPhase) :=
  match act, phase with
  | .submit session request_id turn_id valid, none =>
    some (submitTurn g session request_id turn_id valid)
  | .next, some (turn, stage) => nextStep config g turn stage
  | .grant, some (turn, .waiting) =>
    if 0 < g.permits then
      some ({ g with permits := g.permits - 1 }, some (turn, .leaving true))
    else none
  | .giveUp, some (turn, .waiting) =>
    if g.cancelled turn.token then some (g, some (turn, .leaving false)) else none
  | .finish ending, some (turn, .running) =>
    some (g, some (turn, .ending (turn.frame ending) true true))
  | act, phase => (worldStep config g act).map fun g' => (g', phase)

end

/-- All interleavings of the turns of a user, on sessions in which no turn was started yet. -/
def turnSystem (ι : Type) [DecidableEq ι] (config : ValidGatewayConfig) :
    System (Threads ι TurnState TurnPhase) (ι × TurnAction) :=
  interleave (fun s => (∃ sessions now, s.shared =
      { permits := config.max_concurrent_turns_per_user, sessions := sessions, now := now } ∧
      ∀ h, (sessions h).active_turn = none ∧ (sessions h).latest_terminal_frame = none) ∧
    ∀ i, s.threads i = none) (turnStep config.toGatewayConfig)

/-! ## What a step can do -/

/-- All that a submission can do with its turn. -/
inductive TurnMove (config : GatewayConfig) (g : TurnState) (turn : Turn) :
    TurnStage → TurnState → TurnPhase → Prop
  | clearFrame : TurnMove config g turn .started
      (g.modifySession turn.session fun c => { c with latest_terminal_frame := none })
      (some (turn, .cleared))
  | full (h : config.maxQueuedTurns ≤ g.queued_turns) :
      TurnMove config g turn .cleared g (some (turn, .refused))
  | load (h : g.queued_turns < config.maxQueuedTurns) :
      TurnMove config g turn .cleared g (some (turn, .loaded g.queued_turns))
  | accept : TurnMove config g turn (.loaded g.queued_turns)
      { g with queued_turns := g.queued_turns + 1, accepted := g.accepted ++ [turn] }
      (some (turn, .waiting))
  | retry (current : ℕ) : TurnMove config g turn (.loaded current) g (some (turn, .cleared))
  | refuse : TurnMove config g turn .refused
      (g.modifySession turn.session fun c => { c with active_turn := none }) none
  | grant (h : 0 < g.permits) : TurnMove config g turn .waiting
      { g with permits := g.permits - 1 } (some (turn, .leaving true))
  | giveUp : TurnMove config g turn .waiting g (some (turn, .leaving false))
  | enter : TurnMove config g turn (.leaving true)
      { g with queued_turns := U64.wrappingSub g.queued_turns 1 } (some (turn, .admitted))
  | drop (ending : TurnEnd) : TurnMove config g turn (.leaving false)
      { g with queued_turns := U64.wrappingSub g.queued_turns 1 }
      (some (turn, .ending (turn.frame ending) false false))
  | cancel : TurnMove config g turn .admitted g
      (some (turn, .ending (turn.frame .cancelled) true false))
  | run : TurnMove config g turn .admitted (g.markActive turn.session) (some (turn, .running))
  | finish (ending : TurnEnd) : TurnMove config g turn .running g
      (some (turn, .ending (turn.frame ending) true true))
  | clearSlot (frame : TerminalFrame) (permit marks : Bool) :
      TurnMove config g turn (.ending frame permit marks)
        (g.modifySession turn.session (SessionCell.clearSlot turn.turn_id))
        (some (turn, .slotCleared frame permit marks))
  | store (frame : TerminalFrame) (permit marks : Bool) :
      TurnMove config g turn (.slotCleared frame permit marks)
        (g.modifySession turn.session fun c => { c with latest_terminal_frame := some frame })
        (some (turn, .stored frame permit marks))
  | publish (frame : TerminalFrame) (permit marks : Bool) :
      TurnMove config g turn (.stored frame permit marks)
        { g with published := g.published ++ [(turn, frame)] }
        (some (turn, .published permit marks))
  | mark (permit marks : Bool) : TurnMove config g turn (.published permit marks)
      (if marks then g.markActive turn.session else g) (some (turn, .finishing permit))
  | done (permit : Bool) : TurnMove config g turn (.finishing permit)
      { g with permits := g.permits + if permit then 1 else 0 } none

/-- All that a step can do. -/
inductive TurnEffect (config : GatewayConfig) (g : TurnState) (act : TurnAction) :
    TurnPhase → TurnState → TurnPhase → Prop
  | world {g' : TurnState} (phase : TurnPhase) (h : worldStep config g act = some g') :
      TurnEffect config g act phase g' phase
  | rejected : TurnEffect config g act none g none
  | started (turn : Turn)
      (hact : act = .submit turn.session turn.request_id turn.turn_id true)
      (hfree : (g.sessions turn.session).active_turn = none) (htoken : turn.token = g.next_token) :
      TurnEffect config g act none
        { g.modifySession turn.session fun c =>
            { c with active_turn := some (turn.turn_id, turn.token) } with
          next_token := g.next_token + 1 }
        (some (turn, .started))
  | moved {g' : TurnState} {phase' : TurnPhase} (turn : Turn) (stage : TurnStage)
      (hact : act.ofTask = true) (h : TurnMove config g turn stage g' phase') :
      TurnEffect config g act (some (turn, stage)) g' phase'

section

variable {config : GatewayConfig} {g g' : TurnState} {phase phase' : TurnPhase} {act : TurnAction}

/-- What the next step of a submission can do. -/
theorem nextStep_move {turn : Turn} {stage : TurnStage}
    (h : nextStep config g turn stage = some (g', phase')) :
    TurnMove config g turn stage g' phase' := by
  cases stage with
  | started =>
    cases h
    exact .clearFrame
  | cleared =>
    simp only [nextStep] at h
    -- `try_enqueue_turn` compares and exchanges the counter in a loop
    split_ifs at h with hfull
    · cases h
      exact .full hfull
    · cases h
      exact .load (by omega)
  | loaded current =>
    simp only [nextStep] at h
    split_ifs at h with hsame
    · subst hsame
      cases h
      exact .accept
    · cases h
      exact .retry current
  | refused =>
    cases h
    exact .refuse
  | waiting => cases h
  | leaving permit =>
    cases permit with
    | true =>
      obtain ⟨rfl, rfl⟩ := Prod.mk.inj (some.inj h)
      exact .enter
    | false =>
      obtain ⟨rfl, rfl⟩ := Prod.mk.inj (some.inj h)
      exact .drop _
  | admitted =>
    simp only [nextStep] at h
    split_ifs at h
    · cases h
      exact .cancel
    · cases h
      exact .run
  | running => cases h
  | ending frame permit marks =>
    cases h
    exact .clearSlot frame permit marks
  | slotCleared frame permit marks =>
    cases h
    exact .store frame permit marks
  | stored frame permit marks =>
    cases h
    exact .publish frame permit marks
  | published permit marks =>
    cases h
    exact .mark permit marks
  | finishing permit =>
    cases h
    exact .done permit

/-- What a step of a thread can do. -/
theorem turnStep_effect (h : turnStep config g phase act = some (g', phase')) :
    TurnEffect config g act phase g' phase' := by
  unfold turnStep at h
  split at h
  · next session request_id turn_id valid =>
    simp only [submitTurn] at h
    split_ifs at h with hvalid hactive
    · cases h
      exact .rejected
    · cases h
      exact .rejected
    · cases h
      have hfree : (g.sessions session).active_turn = none := by simpa using hactive
      obtain rfl : valid = true := by simpa using hvalid
      exact .started ⟨session, request_id, turn_id, g.next_token⟩ rfl hfree rfl
  · next turn stage => exact .moved turn stage rfl (nextStep_move h)
  · next turn =>
    split_ifs at h with hpermit
    cases h
    exact .moved turn .waiting rfl (.grant hpermit)
  · next turn =>
    split_ifs at h
    cases h
    exact .moved turn .waiting rfl .giveUp
  · next ending turn =>
    cases h
    exact .moved turn .running rfl (.finish ending)
  · obtain ⟨g'', hworld, heq⟩ := Option.map_eq_some_iff.mp h
    cases heq
    exact .world phase hworld

theorem sessions_modifySession (session : ℕ) (f : SessionCell → SessionCell) (k : ℕ) :
    (g.modifySession session f).sessions k =
      if k = session then f (g.sessions k) else g.sessions k := by
  unfold TurnState.modifySession
  by_cases hk : k = session
  · subst hk
    simp
  · simp [hk]

/-- A step of the system and its effect. -/
theorem turnSystem_step {ι : Type} [DecidableEq ι] {config : ValidGatewayConfig}
    {s t : Threads ι TurnState TurnPhase} {i : ι} (h : (turnSystem ι config).step s (i, act) t) :
    ∃ phase', t.threads = Function.update s.threads i phase' ∧
      TurnEffect config.toGatewayConfig s.shared act (s.threads i) t.shared phase' := by
  obtain ⟨g', phase', hstep, rfl⟩ := interleave_step h
  exact ⟨phase', rfl, turnStep_effect hstep⟩

/-- What the world leaves alone. -/
theorem worldStep_same (h : worldStep config g act = some g') :
    g'.queued_turns = g.queued_turns ∧ g'.permits = g.permits ∧ g'.next_token = g.next_token ∧
      g'.accepted = g.accepted ∧ g'.published = g.published ∧
      ∀ k, (g'.sessions k).active_turn = (g.sessions k).active_turn ∧
        (g'.sessions k).latest_terminal_frame = (g.sessions k).latest_terminal_frame := by
  cases act with
  | submit | next | grant | giveUp | finish => cases h
  | cancel session =>
    simp only [worldStep] at h
    split at h
    all_goals
      cases h
      simp
  | subscribe session | unsubscribe session =>
    cases h
    refine ⟨rfl, rfl, rfl, rfl, rfl, fun k => ?_⟩
    rw [sessions_modifySession]
    split_ifs <;> exact ⟨rfl, rfl⟩
  | cleanup session =>
    simp only [worldStep] at h
    split_ifs at h
    · cases h
      refine ⟨rfl, rfl, rfl, rfl, rfl, fun k => ?_⟩
      rw [sessions_modifySession]
      split_ifs <;> exact ⟨rfl, rfl⟩
    · cases h
      simp
  | tick secs =>
    cases h
    simp

end

end Oxydra
