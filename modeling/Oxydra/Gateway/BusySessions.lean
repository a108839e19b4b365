import Oxydra.Gateway.TurnFrames

/-!
# The cleanup and the sessions with turns

The cleanup removes a session that has no subscribers and was not marked active for the idle time.
It does not ask whether the session has an active or queued turn, and a turn marks its session only
when it starts to run and when it ends. So it spares the sessions with turns in the runs in which
each of them has a subscriber or was marked lately (`cleanup_spares`), and in others it does not.
-/

namespace Oxydra

open Option Lts

variable {g g' : TurnState}

/-- The session that a client leaves. -/
def TurnAction.leaves : TurnAction → Option ℕ
  | .unsubscribe session => some session
  | _ => none

/-- The time that passes. -/
def TurnAction.passes : TurnAction → Option ℕ
  | .tick secs => some secs
  | _ => none

/-- A client leaves. -/
def SessionCell.unsubscribe (c : SessionCell) : SessionCell :=
  { c with receivers := c.receivers - 1 }

section

variable {ι : Type} [DecidableEq ι] {config : ValidGatewayConfig}
  {s t : Threads ι TurnState TurnPhase} {i : ι} {act : TurnAction}

/-- A cleanup that removes a session finds no active or queued turn in it. -/
def CleanupSpares (config : ValidGatewayConfig) (s : Threads ι TurnState TurnPhase) : Prop :=
  ∀ i session t, (turnSystem ι config).step s (i, .cleanup session) t →
    (s.shared.sessions session).in_map = true → (t.shared.sessions session).in_map = false →
    ∀ j, ∀ p ∈ s.threads j, p.1.session = session → p.2.hasSlot = false

/-- When a turn takes a slot, when a client leaves a session with a turn, and when time passes, the
sessions with turns have a subscriber or were active within the idle time. -/
def StaysAttended (config : GatewayConfig) (s : Threads ι TurnState TurnPhase)
    (l : ι × TurnAction) : Prop :=
  (∀ session ∈ l.2.submitsTo, (s.shared.sessions session).active_turn = none →
    TurnState.evictable config s.shared.now (s.shared.sessions session) = false) ∧
  (∀ session ∈ l.2.leaves, ∀ j, ∀ p ∈ s.threads j, p.2.hasSlot → p.1.session = session →
    TurnState.evictable config s.shared.now (s.shared.sessions session).unsubscribe = false) ∧
  (∀ secs ∈ l.2.passes, ∀ j, ∀ p ∈ s.threads j, p.2.hasSlot →
    TurnState.evictable config (s.shared.now + secs) (s.shared.sessions p.1.session) = false)

/-- No session with an active or queued turn would be removed. -/
def Attended (config : GatewayConfig) (s : Threads ι TurnState TurnPhase) : Prop :=
  ∀ i, ∀ p ∈ s.threads i, p.2.hasSlot →
    TurnState.evictable config s.shared.now (s.shared.sessions p.1.session) = false

/-- A change of a session that makes it no staler. -/
theorem evictable_modify {config : GatewayConfig} {session : ℕ} {f : SessionCell → SessionCell}
    (hf : ∀ c, TurnState.evictable config g.now c = false →
      TurnState.evictable config g.now (f c) = false) {k : ℕ}
    (h : TurnState.evictable config g.now (g.sessions k) = false) :
    TurnState.evictable config g.now ((g.modifySession session f).sessions k) = false := by
  rw [sessions_modifySession]
  split_ifs
  · exact hf _ h
  · exact h

/-- What a turn does makes no session staler. -/
theorem evictable_move {turn : Turn} {stage : TurnStage} {phase' : TurnPhase}
    (h : TurnMove config.toGatewayConfig g turn stage g' phase') :
    g'.now = g.now ∧ ∀ k,
      TurnState.evictable config.toGatewayConfig g.now (g.sessions k) = false →
      TurnState.evictable config.toGatewayConfig g.now (g'.sessions k) = false := by
  -- a session that was just marked is not idle, since the idle time is positive
  have hmark : ∀ k, TurnState.evictable config.toGatewayConfig g.now (g.sessions k) = false →
      TurnState.evictable config.toGatewayConfig g.now
        ((g.markActive turn.session).sessions k) = false := by
    intro k hk
    refine evictable_modify (fun c _ => ?_) hk
    simp [TurnState.evictable, config.ttl_pos.ne']
  cases h with
  | clearFrame | refuse | store =>
    refine ⟨rfl, fun k hk => evictable_modify (fun c hc => ?_) hk⟩
    exact hc
  | clearSlot =>
    refine ⟨rfl, fun k hk => evictable_modify (fun c hc => ?_) hk⟩
    unfold SessionCell.clearSlot
    split_ifs <;> exact hc
  | run => exact ⟨rfl, hmark⟩
  | mark permit marks =>
    cases marks with
    | true => exact ⟨rfl, hmark⟩
    | false => exact ⟨rfl, fun _ hk => hk⟩
  | _ => exact ⟨rfl, fun _ hk => hk⟩

/-- A turn does not get a slot by what it does. -/
theorem slot_move {config : GatewayConfig} {turn : Turn} {stage : TurnStage} {phase' : TurnPhase}
    (h : TurnMove config g turn stage g' phase') :
    ∀ p ∈ phase', p.2.hasSlot → p.1 = turn ∧ stage.hasSlot := by
  intro p hp hslot
  cases h with
  | refuse | done => cases hp
  | _ =>
    cases hp
    first
      | exact ⟨rfl, rfl⟩
      | cases hslot

/-- What the world does under the guard leaves the sessions with turns attended. -/
theorem attended_world {config : GatewayConfig} {p : Turn × TurnStage}
    (h : worldStep config g act = some g')
    (hp : TurnState.evictable config g.now (g.sessions p.1.session) = false)
    (hleave : ∀ session ∈ act.leaves, p.1.session = session →
      TurnState.evictable config g.now (g.sessions session).unsubscribe = false)
    (hpass : ∀ secs ∈ act.passes,
      TurnState.evictable config (g.now + secs) (g.sessions p.1.session) = false) :
    TurnState.evictable config g'.now (g'.sessions p.1.session) = false := by
  cases act with
  | submit | next | grant | giveUp | finish => cases h
  | cancel session =>
    simp only [worldStep] at h
    split at h
    all_goals
      cases h
      exact hp
  | subscribe session =>
    cases h
    refine evictable_modify (fun c _ => ?_) hp
    simp [TurnState.evictable]
  | unsubscribe session =>
    -- the guard is about the session as the client leaves it
    cases h
    rw [sessions_modifySession]
    split_ifs with heq
    · rw [heq]
      exact hleave session rfl heq
    · exact hp
  | cleanup session =>
    simp only [worldStep] at h
    split_ifs at h
    · -- a session that is out of the map is not evicted again
      cases h
      refine evictable_modify (fun c _ => ?_) hp
      simp [TurnState.evictable]
    · cases h
      exact hp
  | tick secs =>
    cases h
    exact hpass secs rfl

/-- Every guarded step leaves the sessions with turns attended. -/
theorem Attended.step (h : Attended config.toGatewayConfig s)
    (hguard : StaysAttended config.toGatewayConfig s (i, act))
    (hst : (turnSystem ι config).step s (i, act) t) : Attended config.toGatewayConfig t := by
  obtain ⟨phase', hthreads, he⟩ := turnSystem_step hst
  obtain ⟨hsubmit, hleave, hpass⟩ := hguard
  intro j p hp hslot
  have hmem := mem_threads_update hthreads hp
  generalize hg' : t.shared = g' at he
  generalize hphase : s.threads i = phase at he
  cases he with
  | world _ hworld =>
    have hp : p ∈ s.threads j := by
      obtain ⟨rfl, hp⟩ | ⟨-, hp⟩ := hmem
      · rw [hphase]
        exact hp
      · exact hp
    exact attended_world hworld (h j p hp hslot)
      (fun session hsession heq => hleave session hsession j p hp hslot heq)
      (fun secs hsecs => hpass secs hsecs j p hp hslot)
  | rejected =>
    obtain ⟨-, hp⟩ | ⟨-, hp⟩ := hmem
    · cases hp
    · exact h j p hp hslot
  | started turn hact hfree htoken =>
    -- the slot is not among what the cleanup looks at
    have hkeep : ∀ k,
        TurnState.evictable config.toGatewayConfig s.shared.now (s.shared.sessions k) = false →
        TurnState.evictable config.toGatewayConfig s.shared.now
          ((s.shared.modifySession turn.session fun c =>
            { c with active_turn := some (turn.turn_id, turn.token) }).sessions k) = false := by
      intro k hk
      refine evictable_modify (fun c hc => ?_) hk
      exact hc
    obtain ⟨-, hp⟩ | ⟨-, hp⟩ := hmem
    · cases hp
      exact hkeep _ (hsubmit turn.session (by rw [hact]; rfl) hfree)
    · exact hkeep _ (h j p hp hslot)
  | moved turn stage hact hmove =>
    obtain ⟨hnow, hkeep⟩ := evictable_move hmove
    rw [hnow]
    apply hkeep
    obtain ⟨rfl, hp⟩ | ⟨-, hp⟩ := hmem
    · obtain ⟨hturn, hstage⟩ := slot_move hmove p hp hslot
      rw [hturn]
      exact h j _ hphase hstage
    · exact h j p hp hslot

/-- In every run in which the sessions with turns stay attended, the cleanup removes no session that
has an active or queued turn. -/
theorem cleanup_spares
    (h : (turnSystem ι config).ReachWithin (StaysAttended config.toGatewayConfig) s) :
    CleanupSpares config s := by
  have hattended : Attended config.toGatewayConfig s := by
    apply h.invariant
    · intro s hs j p hp
      rw [hs.2 j] at hp
      cases hp
    · intro s l t hs hguard hst
      exact hs.step hguard hst
  intro k session t hst hin hout j p hp hsession
  obtain ⟨g', phase', hstep, rfl⟩ := interleave_step hst
  by_contra hslot
  have hsafe := hattended j p hp (by simpa using hslot)
  rw [hsession] at hsafe
  -- the cleanup leaves such a session where it is
  have hsame : g' = s.shared := by
    simp only [turnStep, worldStep, hsafe] at hstep
    simpa using (congrArg (Option.map Prod.fst) hstep).symm
  subst hsame
  rw [hin] at hout
  cases hout

end

instance {ι : Type} [Fintype ι] (config : GatewayConfig) (s : Threads ι TurnState TurnPhase)
    (l : ι × TurnAction) : Decidable (StaysAttended config s l) :=
  inferInstanceAs (Decidable (_ ∧ _ ∧ _))

/-- A turn waits for two hours while its client listens. -/
def attendedWait : List (Fin 1 × TurnAction) :=
  [(0, .subscribe 0)] ++ submission 0 0 "t1" ++ [(0, .tick 7200), (0, .cleanup 0)]

/-- The session is still there. -/
theorem attendedWait_spares : ∃ s, (turnSystem (Fin 1) oneAtATime).ReachWithin
    (StaysAttended oneAtATime.toGatewayConfig) s ∧ (s.shared.sessions 0).in_map = true ∧
    CleanupSpares oneAtATime s := by
  obtain ⟨s, hs, hin⟩ : ∃ s ∈ exec (StaysAttended oneAtATime.toGatewayConfig)
      (threadStep (turnStep oneAtATime.toGatewayConfig)) (noTurns (Fin 1) oneAtATime) attendedWait,
      (s.shared.sessions 0).in_map = true := by
    decide
  have hreach : (turnSystem (Fin 1) oneAtATime).ReachWithin
      (StaysAttended oneAtATime.toGatewayConfig) s := reachWithin_exec (.init (init_noTurns _ _)) hs
  exact ⟨s, hreach, hin, cleanup_spares hreach⟩

/-- A turn runs for an hour while nobody listens. -/
def unattendedRun : List (Fin 1 × TurnAction) :=
  submission 0 0 "t1" ++ [(0, .grant), (0, .next), (0, .next), (0, .tick 3600)]

/-- The cleanup removes the session while its turn runs. -/
theorem running_session_evicted : ∃ s, (turnSystem (Fin 1) oneAtATime).Reach s ∧
    (s.threads 0).map Prod.snd = some .running ∧ ¬CleanupSpares oneAtATime s := by
  obtain ⟨s, hs, hrunning, hsession, hin, hstale⟩ : ∃ s ∈ exec (fun _ _ => True)
      (threadStep (turnStep oneAtATime.toGatewayConfig)) (noTurns (Fin 1) oneAtATime) unattendedRun,
      (s.threads 0).map Prod.snd = some .running ∧
        (s.threads 0).map (fun p => p.1.session) = some 0 ∧
        (s.shared.sessions 0).in_map = true ∧ TurnState.evictable oneAtATime.toGatewayConfig
          s.shared.now (s.shared.sessions 0) = true := by
    decide
  refine ⟨s, reachWithin_exec (.init (init_noTurns _ _)) hs, hrunning, fun hspares => ?_⟩
  obtain ⟨p, hp, hstage⟩ := Option.map_eq_some_iff.mp hrunning
  rw [hp, Option.map_some, some.injEq] at hsession
  have hcleanup : turnStep oneAtATime.toGatewayConfig s.shared (s.threads 0) (.cleanup 0) =
      some (s.shared.modifySession 0 fun c => { c with in_map := false }, s.threads 0) := by
    simp only [turnStep, worldStep, hstale, if_true, Option.map_some]
  have hslot := hspares 0 0 _ (interleave_of_step hcleanup) hin
    (by simp only [sessions_modifySession, if_true]) 0 p hp hsession
  rw [hstage] at hslot
  cases hslot

end Oxydra
