import Oxydra.Gateway.TurnAdmission

/-!
# The terminal frame that a session keeps

A client that comes back to a session is shown `latest_terminal_frame`, the frame with which the
last turn ended. A task clears its session's slot first and stores its frame afterwards, and a
submission clears the frame before it knows whether it is accepted. The frame is the right one in
the runs in which no turn takes a slot between the two steps of a task, and no submission is refused
for a full queue after a turn was accepted (`latest_frame_kept`).
-/

namespace Oxydra

open Option Function List Lts

variable {frame : TerminalFrame} {turn : Turn} {stage : TurnStage} {g g' : TurnState} {session : ℕ}

/-! ## Slots -/

/-- A turn that has the slot of its session. -/
def TurnStage.hasSlot : TurnStage → Bool
  | .slotCleared _ _ _ | .stored _ _ _ | .published _ _ | .finishing _ => false
  | _ => true

section

variable {ι : Type} [DecidableEq ι] {config : ValidGatewayConfig}
  {s t : Threads ι TurnState TurnPhase} {i : ι} {act : TurnAction}

/-- A turn that has a slot is in it. -/
def SlotsOwned (s : Threads ι TurnState TurnPhase) : Prop :=
  ∀ i, ∀ p ∈ s.threads i, p.2.hasSlot →
    (s.shared.sessions p.1.session).active_turn = some (p.1.turn_id, p.1.token)

/-- What a step does to the slots: nothing, a turn takes a free one, or a turn gives its own up. -/
inductive SlotEffect (g : TurnState) (phase : TurnPhase) (g' : TurnState) (phase' : TurnPhase) :
    Prop
  | same (hslots : ∀ k, (g'.sessions k).active_turn = (g.sessions k).active_turn)
    (hback : ∀ p ∈ phase', p.2.hasSlot → ∃ q ∈ phase, p.1 = q.1 ∧ q.2.hasSlot)
  | take (turn : Turn) (hphase' : phase' = some (turn, .started))
    (hfree : (g.sessions turn.session).active_turn = none)
    (hslot : (g'.sessions turn.session).active_turn = some (turn.turn_id, turn.token))
    (hslots : ∀ k, k ≠ turn.session → (g'.sessions k).active_turn = (g.sessions k).active_turn)
  | give (turn : Turn) (stage : TurnStage) (hphase : phase = some (turn, stage))
    (hslot : stage.hasSlot) (hback : ∀ p ∈ phase', p.2.hasSlot = false)
    (hslots : ∀ k, k ≠ turn.session → (g'.sessions k).active_turn = (g.sessions k).active_turn)

/-- A change of a session that leaves its slot alone. -/
theorem SlotEffect.modify {stage stage' : TurnStage} {f : SessionCell → SessionCell}
    (hf : ∀ c, (f c).active_turn = c.active_turn) (hstage : stage'.hasSlot → stage.hasSlot) :
    SlotEffect g (some (turn, stage)) (g.modifySession turn.session f) (some (turn, stage')) := by
  refine .same (fun k => ?_) ?_
  · rw [sessions_modifySession]
    split_ifs
    · exact hf _
    · rfl
  · intro p hp hslot
    cases hp
    exact ⟨_, rfl, rfl, hstage hslot⟩

theorem slot_effect {config : GatewayConfig} {phase phase' : TurnPhase}
    (h : TurnEffect config g act phase g' phase') : SlotEffect g phase g' phase' := by
  cases h with
  | world _ hworld =>
    obtain ⟨-, -, -, -, -, hsessions⟩ := worldStep_same hworld
    exact .same (fun k => (hsessions k).1) fun p hp hslot => ⟨p, hp, rfl, hslot⟩
  | rejected => exact .same (fun _ => rfl) (by simp)
  | started turn hact hfree htoken =>
    refine .take turn rfl hfree ?_ fun k hk => ?_
    · simp [TurnState.modifySession]
    · simp [TurnState.modifySession, hk]
  | moved turn stage hact hmove =>
    cases hmove with
    | clearFrame | run | store => exact .modify (fun _ => rfl) (by simp [TurnStage.hasSlot])
    | refuse =>
      -- the slot is still the turn's own, although the source does not ask
      refine .give turn .refused rfl rfl (by simp) fun k hk => ?_
      rw [sessions_modifySession, if_neg hk]
    | clearSlot frame permit marks =>
      refine .give turn _ rfl rfl (by simp [TurnStage.hasSlot]) fun k hk => ?_
      rw [sessions_modifySession, if_neg hk]
    | mark permit marks =>
      cases marks with
      | true =>
        change SlotEffect g (some (turn, .published permit true)) (g.markActive turn.session)
          (some (turn, .finishing permit))
        exact .modify (fun _ => rfl) (by simp [TurnStage.hasSlot])
      | false => exact .same (fun _ => rfl) (by simp [TurnStage.hasSlot])
    | done => exact .same (fun _ => rfl) (by simp)
    | _ => exact .same (fun _ => rfl) (by simp [TurnStage.hasSlot])

/-- Every step leaves the slots with their turns. -/
theorem SlotsOwned.step (h : SlotsOwned s) (htokens : TurnTokens s)
    (hst : (turnSystem ι config).step s (i, act) t) : SlotsOwned t := by
  obtain ⟨phase', hthreads, he⟩ := turnSystem_step hst
  intro j p hp hslot
  have hmem := mem_threads_update hthreads hp
  cases slot_effect he with
  | same hslots hback =>
    rw [hslots]
    obtain ⟨rfl, hp⟩ | ⟨-, hp⟩ := hmem
    · obtain ⟨q, hq, hturn, hqslot⟩ := hback p hp hslot
      rw [hturn]
      exact h j q hq hqslot
    · exact h j p hp hslot
  | take turn hphase' hfree hnew hslots =>
    obtain ⟨rfl, hp⟩ | ⟨-, hp⟩ := hmem
    · rw [hphase'] at hp
      cases hp
      exact hnew
    · have hown := h j p hp hslot
      -- the slot was free, so this turn has another one
      have hne : p.1.session ≠ turn.session := by
        intro heq
        rw [heq, hfree] at hown
        cases hown
      rw [hslots _ hne]
      exact hown
  | give turn stage hphase hgiven hback hslots =>
    obtain ⟨rfl, hp⟩ | ⟨hji, hp⟩ := hmem
    · rw [hback p hp] at hslot
      cases hslot
    · have hown := h j p hp hslot
      have hne : p.1.session ≠ turn.session := by
        intro heq
        -- two turns in one slot would have one token
        have hown' := h i _ hphase hgiven
        rw [heq, hown'] at hown
        simp only [some.injEq, Prod.mk.injEq] at hown
        exact hji (htokens.distinct j i p hp _ hphase hown.2.symm)
      rw [hslots _ hne]
      exact hown

/-- Slots are with their turns in every reachable state. -/
theorem slots_owned (h : (turnSystem ι config).Reach s) : SlotsOwned s := by
  induction h with
  | init hs =>
    intro j p hp
    rw [hs.2 j] at hp
    cases hp
  | step hs _ hst ih => exact ih.step (turns_recorded hs).1 hst

end

/-! ## The frame of the last turn -/

/-- A turn that is yet to store its terminal frame. -/
def TurnStage.critical : TurnStage → Bool
  | .stored _ _ _ | .published _ _ | .finishing _ => false
  | _ => true

/-- A turn that has cleared its slot and is yet to store its terminal frame. -/
def TurnStage.isSlotCleared : TurnStage → Bool
  | .slotCleared _ _ _ => true
  | _ => false

/-- Until it has cleared its slot, a turn that is yet to store its frame has one. -/
theorem TurnStage.hasSlot_of_critical (hcrit : stage.critical = true)
    (hcleared : stage.isSlotCleared = false) : stage.hasSlot = true := by
  cases stage with
  | slotCleared => cases hcleared
  | stored | published | finishing => cases hcrit
  | _ => rfl

/-- Only a task clears a slot. -/
theorem TurnStage.isSlotCleared_of_isTask (htask : stage.isTask = false) :
    stage.isSlotCleared = false := by
  cases stage with
  | slotCleared => cases htask
  | _ => rfl

/-- The last of the accepted turns of a session. -/
def lastOf (accepted : List Turn) (session : ℕ) : Option Turn :=
  (accepted.filter fun turn => turn.session = session).getLast?

theorem lastOf_append_self (accepted : List Turn) (turn : Turn) :
    lastOf (accepted ++ [turn]) turn.session = some turn := by
  simp [lastOf, filter_append]

theorem lastOf_append_ne (accepted : List Turn) (h : turn.session ≠ session) :
    lastOf (accepted ++ [turn]) session = lastOf accepted session := by
  simp [lastOf, filter_append, h]

section

variable {ι : Type} [DecidableEq ι] {config : ValidGatewayConfig}
  {s t : Threads ι TurnState TurnPhase} {i : ι} {act : TurnAction}

/-- Whenever a turn of a session was accepted, and none is starting or has an unfinished task, the
session keeps the frame that the last accepted one published. -/
def LatestKept (s : Threads ι TurnState TurnPhase) : Prop :=
  ∀ session turn, lastOf s.shared.accepted session = some turn →
    (s.shared.sessions session).active_turn = none →
    (∀ i, ∀ p ∈ s.threads i, p.1.session = session → p.2.isTask = false) →
    ∃ frame, (s.shared.sessions session).latest_terminal_frame = some frame ∧
      (turn, frame) ∈ s.shared.published

omit [DecidableEq ι] in
/-- When a slot is free and no task has just cleared it, no turn of the session is yet to store its
frame. -/
theorem SlotsOwned.not_critical (h : SlotsOwned s)
    (hfree : (s.shared.sessions session).active_turn = none)
    (hcleared : ∀ j, ∀ p ∈ s.threads j, p.1.session = session → p.2.isSlotCleared = false) :
    ∀ j, ∀ p ∈ s.threads j, p.1.session = session → p.2.critical = false := by
  intro j p hp hsession
  by_contra hcrit
  rw [Bool.not_eq_false] at hcrit
  have hown := h j p hp (TurnStage.hasSlot_of_critical hcrit (hcleared j p hp hsession))
  rw [hsession, hfree] at hown
  cases hown

/-- The session to which a turn is submitted. -/
def TurnAction.submitsTo : TurnAction → Option ℕ
  | .submit session _ _ true => some session
  | _ => none

/-- No turn takes a slot while another task has cleared it and is yet to store its frame, and no
submission is refused for a full queue once a turn of its session was accepted. -/
def KeepsFrames (config : GatewayConfig) (s : Threads ι TurnState TurnPhase) (l : ι × TurnAction) :
    Prop :=
  (∀ session ∈ l.2.submitsTo, (s.shared.sessions session).active_turn = none →
    ∀ j, ∀ p ∈ s.threads j, p.1.session = session → p.2.isSlotCleared = false) ∧
  (l.2.ofTask = true → ∀ p ∈ s.threads l.1, p.2 = .cleared →
    config.maxQueuedTurns ≤ s.shared.queued_turns → lastOf s.shared.accepted p.1.session = none)

/-- The frame that a turn published, or is about to publish. -/
def FrameOf (s : Threads ι TurnState TurnPhase) (turn : Turn) (frame : TerminalFrame) : Prop :=
  (turn, frame) ∈ s.shared.published ∨
    ∃ i permit marks, s.threads i = some (turn, .stored frame permit marks)

/-- What keeps the frames right: one turn of a session at a time is yet to store its frame. -/
structure FramesKept (s : Threads ι TurnState TurnPhase) : Prop where
  alone : ∀ i j, ∀ p ∈ s.threads i, ∀ q ∈ s.threads j, p.2.critical → q.2.critical →
    p.1.session = q.1.session → i = j
  last : ∀ i, ∀ p ∈ s.threads i, p.2.isTask → p.2.critical →
    lastOf s.shared.accepted p.1.session = some p.1
  refused : ∀ i turn, s.threads i = some (turn, .refused) →
    lastOf s.shared.accepted turn.session = none
  latest : ∀ session turn, lastOf s.shared.accepted session = some turn →
    (∀ i, ∀ p ∈ s.threads i, p.1.session = session → p.2.critical = false) →
    ∃ frame, (s.shared.sessions session).latest_terminal_frame = some frame ∧ FrameOf s turn frame

/-- What a step does to frames and accepted turns. -/
inductive FrameEffect (config : GatewayConfig) (act : TurnAction) (g : TurnState)
    (phase : TurnPhase) (g' : TurnState) (phase' : TurnPhase) : Prop
  /-- At most the frame of a session is cleared whose turn is yet to store its own. -/
  | keep (haccepted : g'.accepted = g.accepted) (hpublished : g'.published = g.published)
    (hlatest : ∀ k, (g'.sessions k).latest_terminal_frame = (g.sessions k).latest_terminal_frame ∨
      ∃ p ∈ phase', p.1.session = k ∧ p.2.critical)
    (hback : ∀ p ∈ phase', ∃ q ∈ phase, p.1 = q.1 ∧ p.2.isTask = q.2.isTask ∧
      p.2.critical = q.2.critical)
    (hforth : ∀ q ∈ phase, q.2.critical → ∃ p ∈ phase', p.1 = q.1 ∧ p.2.critical)
    (hrefused : ∀ turn, phase' = some (turn, .refused) → phase = some (turn, .refused) ∨
      (phase = some (turn, .cleared) ∧ act.ofTask = true ∧ config.maxQueuedTurns ≤ g.queued_turns))
    (hstored : ∀ turn frame permit marks, phase = some (turn, .stored frame permit marks) →
      phase' = phase)
  | start (turn : Turn) (hphase : phase = none) (hphase' : phase' = some (turn, .started))
    (hsubmit : act.submitsTo = some turn.session)
    (hfree : (g.sessions turn.session).active_turn = none)
    (haccepted : g'.accepted = g.accepted) (hpublished : g'.published = g.published)
    (hlatest : ∀ k, (g'.sessions k).latest_terminal_frame = (g.sessions k).latest_terminal_frame)
  | accept (turn : Turn) (current : ℕ) (hphase : phase = some (turn, .loaded current))
    (hphase' : phase' = some (turn, .waiting)) (haccepted : g'.accepted = g.accepted ++ [turn])
    (hpublished : g'.published = g.published) (hsessions : g'.sessions = g.sessions)
  | refuse (turn : Turn) (hphase : phase = some (turn, .refused)) (hphase' : phase' = none)
    (haccepted : g'.accepted = g.accepted) (hpublished : g'.published = g.published)
    (hlatest : ∀ k, (g'.sessions k).latest_terminal_frame = (g.sessions k).latest_terminal_frame)
  | store (turn : Turn) (frame : TerminalFrame) (permit marks : Bool)
    (hphase : phase = some (turn, .slotCleared frame permit marks))
    (hphase' : phase' = some (turn, .stored frame permit marks))
    (haccepted : g'.accepted = g.accepted) (hpublished : g'.published = g.published)
    (hlatest : ∀ k, (g'.sessions k).latest_terminal_frame =
      if k = turn.session then some frame else (g.sessions k).latest_terminal_frame)
  | publish (turn : Turn) (frame : TerminalFrame) (permit marks : Bool)
    (hphase : phase = some (turn, .stored frame permit marks))
    (hphase' : phase' = some (turn, .published permit marks))
    (haccepted : g'.accepted = g.accepted)
    (hpublished : g'.published = g.published ++ [(turn, frame)])
    (hsessions : g'.sessions = g.sessions)

/-- A turn moves on, and is yet to store its frame before and after. -/
theorem FrameEffect.move {config : GatewayConfig} {stage stage' : TurnStage}
    (haccepted : g'.accepted = g.accepted) (hpublished : g'.published = g.published)
    (hlatest : ∀ k, k ≠ turn.session →
      (g'.sessions k).latest_terminal_frame = (g.sessions k).latest_terminal_frame)
    (hcritical : stage.critical = true ∧ stage'.critical = true)
    (htask : stage'.isTask = stage.isTask)
    (hrefused : stage' = .refused → stage = .cleared ∧ act.ofTask = true ∧
      config.maxQueuedTurns ≤ g.queued_turns) :
    FrameEffect config act g (some (turn, stage)) g' (some (turn, stage')) := by
  refine .keep haccepted hpublished (fun k => ?_) ?_ ?_ ?_ ?_
  · by_cases hk : k = turn.session
    · exact Or.inr ⟨_, rfl, hk.symm, hcritical.2⟩
    · exact Or.inl (hlatest k hk)
  · intro p hp
    cases hp
    exact ⟨_, rfl, rfl, htask, hcritical.2.trans hcritical.1.symm⟩
  · intro q hq _
    cases hq
    exact ⟨_, rfl, rfl, hcritical.2⟩
  · intro turn' heq
    cases heq
    obtain ⟨rfl, hact, hfull⟩ := hrefused rfl
    exact Or.inr ⟨rfl, hact, hfull⟩
  · intro turn' frame permit marks heq
    cases heq
    cases hcritical.1

theorem frame_effect {config : GatewayConfig} {phase phase' : TurnPhase}
    (h : TurnEffect config g act phase g' phase') : FrameEffect config act g phase g' phase' := by
  cases h with
  | world _ hworld =>
    obtain ⟨-, -, -, haccepted, hpublished, hsessions⟩ := worldStep_same hworld
    exact .keep haccepted hpublished (fun k => Or.inl (hsessions k).2)
      (fun p hp => ⟨p, hp, rfl, rfl, rfl⟩) (fun q hq hcrit => ⟨q, hq, rfl, hcrit⟩)
      (fun turn hrefused => Or.inl hrefused) (fun _ _ _ _ _ => rfl)
  | rejected =>
    exact .keep rfl rfl (fun k => Or.inl rfl) (by simp) (by simp) (by simp) (by simp)
  | started turn hact hfree htoken =>
    refine .start turn rfl rfl ?_ hfree rfl rfl fun k => ?_
    · rw [hact]
      rfl
    · by_cases hk : k = turn.session
      · simp [TurnState.modifySession, hk]
      · simp [TurnState.modifySession, hk]
  | moved turn stage hact hmove =>
    cases hmove with
    | clearFrame | run | clearSlot =>
      refine .move rfl rfl (fun k hk => ?_) ⟨rfl, rfl⟩ rfl (by simp)
      show ((g.modifySession _ _).sessions k).latest_terminal_frame = _
      rw [sessions_modifySession, if_neg hk]
    | full hfull => exact .move rfl rfl (fun _ _ => rfl) ⟨rfl, rfl⟩ rfl fun _ => ⟨rfl, hact, hfull⟩
    | accept => exact .accept turn _ rfl rfl rfl rfl rfl
    | refuse =>
      refine .refuse turn rfl rfl rfl rfl fun k => ?_
      rw [sessions_modifySession]
      split_ifs <;> rfl
    | store frame permit marks =>
      refine .store turn frame permit marks rfl rfl rfl rfl fun k => ?_
      rw [sessions_modifySession]
      split_ifs <;> rfl
    | publish frame permit marks => exact .publish turn frame permit marks rfl rfl rfl rfl rfl
    | mark permit marks =>
      cases marks with
      | true =>
        refine .keep rfl rfl (fun k => Or.inl ?_) (by simp [TurnStage.isTask, TurnStage.critical])
          (by simp [TurnStage.critical]) (by simp) (by simp)
        show ((g.markActive turn.session).sessions k).latest_terminal_frame = _
        unfold TurnState.markActive
        rw [sessions_modifySession]
        split_ifs <;> rfl
      | false =>
        exact .keep rfl rfl (fun k => Or.inl rfl) (by simp [TurnStage.isTask, TurnStage.critical])
          (by simp [TurnStage.critical]) (by simp) (by simp)
    | done permit =>
      exact .keep rfl rfl (fun k => Or.inl rfl) (by simp) (by simp [TurnStage.critical]) (by simp)
        (by simp)
    | _ => exact .move rfl rfl (fun _ _ => rfl) ⟨rfl, rfl⟩ rfl (by simp)

section

variable {phase' : TurnPhase} (hthreads : t.threads = update s.threads i phase')
include hthreads

/-- The frame of a turn stays its frame. -/
theorem FrameOf.keep (h : FrameOf s turn frame)
    (hpublished : ∀ q ∈ s.shared.published, q ∈ t.shared.published)
    (hstored : ∀ turn frame permit marks, s.threads i = some (turn, .stored frame permit marks) →
      phase' = s.threads i ∨ (turn, frame) ∈ t.shared.published) : FrameOf t turn frame := by
  obtain hmem | ⟨j, permit, marks, hj⟩ := h
  · exact Or.inl (hpublished _ hmem)
  · by_cases hji : j = i
    · subst hji
      obtain hsame | hmem := hstored turn frame permit marks hj
      · exact Or.inr ⟨j, permit, marks, by rw [hthreads, update_self, hsame, hj]⟩
      · exact Or.inl hmem
    · exact Or.inr ⟨j, permit, marks, by rw [hthreads, update_of_ne hji, hj]⟩

/-- A turn that was yet to store its frame in another thread still is. -/
theorem critical_update
    (hnone : ∀ j, ∀ p ∈ t.threads j, p.1.session = session → p.2.critical = false)
    (hi : ∀ q ∈ s.threads i, q.1.session = session → q.2.critical = false) :
    ∀ j, ∀ p ∈ s.threads j, p.1.session = session → p.2.critical = false := by
  intro j p hp
  by_cases hji : j = i
  · subst hji
    exact hi p hp
  · exact hnone j p (by rw [hthreads, update_of_ne hji]; exact hp)

/-- Turns that are yet to store their frames were so before, if the one that stepped was. -/
theorem FramesKept.alone_of_back (h : FramesKept s)
    (hback : ∀ p ∈ phase', p.2.critical → ∃ q ∈ s.threads i, p.1 = q.1 ∧ q.2.critical) :
    ∀ j k, ∀ p ∈ t.threads j, ∀ q ∈ t.threads k, p.2.critical → q.2.critical →
      p.1.session = q.1.session → j = k := by
  have hold : ∀ j, ∀ p ∈ t.threads j, p.2.critical →
      ∃ q ∈ s.threads j, p.1 = q.1 ∧ q.2.critical := by
    intro j p hp hcrit
    obtain ⟨rfl, hp⟩ | ⟨-, hp⟩ := mem_threads_update hthreads hp
    · exact hback p hp hcrit
    · exact ⟨p, hp, rfl, hcrit⟩
  intro j k p hp q hq hpcrit hqcrit hsession
  obtain ⟨p', hp', hpturn, hpcrit'⟩ := hold j p hp hpcrit
  obtain ⟨q', hq', hqturn, hqcrit'⟩ := hold k q hq hqcrit
  rw [hpturn, hqturn] at hsession
  exact h.alone j k p' hp' q' hq' hpcrit' hqcrit' hsession

/-- A session keeps the frame of its last turn when the step is not about that frame. -/
theorem FramesKept.latest_of (h : FramesKept s)
    (hlast : lastOf s.shared.accepted session = some turn)
    (hnone : ∀ j, ∀ p ∈ t.threads j, p.1.session = session → p.2.critical = false)
    (hi : ∀ q ∈ s.threads i, q.1.session = session → q.2.critical = false)
    (hlatest : (t.shared.sessions session).latest_terminal_frame =
      (s.shared.sessions session).latest_terminal_frame)
    (hpublished : ∀ q ∈ s.shared.published, q ∈ t.shared.published)
    (hstored : ∀ turn frame permit marks, s.threads i = some (turn, .stored frame permit marks) →
      phase' = s.threads i ∨ (turn, frame) ∈ t.shared.published) :
    ∃ frame, (t.shared.sessions session).latest_terminal_frame = some frame ∧
      FrameOf t turn frame := by
  obtain ⟨frame, hframe, hof⟩ := h.latest session turn hlast (critical_update hthreads hnone hi)
  exact ⟨frame, hlatest.trans hframe, hof.keep hthreads hpublished hstored⟩

/-- A step after which its thread has no turn that is yet to store its frame: what is left to show
is that the sessions keep the right frames. -/
theorem FramesKept.of_quiet (h : FramesKept s) (haccepted : t.shared.accepted = s.shared.accepted)
    (hquiet : ∀ p ∈ phase', p.2.critical = false)
    (hlatest : ∀ session turn, lastOf s.shared.accepted session = some turn →
      (∀ j, ∀ p ∈ t.threads j, p.1.session = session → p.2.critical = false) →
      ∃ frame, (t.shared.sessions session).latest_terminal_frame = some frame ∧
        FrameOf t turn frame) : FramesKept t := by
  have hold : ∀ j, ∀ p ∈ t.threads j, p.2.critical → p ∈ s.threads j := by
    intro j p hp hcrit
    obtain ⟨-, hp⟩ | ⟨-, hp⟩ := mem_threads_update hthreads hp
    · rw [hquiet p hp] at hcrit
      cases hcrit
    · exact hp
  refine ⟨fun j k p hp q hq hpcrit hqcrit => ?_, fun j p hp htask hcrit => ?_, fun j turn hj => ?_,
    fun session turn hlast => hlatest session turn (haccepted ▸ hlast)⟩
  · exact h.alone j k p (hold j p hp hpcrit) q (hold k q hq hqcrit) hpcrit hqcrit
  · rw [haccepted]
    exact h.last j p (hold j p hp hcrit) htask hcrit
  · rw [haccepted]
    exact h.refused j turn (hold j _ hj rfl)

/-- A step that accepts no turn, and stores and publishes no frame. -/
theorem FramesKept.keep (h : FramesKept s) (haccepted : t.shared.accepted = s.shared.accepted)
    (hpublished : t.shared.published = s.shared.published)
    (hlatest : ∀ k, (t.shared.sessions k).latest_terminal_frame =
      (s.shared.sessions k).latest_terminal_frame ∨ ∃ p ∈ phase', p.1.session = k ∧ p.2.critical)
    (hback : ∀ p ∈ phase', ∃ q ∈ s.threads i, p.1 = q.1 ∧ p.2.isTask = q.2.isTask ∧
      p.2.critical = q.2.critical)
    (hforth : ∀ q ∈ s.threads i, q.2.critical → ∃ p ∈ phase', p.1 = q.1 ∧ p.2.critical)
    (hrefused : ∀ turn, phase' = some (turn, .refused) →
      lastOf s.shared.accepted turn.session = none)
    (hstored : ∀ turn frame permit marks, s.threads i = some (turn, .stored frame permit marks) →
      phase' = s.threads i) : FramesKept t := by
  have hself : t.threads i = phase' := by rw [hthreads, update_self]
  refine ⟨h.alone_of_back hthreads fun p hp hcrit => ?_, fun j p hp htask hcrit => ?_,
    fun j turn hj => ?_, fun session turn hlast hnone => ?_⟩
  · obtain ⟨q, hq, hturn, -, hsame⟩ := hback p hp
    exact ⟨q, hq, hturn, hsame ▸ hcrit⟩
  · rw [haccepted]
    obtain ⟨rfl, hp⟩ | ⟨-, hp⟩ := mem_threads_update hthreads hp
    · obtain ⟨q, hq, hturn, htask', hcrit'⟩ := hback p hp
      rw [hturn]
      exact h.last j q hq (htask' ▸ htask) (hcrit' ▸ hcrit)
    · exact h.last j p hp htask hcrit
  · rw [haccepted]
    obtain ⟨rfl, hp⟩ | ⟨-, hp⟩ := mem_threads_update hthreads hj
    · exact hrefused turn hp
    · exact h.refused j turn hp
  · rw [haccepted] at hlast
    -- the thread that stepped has no turn of this session that is yet to store its frame
    have hi : ∀ q ∈ s.threads i, q.1.session = session → q.2.critical = false := by
      intro q hq hsession
      by_contra hcrit
      obtain ⟨p, hp, hturn, hpcrit⟩ := hforth q hq (by simpa using hcrit)
      have hnot := hnone i p (by rw [hself]; exact hp) (by rw [hturn]; exact hsession)
      rw [hnot] at hpcrit
      cases hpcrit
    have hsame : (t.shared.sessions session).latest_terminal_frame =
        (s.shared.sessions session).latest_terminal_frame := by
      obtain hsame | ⟨p, hp, hsession, hcrit⟩ := hlatest session
      · exact hsame
      · have hnot := hnone i p (by rw [hself]; exact hp) hsession
        rw [hnot] at hcrit
        cases hcrit
    exact h.latest_of hthreads hlast hnone hi hsame (hpublished ▸ fun _ hq => hq)
      fun turn frame permit marks hphase => Or.inl (hstored turn frame permit marks hphase)

/-- A turn takes a slot that no other task has just cleared. -/
theorem FramesKept.start (h : FramesKept s) (hslots : SlotsOwned s) (hphase : s.threads i = none)
    (hphase' : phase' = some (turn, .started))
    (hfree : (s.shared.sessions turn.session).active_turn = none)
    (hcleared : ∀ j, ∀ p ∈ s.threads j, p.1.session = turn.session → p.2.isSlotCleared = false)
    (haccepted : t.shared.accepted = s.shared.accepted)
    (hpublished : t.shared.published = s.shared.published)
    (hlatest : ∀ k, (t.shared.sessions k).latest_terminal_frame =
      (s.shared.sessions k).latest_terminal_frame) : FramesKept t := by
  -- no other turn of the session is yet to store its frame
  have hothers := hslots.not_critical hfree hcleared
  have hold : ∀ j, ∀ p ∈ t.threads j, (j = i ∧ p = (turn, .started)) ∨ p ∈ s.threads j :=
    fun j p => mem_threads_start hthreads hphase'
  refine ⟨fun j k p hp q hq hpcrit hqcrit hsession => ?_, fun j p hp htask hcrit => ?_,
    fun j turn' hj => ?_, fun session turn' hlast hnone => ?_⟩
  · obtain ⟨rfl, rfl⟩ | hp := hold j p hp
    · obtain ⟨rfl, -⟩ | hq := hold k q hq
      · rfl
      · rw [hothers k q hq hsession.symm] at hqcrit
        cases hqcrit
    · obtain ⟨-, rfl⟩ | hq := hold k q hq
      · rw [hothers j p hp hsession] at hpcrit
        cases hpcrit
      · exact h.alone j k p hp q hq hpcrit hqcrit hsession
  · rw [haccepted]
    obtain ⟨-, rfl⟩ | hp := hold j p hp
    · cases htask
    · exact h.last j p hp htask hcrit
  · rw [haccepted]
    obtain ⟨-, heq⟩ | hp := hold j _ hj
    · cases heq
    · exact h.refused j turn' hp
  · rw [haccepted] at hlast
    have hi : ∀ q ∈ s.threads i, q.1.session = session → q.2.critical = false := by simp [hphase]
    exact h.latest_of hthreads hlast hnone hi (hlatest session) (hpublished ▸ fun _ hq => hq)
      (by simp [hphase])

/-- A turn is accepted, and is the last of its session. -/
theorem FramesKept.accept (h : FramesKept s) {current : ℕ}
    (hphase : s.threads i = some (turn, .loaded current)) (hphase' : phase' = some (turn, .waiting))
    (haccepted : t.shared.accepted = s.shared.accepted ++ [turn])
    (hpublished : t.shared.published = s.shared.published)
    (hsessions : t.shared.sessions = s.shared.sessions) : FramesKept t := by
  have hself : t.threads i = some (turn, .waiting) := by
    rw [hthreads, update_self, hphase']
  -- in other threads, only turns of other sessions are yet to store their frames
  have hother : ∀ j, ∀ p ∈ s.threads j, j ≠ i → p.2.critical → turn.session ≠ p.1.session := by
    intro j p hp hji hcrit hsession
    exact hji (h.alone j i p hp _ hphase hcrit rfl hsession.symm)
  refine ⟨h.alone_of_back hthreads fun p hp _ => ?_, fun j p hp htask hcrit => ?_,
    fun j turn' hj => ?_, fun session turn' hlast hnone => ?_⟩
  · rw [hphase'] at hp
    cases hp
    exact ⟨_, hphase, rfl, rfl⟩
  · rw [haccepted]
    obtain ⟨-, hp⟩ | ⟨hji, hp⟩ := mem_threads_update hthreads hp
    · rw [hphase'] at hp
      cases hp
      exact lastOf_append_self _ _
    · rw [lastOf_append_ne _ (hother j p hp hji hcrit)]
      exact h.last j p hp htask hcrit
  · rw [haccepted]
    obtain ⟨-, hp⟩ | ⟨hji, hp⟩ := mem_threads_update hthreads hj
    · rw [hphase'] at hp
      cases hp
    · rw [lastOf_append_ne _ (hother j _ hp hji rfl)]
      exact h.refused j turn' hp
  · have hne : turn.session ≠ session := by
      intro hsession
      have hnot := hnone i _ hself hsession
      cases hnot
    rw [haccepted, lastOf_append_ne _ hne] at hlast
    have hi : ∀ q ∈ s.threads i, q.1.session = session → q.2.critical = false := by
      intro q hq hsession
      rw [hphase] at hq
      cases hq
      exact absurd hsession hne
    exact h.latest_of hthreads hlast hnone hi (by rw [hsessions]) (hpublished ▸ fun _ hq => hq)
      (by simp [hphase])

/-- A submission that was refused gives up its slot. -/
theorem FramesKept.refuse (h : FramesKept s) (hphase : s.threads i = some (turn, .refused))
    (hphase' : phase' = none) (haccepted : t.shared.accepted = s.shared.accepted)
    (hpublished : t.shared.published = s.shared.published)
    (hlatest : ∀ k, (t.shared.sessions k).latest_terminal_frame =
      (s.shared.sessions k).latest_terminal_frame) : FramesKept t := by
  refine h.of_quiet hthreads haccepted (by simp [hphase']) fun session turn' hlast hnone => ?_
  have hi : ∀ q ∈ s.threads i, q.1.session = session → q.2.critical = false := by
    intro q hq hsession
    rw [hphase] at hq
    cases hq
    -- no turn of its session was accepted
    have hnever := h.refused i turn hphase
    rw [hsession, hlast] at hnever
    cases hnever
  exact h.latest_of hthreads hlast hnone hi (hlatest session) (hpublished ▸ fun _ hq => hq)
    (by simp [hphase])

/-- The last turn of a session stores its frame. -/
theorem FramesKept.store (h : FramesKept s) {permit marks : Bool}
    (hphase : s.threads i = some (turn, .slotCleared frame permit marks))
    (hphase' : phase' = some (turn, .stored frame permit marks))
    (haccepted : t.shared.accepted = s.shared.accepted)
    (hpublished : t.shared.published = s.shared.published)
    (hlatest : ∀ k, (t.shared.sessions k).latest_terminal_frame =
      if k = turn.session then some frame else (s.shared.sessions k).latest_terminal_frame) :
    FramesKept t := by
  have hself : t.threads i = some (turn, .stored frame permit marks) := by
    rw [hthreads, update_self, hphase']
  have hquiet : ∀ p ∈ phase', p.2.critical = false := by
    intro p hp
    rw [hphase'] at hp
    cases hp
    rfl
  refine h.of_quiet hthreads haccepted hquiet fun session turn' hlast hnone => ?_
  by_cases hsession : session = turn.session
  · -- no turn was accepted after this one, so its frame is the last
    subst hsession
    have hown := h.last i _ hphase rfl rfl
    obtain rfl := some.inj (hlast.symm.trans hown)
    rw [hlatest, if_pos rfl]
    exact ⟨frame, rfl, Or.inr ⟨i, permit, marks, hself⟩⟩
  · have hi : ∀ q ∈ s.threads i, q.1.session = session → q.2.critical = false := by
      intro q hq heq
      rw [hphase] at hq
      cases hq
      exact absurd heq.symm hsession
    exact h.latest_of hthreads hlast hnone hi (by rw [hlatest, if_neg hsession])
      (hpublished ▸ fun _ hq => hq) (by simp [hphase])

/-- A turn publishes its frame. -/
theorem FramesKept.publish (h : FramesKept s) {permit marks : Bool}
    (hphase : s.threads i = some (turn, .stored frame permit marks))
    (hphase' : phase' = some (turn, .published permit marks))
    (haccepted : t.shared.accepted = s.shared.accepted)
    (hpublished : t.shared.published = s.shared.published ++ [(turn, frame)])
    (hsessions : t.shared.sessions = s.shared.sessions) : FramesKept t := by
  have hquiet : ∀ p ∈ phase', p.2.critical = false := by
    intro p hp
    rw [hphase'] at hp
    cases hp
    rfl
  have hi : ∀ q ∈ s.threads i, q.2.critical = false := by
    intro q hq
    rw [hphase] at hq
    cases hq
    rfl
  refine h.of_quiet hthreads haccepted hquiet fun session turn' hlast hnone => ?_
  refine h.latest_of hthreads hlast hnone (fun q hq _ => hi q hq) (by rw [hsessions]) ?_ ?_
  · rw [hpublished]
    exact fun _ hq => mem_append_left _ hq
  · -- the frame that was stored is published now
    intro turn'' frame'' permit' marks' heq
    rw [hphase] at heq
    obtain ⟨rfl, hstage⟩ := Prod.mk.inj (some.inj heq)
    obtain ⟨rfl, -, -⟩ := TurnStage.stored.inj hstage
    rw [hpublished]
    exact Or.inr (mem_append_right _ (mem_singleton_self _))

end

/-- Every guarded step keeps the frames right. -/
theorem FramesKept.step (h : FramesKept s) (hslots : SlotsOwned s)
    (hguard : KeepsFrames config.toGatewayConfig s (i, act))
    (hst : (turnSystem ι config).step s (i, act) t) : FramesKept t := by
  obtain ⟨phase', hthreads, he⟩ := turnSystem_step hst
  cases frame_effect he with
  | keep haccepted hpublished hlatest hback hforth hrefused hstored =>
    refine h.keep hthreads haccepted hpublished hlatest hback hforth (fun turn hphase' => ?_)
      hstored
    obtain hphase | ⟨hphase, hact, hfull⟩ := hrefused turn hphase'
    · exact h.refused i turn hphase
    · exact hguard.2 hact _ hphase rfl hfull
  | start turn hphase hphase' hsubmit hfree haccepted hpublished hlatest =>
    exact h.start hthreads hslots hphase hphase' hfree (hguard.1 _ hsubmit hfree) haccepted
      hpublished hlatest
  | accept turn current hphase hphase' haccepted hpublished hsessions =>
    exact h.accept hthreads hphase hphase' haccepted hpublished hsessions
  | refuse turn hphase hphase' haccepted hpublished hlatest =>
    exact h.refuse hthreads hphase hphase' haccepted hpublished hlatest
  | store turn frame permit marks hphase hphase' haccepted hpublished hlatest =>
    exact h.store hthreads hphase hphase' haccepted hpublished hlatest
  | publish turn frame permit marks hphase hphase' haccepted hpublished hsessions =>
    exact h.publish hthreads hphase hphase' haccepted hpublished hsessions

theorem framesKept_init (h : (turnSystem ι config).init s) : FramesKept s := by
  obtain ⟨⟨sessions, now, hshared, -⟩, hidle⟩ := h
  have hnone : ∀ j p, p ∉ s.threads j := by
    intro j p hp
    rw [hidle j] at hp
    cases hp
  refine ⟨fun j k p hp => absurd hp (hnone j p), fun j p hp => absurd hp (hnone j p),
    fun j turn hj => absurd hj (hnone j _), fun session turn hlast => ?_⟩
  rw [hshared] at hlast
  cases hlast

/-- In every run in which no turn takes a slot between the last steps of another task, and none is
refused for a full queue after one was accepted, a session whose turns are over keeps the frame of
the last. -/
theorem latest_frame_kept
    (h : (turnSystem ι config).ReachWithin (KeepsFrames config.toGatewayConfig) s) :
    LatestKept s := by
  have hkept : FramesKept s := by
    induction h with
    | init hs => exact framesKept_init hs
    | step hs hguard hst ih => exact ih.step (slots_owned hs.reach) hguard hst
  have hslots := slots_owned h.reach
  intro session turn hlast hfree hover
  -- no turn of the session is yet to store its frame
  have hnone := hslots.not_critical hfree fun j p hp hsession =>
    TurnStage.isSlotCleared_of_isTask (hover j p hp hsession)
  obtain ⟨frame, hframe, hof⟩ := hkept.latest session turn hlast hnone
  refine ⟨frame, hframe, ?_⟩
  obtain hmem | ⟨j, permit, marks, hj⟩ := hof
  · exact hmem
  · -- the task of the last turn is over
    have hsession : turn.session = session := by
      have hmem := mem_of_getLast? hlast
      simpa using (mem_filter.mp hmem).2
    have hnot := hover j _ hj hsession
    cases hnot

end

instance {ι : Type} [Fintype ι] (config : GatewayConfig) (s : Threads ι TurnState TurnPhase)
    (l : ι × TurnAction) : Decidable (KeepsFrames config s l) :=
  inferInstanceAs (Decidable (_ ∧ _))

/-- The steps of a turn from its permit up to the clearing of its slot. -/
def runToSlot {ι : Type} (i : ι) (message : String) : List (ι × TurnAction) :=
  [(i, .grant), (i, .next), (i, .next), (i, .finish (.failed message)), (i, .next)]

/-- The steps of a turn that are left when it has cleared its slot. -/
def lastSteps {ι : Type} (i : ι) : List (ι × TurnAction) := List.replicate 4 (i, .next)

/-- Two turns of a session, the second after the first. -/
def oneThenOther : List (Fin 2 × TurnAction) :=
  submission 0 0 "t1" ++ runToSlot 0 "first" ++ lastSteps 0 ++
    submission 1 0 "t2" ++ runToSlot 1 "second" ++ lastSteps 1

/-- The session keeps the frame of the second turn. -/
theorem oneThenOther_kept :
    ∃ s, (turnSystem (Fin 2) oneAtATime).ReachWithin (KeepsFrames oneAtATime.toGatewayConfig) s ∧
      (s.shared.sessions 0).latest_terminal_frame = some ⟨"t2", "t2", .failed "second"⟩ ∧
      LatestKept s := by
  obtain ⟨s, hs, hlatest⟩ : ∃ s ∈ exec (KeepsFrames oneAtATime.toGatewayConfig)
      (threadStep (turnStep oneAtATime.toGatewayConfig)) (noTurns (Fin 2) oneAtATime) oneThenOther,
      (s.shared.sessions 0).latest_terminal_frame = some ⟨"t2", "t2", .failed "second"⟩ := by
    decide
  have hreach : (turnSystem (Fin 2) oneAtATime).ReachWithin
      (KeepsFrames oneAtATime.toGatewayConfig) s := reachWithin_exec (.init (init_noTurns _ _)) hs
  exact ⟨s, hreach, hlatest, latest_frame_kept hreach⟩

/-- Two turns may run at a time. -/
def twoAtATime : ValidGatewayConfig :=
  { oneAtATime with
    max_concurrent_turns_per_user := 2
    turns_pos := Nat.two_pos }

/-- The whole of the second turn happens after the first has cleared its slot and before it stores
its frame. -/
def otherBetween : List (Fin 2 × TurnAction) :=
  submission 0 0 "t1" ++ runToSlot 0 "first" ++
    submission 1 0 "t2" ++ runToSlot 1 "second" ++ lastSteps 1 ++ lastSteps 0

/-- Both turns are over, and the session keeps the frame of the first. -/
theorem frame_of_earlier_turn : ∃ s, (turnSystem (Fin 2) twoAtATime).Reach s ∧
    (s.shared.sessions 0).latest_terminal_frame = some ⟨"t1", "t1", .failed "first"⟩ ∧
    (lastOf s.shared.accepted 0).map Turn.turn_id = some "t2" ∧ ¬LatestKept s := by
  obtain ⟨s, hs, hlatest, hlast, hfree, hover, hpublished⟩ : ∃ s ∈ exec (fun _ _ => True)
      (threadStep (turnStep twoAtATime.toGatewayConfig)) (noTurns (Fin 2) twoAtATime) otherBetween,
      (s.shared.sessions 0).latest_terminal_frame = some ⟨"t1", "t1", .failed "first"⟩ ∧
        (lastOf s.shared.accepted 0).map Turn.turn_id = some "t2" ∧
        (s.shared.sessions 0).active_turn = none ∧ (∀ i, s.threads i = none) ∧
        ∀ q ∈ s.shared.published, q.2.turn_id = q.1.turn_id := by
    decide
  refine ⟨s, reachWithin_exec (.init (init_noTurns _ _)) hs, hlatest, hlast, fun hkept => ?_⟩
  obtain ⟨turn, hturn, hid⟩ := Option.map_eq_some_iff.mp hlast
  obtain ⟨frame, hframe, hmem⟩ := hkept 0 turn hturn hfree (by simp [hover])
  rw [hlatest] at hframe
  cases hframe
  have hsame : "t1" = turn.turn_id := hpublished _ hmem
  rw [hid] at hsame
  exact absurd hsame (by decide)

end Oxydra
