import Oxydra.Gateway.Turns

/-!
# The admission of turns

What every interleaving of the turns of a user keeps: the queue counter counts the turns that are in
`acquire_turn_permit`, each permit is either left in the semaphore or with one turn, and each
accepted turn publishes one terminal frame, which it has published once its task is past that point.
From every state the tasks can go on to their end (`tasks_can_end`), so every accepted turn can get
there.
-/

namespace Oxydra

open Option Function List Lts

variable {turn : Turn} {stage : TurnStage} {g g' : TurnState}

/-! ## Queue and permits -/

/-- A turn in `acquire_turn_permit`. -/
def TurnStage.queued : TurnStage → Bool
  | .waiting | .leaving _ => true
  | _ => false

/-- A turn that has a permit. -/
def TurnStage.hasPermit : TurnStage → Bool
  | .admitted | .running => true
  | .leaving permit | .ending _ permit _ | .slotCleared _ permit _ | .stored _ permit _
  | .published permit _ | .finishing permit => permit
  | _ => false

/-- Whether a submission is at a stage of a kind. -/
def TurnPhase.isAt (phase : TurnPhase) (p : TurnStage → Bool) : Bool :=
  phase.any fun q => p q.2

section

variable {ι : Type} [DecidableEq ι] [Fintype ι] {config : ValidGatewayConfig}
  {s t : Threads ι TurnState TurnPhase} {i : ι} {act : TurnAction}

/-- The queue counter and the semaphore count the turns that are where they should be. -/
structure TurnsCounted (config : GatewayConfig) (s : Threads ι TurnState TurnPhase) : Prop where
  queued_eq : s.shared.queued_turns = count (TurnPhase.isAt · TurnStage.queued) s.threads
  queued_le : s.shared.queued_turns ≤ config.maxQueuedTurns
  permits_eq : s.shared.permits + count (TurnPhase.isAt · TurnStage.hasPermit) s.threads =
    config.max_concurrent_turns_per_user
  loaded_lt : ∀ i turn current, s.threads i = some (turn, .loaded current) →
    current < config.maxQueuedTurns

/-- What a move does to the counters. -/
theorem counters_move {config : GatewayConfig} (hfits : config.maxQueuedTurns < U64.size)
    {phase' : TurnPhase} (h : TurnMove config g turn stage g' phase')
    (hqueued : stage.queued → 0 < g.queued_turns) (hle : g.queued_turns ≤ config.maxQueuedTurns)
    (hloaded : ∀ current, stage = .loaded current → current < config.maxQueuedTurns) :
    g'.queued_turns + stage.queued.toNat =
        g.queued_turns + (phase'.isAt TurnStage.queued).toNat ∧
      g'.queued_turns ≤ config.maxQueuedTurns ∧
      g'.permits + (phase'.isAt TurnStage.hasPermit).toNat =
        g.permits + stage.hasPermit.toNat := by
  cases h with
  | clearFrame | full | load | retry | refuse | giveUp | cancel | finish | clearSlot | store
  | publish =>
    exact ⟨rfl, hle, rfl⟩
  | accept =>
    -- what was loaded is still there, and was below the limit
    have hlt := hloaded _ rfl
    exact ⟨rfl, hlt, rfl⟩
  | grant hpermit =>
    refine ⟨rfl, hle, ?_⟩
    show g.permits - 1 + 1 = g.permits + 0
    omega
  | enter | drop =>
    -- the turn itself is counted, so the subtraction does not wrap
    have hpos := hqueued rfl
    have hsub : U64.wrappingSub g.queued_turns 1 = g.queued_turns - 1 :=
      U64.wrappingSub_of_le hpos (by omega)
    refine ⟨?_, ?_, rfl⟩
    · show U64.wrappingSub g.queued_turns 1 + 1 = g.queued_turns + 0
      omega
    · show U64.wrappingSub g.queued_turns 1 ≤ _
      omega
  | run => exact ⟨rfl, hle, rfl⟩
  | mark permit marks =>
    cases marks <;> exact ⟨rfl, hle, rfl⟩
  | done permit =>
    refine ⟨rfl, hle, ?_⟩
    cases permit <;> rfl

/-- What a step does to the counters. -/
theorem counters_step {config : GatewayConfig} (hfits : config.maxQueuedTurns < U64.size)
    {phase phase' : TurnPhase} (h : TurnEffect config g act phase g' phase')
    (hqueued : phase.isAt TurnStage.queued → 0 < g.queued_turns)
    (hle : g.queued_turns ≤ config.maxQueuedTurns)
    (hloaded : ∀ turn current, phase = some (turn, .loaded current) →
      current < config.maxQueuedTurns) :
    (g'.queued_turns + (phase.isAt TurnStage.queued).toNat =
        g.queued_turns + (phase'.isAt TurnStage.queued).toNat ∧
      g'.queued_turns ≤ config.maxQueuedTurns ∧
      g'.permits + (phase'.isAt TurnStage.hasPermit).toNat =
        g.permits + (phase.isAt TurnStage.hasPermit).toNat) ∧
      ∀ turn current, phase' = some (turn, .loaded current) → current < config.maxQueuedTurns := by
  cases h with
  | world _ hworld =>
    obtain ⟨hq, hp, -⟩ := worldStep_same hworld
    rw [hq, hp]
    exact ⟨⟨rfl, hle, rfl⟩, hloaded⟩
  | rejected => exact ⟨⟨rfl, hle, rfl⟩, hloaded⟩
  | started turn hact hfree htoken => exact ⟨⟨rfl, hle, rfl⟩, by simp⟩
  | moved turn stage hact hmove =>
    refine ⟨counters_move hfits hmove hqueued hle ?_, ?_⟩
    · intro current hcurrent
      exact hloaded turn current (congrArg (fun stage => some (turn, stage)) hcurrent)
    · intro turn' current heq
      cases hmove with
      | load hlt =>
        simp only [some.injEq, Prod.mk.injEq, TurnStage.loaded.injEq] at heq
        omega
      | _ => simp at heq

/-- Every step keeps the counters right. -/
theorem TurnsCounted.step (h : TurnsCounted config.toGatewayConfig s)
    (hst : (turnSystem ι config).step s (i, act) t) : TurnsCounted config.toGatewayConfig t := by
  obtain ⟨phase', hthreads, he⟩ := turnSystem_step hst
  have hpos : (s.threads i).isAt TurnStage.queued → 0 < s.shared.queued_turns := by
    intro hqueued
    rw [h.queued_eq]
    exact count_pos hqueued
  obtain ⟨⟨hqueued, hle, hpermits⟩, hloaded⟩ :=
    counters_step config.fits he hpos h.queued_le (h.loaded_lt i)
  have hcount := count_update (TurnPhase.isAt · TurnStage.queued) s.threads i phase'
  have hcount' := count_update (TurnPhase.isAt · TurnStage.hasPermit) s.threads i phase'
  rw [← hthreads] at hcount hcount'
  have hq := h.queued_eq
  have hp := h.permits_eq
  refine ⟨by omega, hle, by omega, fun j turn current hj => ?_⟩
  rw [hthreads] at hj
  by_cases hji : j = i
  · subst hji
    rw [update_self] at hj
    exact hloaded turn current hj
  · rw [update_of_ne hji] at hj
    exact h.loaded_lt j turn current hj

/-- The counters are right in every reachable state. -/
theorem turns_counted (h : (turnSystem ι config).Reach s) :
    TurnsCounted config.toGatewayConfig s := by
  apply h.invariant
  · rintro s ⟨⟨sessions, now, hshared, -⟩, hidle⟩
    have hnone : ∀ p, count (TurnPhase.isAt · p) s.threads = 0 := by
      intro p
      rw [count_eq_sum]
      exact Finset.sum_eq_zero fun j _ => by rw [hidle j]; rfl
    refine ⟨?_, ?_, ?_, fun j turn current hj => ?_⟩
    · rw [hnone, hshared]
    · rw [hshared]
      exact Nat.zero_le _
    · rw [hnone, hshared, Nat.add_zero]
    · rw [hidle j] at hj
      cases hj
  · intro s l t hs _ hst
    exact hs.step hst

end

/-! ## One terminal frame for each accepted turn -/

/-- A turn that was accepted. -/
def TurnStage.isTask : TurnStage → Bool
  | .started | .cleared | .loaded _ | .refused => false
  | _ => true

/-- A turn that was accepted and has not published its terminal frame. -/
def TurnStage.unpublished : TurnStage → Bool
  | .waiting | .leaving _ | .admitted | .running | .ending _ _ _ | .slotCleared _ _ _
  | .stored _ _ _ => true
  | _ => false

/-- The turn of a submission at a stage of a kind. -/
def TurnPhase.turnAt (phase : TurnPhase) (p : TurnStage → Bool) : Option Turn :=
  phase.bind fun q => if p q.2 then some q.1 else none

section

variable {ι : Type} [DecidableEq ι] {config : ValidGatewayConfig}
  {s t : Threads ι TurnState TurnPhase} {i : ι} {act : TurnAction}

/-- A task is yet to publish the terminal frame of its turn. -/
def Pending (s : Threads ι TurnState TurnPhase) (turn : Turn) : Prop :=
  ∃ i, (s.threads i).turnAt TurnStage.unpublished = some turn

/-- How often the terminal frame of a turn was published. -/
def TurnState.publications (g : TurnState) (turn : Turn) : ℕ :=
  (g.published.map Prod.fst).count turn

theorem publications_congr (h : g'.published = g.published) :
    g'.publications = g.publications := by
  unfold TurnState.publications
  rw [h]

/-- The tokens of all submissions differ, and the accepted turns are those that have a task. -/
structure TurnTokens (s : Threads ι TurnState TurnPhase) : Prop where
  token_lt : ∀ i, ∀ p ∈ s.threads i, p.1.token < s.shared.next_token
  distinct : ∀ i j, ∀ p ∈ s.threads i, ∀ q ∈ s.threads j, p.1.token = q.1.token → i = j
  accepted_lt : ∀ turn ∈ s.shared.accepted, turn.token < s.shared.next_token
  accepted_iff : ∀ i, ∀ p ∈ s.threads i, p.1 ∈ s.shared.accepted ↔ p.2.isTask

/-- Each accepted turn has published its terminal frame once, or its task is yet to do so. -/
structure PublishedOnce (s : Threads ι TurnState TurnPhase) : Prop where
  unaccepted : ∀ turn, turn ∉ s.shared.accepted → s.shared.publications turn = 0
  pending : ∀ turn, Pending s turn → s.shared.publications turn = 0
  ended : ∀ turn ∈ s.shared.accepted, ¬Pending s turn → s.shared.publications turn = 1

/-- What a step does to the record of turns: nothing, a turn takes a new token, a turn is accepted,
or a frame is published. -/
inductive RecordEffect (g : TurnState) (phase : TurnPhase) (g' : TurnState) (phase' : TurnPhase) :
    Prop
  | same (htoken : g'.next_token = g.next_token) (haccepted : g'.accepted = g.accepted)
    (hpublished : g'.published = g.published)
    (hback : ∀ p ∈ phase', ∃ q ∈ phase, p.1 = q.1 ∧ p.2.isTask = q.2.isTask)
    (hpending : phase'.turnAt TurnStage.unpublished = phase.turnAt TurnStage.unpublished)
  | start (turn : Turn) (hphase : phase = none) (hphase' : phase' = some (turn, .started))
    (hfresh : turn.token = g.next_token) (htoken : g'.next_token = g.next_token + 1)
    (haccepted : g'.accepted = g.accepted) (hpublished : g'.published = g.published)
  | accept (turn : Turn) (current : ℕ) (hphase : phase = some (turn, .loaded current))
    (hphase' : phase' = some (turn, .waiting)) (htoken : g'.next_token = g.next_token)
    (haccepted : g'.accepted = g.accepted ++ [turn]) (hpublished : g'.published = g.published)
  | publish (turn : Turn) (frame : TerminalFrame) (permit marks : Bool)
    (hphase : phase = some (turn, .stored frame permit marks))
    (hphase' : phase' = some (turn, .published permit marks))
    (htoken : g'.next_token = g.next_token) (haccepted : g'.accepted = g.accepted)
    (hpublished : g'.published = g.published ++ [(turn, frame)])

theorem record_effect {config : GatewayConfig} {phase phase' : TurnPhase}
    (h : TurnEffect config g act phase g' phase') : RecordEffect g phase g' phase' := by
  cases h with
  | world _ hworld =>
    obtain ⟨-, -, htoken, haccepted, hpublished, -⟩ := worldStep_same hworld
    exact .same htoken haccepted hpublished (fun p hp => ⟨p, hp, rfl, rfl⟩) rfl
  | rejected => exact .same rfl rfl rfl (by simp) rfl
  | started turn hact hfree htoken => exact .start turn rfl rfl htoken rfl rfl rfl
  | moved turn stage hact hmove =>
    cases hmove with
    | accept => exact .accept turn _ rfl rfl rfl rfl rfl
    | publish frame permit marks => exact .publish turn frame permit marks rfl rfl rfl rfl rfl
    | refuse | done => exact .same rfl rfl rfl (by simp) rfl
    | mark permit marks =>
      cases marks <;> exact .same rfl rfl rfl (by simp [TurnStage.isTask]) rfl
    | _ => exact .same rfl rfl rfl (by simp [TurnStage.isTask]) rfl

/-- A turn at a stage of a kind is the turn of its submission. -/
theorem mem_of_turnAt {phase : TurnPhase} {p : TurnStage → Bool} (h : phase.turnAt p = some turn) :
    ∃ stage, phase = some (turn, stage) ∧ p stage := by
  obtain ⟨⟨turn', stage⟩, hphase, hif⟩ := Option.bind_eq_some_iff.mp h
  split_ifs at hif with hp
  cases hif
  exact ⟨stage, hphase, hp⟩

section

variable {phase' : TurnPhase} (hthreads : t.threads = update s.threads i phase')
include hthreads

/-- What the threads have after one of them stepped. -/
theorem mem_threads_update {j : ι} {p : Turn × TurnStage} (hp : p ∈ t.threads j) :
    (j = i ∧ p ∈ phase') ∨ (j ≠ i ∧ p ∈ s.threads j) := by
  rw [hthreads] at hp
  by_cases hji : j = i
  · subst hji
    rw [update_self] at hp
    exact Or.inl ⟨rfl, hp⟩
  · rw [update_of_ne hji] at hp
    exact Or.inr ⟨hji, hp⟩

/-- What the threads have after one of them started a turn. -/
theorem mem_threads_start (hphase' : phase' = some (turn, .started)) {j : ι} {p : Turn × TurnStage}
    (hp : p ∈ t.threads j) :
    (j = i ∧ p = (turn, .started)) ∨ p ∈ s.threads j := by
  obtain ⟨rfl, hp⟩ | ⟨-, hp⟩ := mem_threads_update hthreads hp
  · rw [hphase'] at hp
    exact Or.inl ⟨rfl, (some.inj hp).symm⟩
  · exact Or.inr hp

/-- Which turns are pending after a step: the one of the thread that stepped, or others as
before. -/
theorem pending_update (turn : Turn) :
    Pending t turn ↔ phase'.turnAt TurnStage.unpublished = some turn ∨
      ∃ j, j ≠ i ∧ (s.threads j).turnAt TurnStage.unpublished = some turn := by
  unfold Pending
  rw [hthreads]
  constructor
  · rintro ⟨j, hj⟩
    by_cases hji : j = i
    · subst hji
      rw [update_self] at hj
      exact Or.inl hj
    · rw [update_of_ne hji] at hj
      exact Or.inr ⟨j, hji, hj⟩
  · rintro (hi | ⟨j, hji, hj⟩)
    · exact ⟨i, by rwa [update_self]⟩
    · exact ⟨j, by rwa [update_of_ne hji]⟩

/-- When no turn starts, the tokens stay below the next one and differ. -/
theorem TurnTokens.tokens_of_back (h : TurnTokens s)
    (htoken : t.shared.next_token = s.shared.next_token)
    (hback : ∀ p ∈ phase', ∃ q ∈ s.threads i, p.1 = q.1) :
    (∀ j, ∀ p ∈ t.threads j, p.1.token < t.shared.next_token) ∧
      ∀ j k, ∀ p ∈ t.threads j, ∀ q ∈ t.threads k, p.1.token = q.1.token → j = k := by
  have hold : ∀ j, ∀ p ∈ t.threads j, ∃ q ∈ s.threads j, p.1 = q.1 := by
    intro j p hp
    obtain ⟨rfl, hp⟩ | ⟨-, hp⟩ := mem_threads_update hthreads hp
    · exact hback p hp
    · exact ⟨p, hp, rfl⟩
  constructor
  · intro j p hp
    obtain ⟨q, hq, hturn⟩ := hold j p hp
    rw [hturn, htoken]
    exact h.token_lt j q hq
  · intro j k p hp q hq heq
    obtain ⟨p', hp', hturn⟩ := hold j p hp
    obtain ⟨q', hq', hturn'⟩ := hold k q hq
    rw [hturn, hturn'] at heq
    exact h.distinct j k p' hp' q' hq' heq

/-- A step that starts and accepts no turn keeps the tokens in order. -/
theorem TurnTokens.keep (h : TurnTokens s) (htoken : t.shared.next_token = s.shared.next_token)
    (haccepted : t.shared.accepted = s.shared.accepted)
    (hback : ∀ p ∈ phase', ∃ q ∈ s.threads i, p.1 = q.1 ∧ p.2.isTask = q.2.isTask) :
    TurnTokens t := by
  obtain ⟨hlt, hdistinct⟩ := h.tokens_of_back hthreads htoken fun p hp =>
    (hback p hp).imp fun q hq => ⟨hq.1, hq.2.1⟩
  refine ⟨hlt, hdistinct, ?_, fun j p hp => ?_⟩
  · rw [haccepted, htoken]
    exact h.accepted_lt
  · rw [haccepted]
    obtain ⟨rfl, hp⟩ | ⟨-, hp⟩ := mem_threads_update hthreads hp
    · obtain ⟨q, hq, hturn, htask⟩ := hback p hp
      rw [hturn, htask]
      exact h.accepted_iff j q hq
    · exact h.accepted_iff j p hp

/-- A turn that starts takes a token that no other turn has. -/
theorem TurnTokens.start (h : TurnTokens s) (hphase' : phase' = some (turn, .started))
    (hfresh : turn.token = s.shared.next_token)
    (htoken : t.shared.next_token = s.shared.next_token + 1)
    (haccepted : t.shared.accepted = s.shared.accepted) : TurnTokens t := by
  have hold : ∀ j, ∀ p ∈ t.threads j, (j = i ∧ p = (turn, .started)) ∨ p ∈ s.threads j :=
    fun j p => mem_threads_start hthreads hphase'
  constructor
  · intro j p hp
    rw [htoken]
    obtain ⟨-, rfl⟩ | hp := hold j p hp
    · rw [hfresh]
      exact Nat.lt_succ_self _
    · exact Nat.lt_succ_of_lt (h.token_lt j p hp)
  · -- the new token is above all that were handed out
    intro j k p hp q hq heq
    obtain ⟨rfl, rfl⟩ | hp := hold j p hp
    · obtain ⟨rfl, -⟩ | hq := hold k q hq
      · rfl
      · have hlt := h.token_lt k q hq
        rw [← heq, hfresh] at hlt
        omega
    · have hlt := h.token_lt j p hp
      obtain ⟨-, rfl⟩ | hq := hold k q hq
      · rw [heq, hfresh] at hlt
        omega
      · exact h.distinct j k p hp q hq heq
  · intro turn' hturn'
    rw [haccepted] at hturn'
    rw [htoken]
    exact Nat.lt_succ_of_lt (h.accepted_lt turn' hturn')
  · intro j p hp
    rw [haccepted]
    obtain ⟨-, rfl⟩ | hp := hold j p hp
    · refine iff_of_false (fun hmem => ?_) (by simp [TurnStage.isTask])
      have hlt := h.accepted_lt turn hmem
      omega
    · exact h.accepted_iff j p hp

/-- A turn that is accepted joins the accepted turns. -/
theorem TurnTokens.accept (h : TurnTokens s) (hphase : s.threads i = some (turn, stage))
    (hphase' : phase' = some (turn, .waiting)) (htoken : t.shared.next_token = s.shared.next_token)
    (haccepted : t.shared.accepted = s.shared.accepted ++ [turn]) : TurnTokens t := by
  obtain ⟨hlt, hdistinct⟩ := h.tokens_of_back hthreads htoken fun p hp => by
    rw [hphase'] at hp
    cases hp
    exact ⟨_, hphase, rfl⟩
  refine ⟨hlt, hdistinct, fun turn' hturn' => ?_, fun j p hp => ?_⟩
  · rw [htoken]
    rw [haccepted] at hturn'
    obtain hturn' | hturn' := mem_append.mp hturn'
    · exact h.accepted_lt turn' hturn'
    · obtain rfl := mem_singleton.mp hturn'
      exact h.token_lt i _ hphase
  · rw [haccepted, mem_append, mem_singleton]
    obtain ⟨-, hp⟩ | ⟨hji, hp⟩ := mem_threads_update hthreads hp
    · rw [hphase'] at hp
      cases hp
      simp [TurnStage.isTask]
    · -- the turns of the other threads have other tokens
      have hne : p.1 ≠ turn := by
        intro heq
        exact hji (h.distinct j i p hp _ hphase (by rw [heq]))
      rw [or_iff_left hne]
      exact h.accepted_iff j p hp

/-- A step that accepts no turn and publishes no frame keeps what was published. -/
theorem PublishedOnce.keep (h : PublishedOnce s) (haccepted : t.shared.accepted = s.shared.accepted)
    (hpublished : t.shared.published = s.shared.published)
    (hpending : phase'.turnAt TurnStage.unpublished =
      (s.threads i).turnAt TurnStage.unpublished) : PublishedOnce t := by
  have hpend : ∀ turn, Pending t turn ↔ Pending s turn := by
    intro turn
    have hs := pending_update (update_eq_self i s.threads).symm turn
    rw [pending_update hthreads, hpending, hs]
  have hpubs := publications_congr hpublished
  constructor
  · rw [haccepted, hpubs]
    exact h.unaccepted
  · intro turn hturn
    rw [hpubs]
    exact h.pending turn ((hpend turn).mp hturn)
  · intro turn hturn hnot
    rw [haccepted] at hturn
    rw [hpubs]
    exact h.ended turn hturn fun hp => hnot ((hpend turn).mpr hp)

/-- A turn that is accepted is pending, and has published nothing. -/
theorem PublishedOnce.accept (h : PublishedOnce s) (htokens : TurnTokens s) {current : ℕ}
    (hphase : s.threads i = some (turn, .loaded current)) (hphase' : phase' = some (turn, .waiting))
    (haccepted : t.shared.accepted = s.shared.accepted ++ [turn])
    (hpublished : t.shared.published = s.shared.published) : PublishedOnce t := by
  -- before the exchange the turn had no task, so it was not accepted
  have hnew : turn ∉ s.shared.accepted := by
    rw [htokens.accepted_iff i _ hphase]
    simp [TurnStage.isTask]
  have hpend : ∀ turn', Pending t turn' ↔ turn' = turn ∨ Pending s turn' := by
    intro turn'
    have hs := pending_update (update_eq_self i s.threads).symm turn'
    rw [pending_update hthreads, hs, hphase, hphase']
    show some turn = some turn' ∨ _ ↔ turn' = turn ∨ none = some turn' ∨ _
    rw [some.injEq, eq_comm, or_iff_right (by simp : ¬none = some turn')]
  have hpubs := publications_congr hpublished
  constructor
  · intro turn' hturn'
    rw [haccepted, mem_append, not_or] at hturn'
    rw [hpubs]
    exact h.unaccepted turn' hturn'.1
  · intro turn' hturn'
    rw [hpubs]
    obtain rfl | hturn' := (hpend turn').mp hturn'
    · exact h.unaccepted turn' hnew
    · exact h.pending turn' hturn'
  · intro turn' hturn' hnot
    rw [hpend, not_or] at hnot
    rw [haccepted, mem_append, mem_singleton, or_iff_left hnot.1] at hturn'
    rw [hpubs]
    exact h.ended turn' hturn' hnot.2

/-- A turn that publishes its frame is no longer pending. -/
theorem PublishedOnce.publish (h : PublishedOnce s) (htokens : TurnTokens s) {frame : TerminalFrame}
    {permit marks : Bool} (hphase : s.threads i = some (turn, .stored frame permit marks))
    (hphase' : phase' = some (turn, .published permit marks))
    (haccepted : t.shared.accepted = s.shared.accepted)
    (hpublished : t.shared.published = s.shared.published ++ [(turn, frame)]) :
    PublishedOnce t := by
  have hturn : turn ∈ s.shared.accepted := by
    rw [htokens.accepted_iff i _ hphase]
    rfl
  have hwas : Pending s turn := ⟨i, by rw [hphase]; rfl⟩
  have hpubs : ∀ turn', t.shared.publications turn' =
      s.shared.publications turn' + if turn' = turn then 1 else 0 := by
    intro turn'
    unfold TurnState.publications
    rw [hpublished, map_append, count_append, map_singleton, count_singleton]
    simp only [beq_iff_eq, eq_comm (a := turn)]
  have hpend : ∀ turn', Pending t turn' ↔ turn' ≠ turn ∧ Pending s turn' := by
    intro turn'
    have hs := pending_update (update_eq_self i s.threads).symm turn'
    rw [pending_update hthreads, hs, hphase, hphase']
    constructor
    · rintro (hself | ⟨j, hji, hj⟩)
      · cases hself
      · -- no other thread has this turn
        obtain ⟨stage, hstage, -⟩ := mem_of_turnAt hj
        refine ⟨?_, Or.inr ⟨j, hji, hj⟩⟩
        rintro rfl
        exact hji (htokens.distinct j i _ hstage _ hphase rfl)
    · rintro ⟨hne, hself | hother⟩
      · exact absurd (some.inj hself).symm hne
      · exact Or.inr hother
  constructor
  · intro turn' hturn'
    rw [haccepted] at hturn'
    have hne : turn' ≠ turn := by
      rintro rfl
      exact hturn' hturn
    rw [hpubs, if_neg hne, h.unaccepted turn' hturn']
  · intro turn' hturn'
    obtain ⟨hne, hturn'⟩ := (hpend turn').mp hturn'
    rw [hpubs, if_neg hne, h.pending turn' hturn']
  · intro turn' hturn' hnot
    rw [haccepted] at hturn'
    rw [hpubs]
    by_cases heq : turn' = turn
    · subst heq
      rw [if_pos rfl, h.pending turn' hwas]
    · rw [if_neg heq]
      exact h.ended turn' hturn' fun hp => hnot ((hpend turn').mpr ⟨heq, hp⟩)

end

/-- Every step keeps the tokens in order, and each accepted turn publishes once. -/
theorem record_step (h : TurnTokens s ∧ PublishedOnce s)
    (hst : (turnSystem ι config).step s (i, act) t) : TurnTokens t ∧ PublishedOnce t := by
  obtain ⟨phase', hthreads, he⟩ := turnSystem_step hst
  cases record_effect he with
  | same htoken haccepted hpublished hback hpending =>
    exact ⟨h.1.keep hthreads htoken haccepted hback,
      h.2.keep hthreads haccepted hpublished hpending⟩
  | start turn hphase hphase' hfresh htoken haccepted hpublished =>
    refine ⟨h.1.start hthreads hphase' hfresh htoken haccepted,
      h.2.keep hthreads haccepted hpublished ?_⟩
    rw [hphase, hphase']
    rfl
  | accept turn current hphase hphase' htoken haccepted hpublished =>
    exact ⟨h.1.accept hthreads hphase hphase' htoken haccepted,
      h.2.accept hthreads h.1 hphase hphase' haccepted hpublished⟩
  | publish turn frame permit marks hphase hphase' htoken haccepted hpublished =>
    refine ⟨h.1.keep hthreads htoken haccepted fun p hp => ?_,
      h.2.publish hthreads h.1 hphase hphase' haccepted hpublished⟩
    rw [hphase'] at hp
    cases hp
    exact ⟨_, hphase, rfl, rfl⟩

/-- The record is right in every reachable state. -/
theorem turns_recorded (h : (turnSystem ι config).Reach s) : TurnTokens s ∧ PublishedOnce s := by
  apply h.invariant
  · rintro s ⟨⟨sessions, now, hshared, -⟩, hidle⟩
    have hnone : ∀ j p, p ∉ s.threads j := by
      intro j p hp
      rw [hidle j] at hp
      cases hp
    have hpubs : ∀ turn, s.shared.publications turn = 0 := by
      intro turn
      rw [TurnState.publications, hshared]
      rfl
    have haccepted : s.shared.accepted = [] := by rw [hshared]
    refine ⟨⟨fun j p hp => absurd hp (hnone j p), fun j k p hp => absurd hp (hnone j p), ?_,
      fun j p hp => absurd hp (hnone j p)⟩, fun turn _ => hpubs turn, fun turn _ => hpubs turn, ?_⟩
    · simp [haccepted]
    · simp [haccepted]
  · intro s l t hs _ hst
    exact record_step hs hst

end

/-! ## The tasks can go on -/

/-- How far a submission is from its end. A failed exchange goes back to a load, which is why a
stage that has loaded is further from the end than one that is about to. -/
def TurnStage.rank : TurnStage → ℕ
  | .started => 13
  | .loaded _ => 12
  | .cleared => 11
  | .waiting => 9
  | .leaving _ => 8
  | .admitted => 7
  | .running => 6
  | .ending _ _ _ => 5
  | .slotCleared _ _ _ => 4
  | .stored _ _ _ => 3
  | .published _ _ => 2
  | .finishing _ | .refused => 1

/-- The rank of a submission, if there is one. -/
def TurnPhase.rank (phase : TurnPhase) : ℕ := (phase.map fun p => p.2.rank).getD 0

section

variable {ι : Type} [DecidableEq ι] {config : ValidGatewayConfig}
  {s t : Threads ι TurnState TurnPhase} {i : ι}

/-- One step of one of the submissions or their tasks. -/
def TaskStep (config : ValidGatewayConfig) (s t : Threads ι TurnState TurnPhase) : Prop :=
  ∃ i act, act.ofTask = true ∧ (turnSystem ι config).step s (i, act) t

/-- Steps of submissions and tasks, one after the other. -/
abbrev TaskSteps (config : ValidGatewayConfig) :
    Threads ι TurnState TurnPhase → Threads ι TurnState TurnPhase → Prop :=
  Relation.ReflTransGen (TaskStep config)

theorem taskSteps_single (act : TurnAction) {phase' : TurnPhase} (hact : act.ofTask = true)
    (h : turnStep config.toGatewayConfig s.shared (s.threads i) act = some (g', phase')) :
    TaskSteps config s ⟨g', update s.threads i phase'⟩ :=
  Relation.ReflTransGen.single ⟨i, act, hact, interleave_of_step h⟩

/-- The next step of a submission that does not wait. -/
theorem taskSteps_next {phase' : TurnPhase} (hphase : s.threads i = some (turn, stage))
    (h : nextStep config.toGatewayConfig s.shared turn stage = some (g', phase')) :
    TaskSteps config s ⟨g', update s.threads i phase'⟩ := by
  apply taskSteps_single .next rfl
  rw [hphase]
  exact h

/-- A submission that does not wait for a permit can get closer to its end. -/
theorem submission_advances (hphase : s.threads i = some (turn, stage)) (hstage : stage ≠ .waiting)
    :
    ∃ g' phase', TaskSteps config s ⟨g', update s.threads i phase'⟩ ∧
      phase'.rank < stage.rank := by
  cases stage with
  | waiting => exact absurd rfl hstage
  | started | refused | ending _ _ _ | slotCleared _ _ _ | stored _ _ _ | published _ _
  | finishing _ =>
    refine ⟨_, _, taskSteps_next hphase rfl, ?_⟩
    simp [TurnPhase.rank, TurnStage.rank]
  | cleared =>
    by_cases hfull : config.toGatewayConfig.maxQueuedTurns ≤ s.shared.queued_turns
    · refine ⟨_, _, taskSteps_next hphase (if_pos hfull), ?_⟩
      simp [TurnPhase.rank, TurnStage.rank]
    · -- the load and the exchange, with nothing between them
      have hload := taskSteps_next hphase (if_neg hfull)
      have hexchange : TaskSteps config
          ⟨s.shared, update s.threads i (some (turn, .loaded s.shared.queued_turns))⟩ _ :=
        taskSteps_next (update_self _ _ _) (if_pos rfl)
      rw [update_idem] at hexchange
      refine ⟨_, _, hload.trans hexchange, ?_⟩
      simp [TurnPhase.rank, TurnStage.rank]
  | loaded current =>
    -- a failed exchange goes back to the load
    by_cases hsame : s.shared.queued_turns = current
    · refine ⟨_, _, taskSteps_next hphase (if_pos hsame), ?_⟩
      simp [TurnPhase.rank, TurnStage.rank]
    · refine ⟨_, _, taskSteps_next hphase (if_neg hsame), ?_⟩
      simp [TurnPhase.rank, TurnStage.rank]
  | leaving permit =>
    cases permit
    all_goals
      refine ⟨_, _, taskSteps_next hphase rfl, ?_⟩
      simp [TurnPhase.rank, TurnStage.rank]
  | admitted =>
    by_cases hcancelled : s.shared.cancelled turn.token = true
    · refine ⟨_, _, taskSteps_next hphase (if_pos hcancelled), ?_⟩
      simp [TurnPhase.rank, TurnStage.rank]
    · refine ⟨_, _, taskSteps_next hphase (if_neg hcancelled), ?_⟩
      simp [TurnPhase.rank, TurnStage.rank]
  | running =>
    -- any ending will do
    refine ⟨_, _, taskSteps_single (.finish .cancelled) rfl (by rw [hphase]; rfl), ?_⟩
    simp [TurnPhase.rank, TurnStage.rank]

/-- Task steps lead from reachable states to reachable states. -/
theorem TaskSteps.reach (h : TaskSteps config s t) (hs : (turnSystem ι config).Reach s) :
    (turnSystem ι config).Reach t := by
  induction h with
  | refl => exact hs
  | tail _ hstep ih =>
    obtain ⟨j, act, -, hst⟩ := hstep
    exact .step ih trivial hst

/-- What was accepted stays so. -/
theorem TaskSteps.accepted (h : TaskSteps config s t) (hturn : turn ∈ s.shared.accepted) :
    turn ∈ t.shared.accepted := by
  induction h with
  | refl => exact hturn
  | tail _ hstep ih =>
    obtain ⟨j, act, -, hst⟩ := hstep
    obtain ⟨phase', -, he⟩ := turnSystem_step hst
    cases record_effect he with
    | same htoken haccepted | start _ _ _ _ htoken haccepted
    | publish _ _ _ _ _ _ htoken haccepted =>
      rw [haccepted]
      exact ih
    | accept turn' current hphase hphase' htoken haccepted =>
      rw [haccepted]
      exact mem_append_left _ ih

variable [Fintype ι]

/-- As long as there are submissions, one of them can get closer to its end: if all wait for a
permit, the semaphore has one. -/
theorem tasks_advance (hs : (turnSystem ι config).Reach s) (hbusy : ∃ i, s.threads i ≠ none) :
    ∃ t, TaskSteps config s t ∧ ∑ j, (t.threads j).rank < ∑ j, (s.threads j).rank := by
  -- a step of one thread that lowers its rank lowers the total
  have hlower : ∀ {i : ι} {turn : Turn} {stage : TurnStage}, s.threads i = some (turn, stage) →
      (∃ g' phase', TaskSteps config s ⟨g', update s.threads i phase'⟩ ∧
        phase'.rank < stage.rank) →
      ∃ t, TaskSteps config s t ∧ ∑ j, (t.threads j).rank < ∑ j, (s.threads j).rank := by
    rintro i turn stage hphase ⟨g', phase', hsteps, hrank⟩
    refine ⟨_, hsteps, ?_⟩
    have hsum := sum_update TurnPhase.rank s.threads i phase'
    have hold : (s.threads i).rank = stage.rank := by
      rw [hphase]
      rfl
    simp only
    omega
  by_cases hmoves : ∃ i turn stage, s.threads i = some (turn, stage) ∧ stage ≠ .waiting
  · obtain ⟨i, turn, stage, hphase, hstage⟩ := hmoves
    exact hlower hphase (submission_advances hphase hstage)
  · obtain ⟨i, hi⟩ := hbusy
    obtain ⟨⟨turn, stage⟩, hphase⟩ := Option.ne_none_iff_exists'.mp hi
    have hwaiting : ∀ j turn' stage', s.threads j = some (turn', stage') → stage' = .waiting := by
      intro j turn' stage' hj
      by_contra hne
      exact hmoves ⟨j, turn', stage', hj, hne⟩
    obtain rfl := hwaiting i turn stage hphase
    -- nobody has a permit
    have hnone : count (TurnPhase.isAt · TurnStage.hasPermit) s.threads = 0 := by
      rw [count_eq_sum]
      refine Finset.sum_eq_zero fun j _ => ?_
      cases hj : s.threads j with
      | none => rfl
      | some p => rw [show p = (p.1, .waiting) from Prod.ext rfl (hwaiting j p.1 p.2 hj)]; rfl
    have hpermits := (turns_counted hs).permits_eq
    have hpos := config.turns_pos
    have hgrant : 0 < s.shared.permits := by omega
    have hstep : turnStep config.toGatewayConfig s.shared (s.threads i) .grant =
        some ({ s.shared with permits := s.shared.permits - 1 }, some (turn, .leaving true)) := by
      rw [hphase]
      exact if_pos hgrant
    refine hlower hphase ⟨_, _, taskSteps_single .grant rfl hstep, ?_⟩
    simp [TurnPhase.rank, TurnStage.rank]

/-- From every reachable state the submissions can all come to their end. -/
theorem tasks_can_end (hs : (turnSystem ι config).Reach s) :
    ∃ t, TaskSteps config s t ∧ ∀ i, t.threads i = none := by
  induction hn : ∑ j, (s.threads j).rank using Nat.strong_induction_on generalizing s with
  | _ n ih =>
    by_cases hbusy : ∃ i, s.threads i ≠ none
    · obtain ⟨mid, hsteps, hlt⟩ := tasks_advance hs hbusy
      obtain ⟨t, hrest, hidle⟩ := ih _ (hn ▸ hlt) (hsteps.reach hs) rfl
      exact ⟨t, hsteps.trans hrest, hidle⟩
    · push Not at hbusy
      exact ⟨s, .refl, hbusy⟩

/-- The accounts of the admission of turns. -/
structure AdmissionKept (config : ValidGatewayConfig) (s : Threads ι TurnState TurnPhase) :
    Prop where
  /-- The queue counter counts the turns in `acquire_turn_permit`. -/
  queued_eq : s.shared.queued_turns = count (TurnPhase.isAt · TurnStage.queued) s.threads
  /-- Whoever is about to lower the counter finds it above zero. -/
  no_underflow : ∀ i, (s.threads i).isAt TurnStage.queued → 0 < s.shared.queued_turns
  queued_le : s.shared.queued_turns ≤ config.toGatewayConfig.maxQueuedTurns
  running_le : count (TurnPhase.isAt · TurnStage.hasPermit) s.threads ≤
    config.max_concurrent_turns_per_user
  /-- A turn whose task is yet to publish its terminal frame has published none. -/
  pending : ∀ turn ∈ s.shared.accepted, Pending s turn → s.shared.publications turn = 0
  /-- Every other accepted turn has published one. -/
  ended : ∀ turn ∈ s.shared.accepted, ¬Pending s turn → s.shared.publications turn = 1
  /-- The tasks can go on until every accepted turn has published one. -/
  ends : ∃ t, TaskSteps config s t ∧ ∀ turn ∈ s.shared.accepted, t.shared.publications turn = 1

/-- For any interleaving of the turns of a user, the queue counter, the permits, and the published
terminal frames account for the accepted turns. -/
theorem admission_kept (hs : (turnSystem ι config).Reach s) : AdmissionKept config s := by
  have hcounted := turns_counted hs
  obtain ⟨-, hpublished⟩ := turns_recorded hs
  refine ⟨hcounted.queued_eq, fun i hi => ?_, hcounted.queued_le, ?_,
    fun turn _ => hpublished.pending turn, hpublished.ended, ?_⟩
  · rw [hcounted.queued_eq]
    exact count_pos hi
  · have := hcounted.permits_eq
    omega
  · obtain ⟨t, hsteps, hidle⟩ := tasks_can_end hs
    refine ⟨t, hsteps, fun turn hturn => ?_⟩
    apply (turns_recorded (hsteps.reach hs)).2.ended turn (hsteps.accepted hturn)
    rintro ⟨i, hi⟩
    rw [hidle i] at hi
    cases hi

end

/-- One turn may run at a time, and two may wait. -/
def oneAtATime : ValidGatewayConfig where
  max_sessions_per_user := 2
  max_concurrent_turns_per_user := 1
  session_idle_ttl := 3600
  sessions_pos := by decide
  turns_pos := by decide
  ttl_pos := by decide
  fits := by decide

/-- No turn was started yet, and the sessions were just made. -/
def noTurns (ι : Type) (config : ValidGatewayConfig) : Threads ι TurnState TurnPhase :=
  ⟨{ permits := config.max_concurrent_turns_per_user }, fun _ => none⟩

theorem init_noTurns (ι : Type) [DecidableEq ι] (config : ValidGatewayConfig) :
    (turnSystem ι config).init (noTurns ι config) :=
  ⟨⟨_, _, rfl, fun _ => ⟨rfl, rfl⟩⟩, fun _ => rfl⟩

/-- The steps of a submission until it waits for a permit. -/
def submission {ι : Type} (i : ι) (session : ℕ) (turn_id : String) : List (ι × TurnAction) :=
  (i, .submit session turn_id turn_id true) :: List.replicate 3 (i, .next)

/-- Two turns in two sessions, of which the first gets the permit and the second is cancelled while
it waits. -/
def twoTurns : List (Fin 2 × TurnAction) :=
  submission 0 0 "t1" ++ submission 1 1 "t2" ++
    [(0, .grant), (0, .next), (0, .next), (1, .cancel 1), (1, .giveUp), (1, .next), (1, .next),
      (1, .next), (1, .next)]

/-- The first turn runs, and the second has published its frame. -/
theorem twoTurns_kept : ∃ s, (turnSystem (Fin 2) oneAtATime).Reach s ∧
    s.shared.queued_turns = 0 ∧ s.shared.permits = 0 ∧ s.shared.accepted.length = 2 ∧
    s.shared.published.length = 1 ∧ AdmissionKept oneAtATime s := by
  obtain ⟨s, hs, hqueued, hpermits, haccepted, hpublished⟩ : ∃ s ∈ exec (fun _ _ => True)
      (threadStep (turnStep oneAtATime.toGatewayConfig)) (noTurns (Fin 2) oneAtATime) twoTurns,
      s.shared.queued_turns = 0 ∧ s.shared.permits = 0 ∧ s.shared.accepted.length = 2 ∧
        s.shared.published.length = 1 := by
    decide
  have hreach : (turnSystem (Fin 2) oneAtATime).Reach s :=
    reachWithin_exec (.init (init_noTurns _ _)) hs
  exact ⟨s, hreach, hqueued, hpermits, haccepted, hpublished, admission_kept hreach⟩

end Oxydra
