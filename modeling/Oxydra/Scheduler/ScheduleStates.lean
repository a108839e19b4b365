import Oxydra.Library.Effect
import Oxydra.Scheduler.ScheduleTools

/-!
# Active schedules and next runs

An active schedule is one that has a next run: the query for due schedules finds a schedule by both.
The writers compute the two by rules of their own. `active_iff_next_run` says that they agree in
every run in which no write makes a schedule active whose cadence fires no more, no edit that gives
no status overtakes a change of the status, and no execution reschedules a schedule that has been
paused since it was loaded.
-/

namespace Oxydra

open Except Option Lts Effect

variable {d : ScheduleDefinition} {next : SchedulerState × SchedulePhase}
  {schedule_id user_id : String}

variable {cal : Calendar} {settings : SchedulerSettings}

/-! ## What the writers compute -/

section

variable {α : Type} {tool : String}

@[simp] theorem failWith_eq_ok {x : Except SchedulerError α} {a : α} :
    failWith tool x = .ok a ↔ x = .ok a := by
  cases x with
  | ok b => simp [failWith]
  | error e => simp [failWith]

end

/-- The parts of a new schedule that its next firing depends on. -/
theorem newDefinition_spec {request : ScheduleCreateArgs} {validated computed now : UtcDateTime}
    (h : newDefinition cal settings user_id schedule_id request validated computed now = .ok d) :
    ∃ next_run, request.cadence settings = .ok d.cadence ∧
      nextRunForCadence cal d.cadence computed = .ok next_run ∧ d.schedule_id = schedule_id ∧
      d.status = .active ∧ d.next_run_at = next_run.map UtcDateTime.toRfc3339 := by
  unfold newDefinition at h
  obtain ⟨cadence, hcadence, h⟩ := except_bind_eq_ok.mp h
  obtain ⟨_, -, h⟩ := except_bind_eq_ok.mp h
  obtain ⟨next_run, hnext, h⟩ := except_bind_eq_ok.mp h
  obtain ⟨policy, -, h⟩ := except_bind_eq_ok.mp h
  cases h
  exact ⟨next_run, failWith_eq_ok.mp hcadence, failWith_eq_ok.mp hnext, rfl, rfl, rfl⟩

section

variable {request : ScheduleEditArgs} {existing : ScheduleDefinition} {patch : SchedulePatch}
  {validated computed now : UtcDateTime}

/-- The parts of an edit's patch that the next firing depends on. -/
theorem editPatch_spec
    (h : editPatch cal settings request existing validated computed now = .ok patch) :
    request.cadence settings existing = .ok patch.cadence ∧
      (request.status.mapM fun s => parseScheduleStatus s scheduleEditToolName) =
        .ok patch.status ∧
      patchedNextRun cal existing patch.cadence patch.status computed = .ok patch.next_run_at := by
  unfold editPatch at h
  obtain ⟨policy, -, h⟩ := except_bind_eq_ok.mp h
  obtain ⟨cadence, hcadence, h⟩ := except_bind_eq_ok.mp h
  obtain ⟨status, hstatus, h⟩ := except_bind_eq_ok.mp h
  obtain ⟨next_run, hnext, h⟩ := except_bind_eq_ok.mp h
  cases h
  refine ⟨?_, hstatus, hnext⟩
  -- the cadence is the requested one, which the validation lets through
  unfold newCadence at hcadence
  obtain ⟨asked, hasked, h⟩ := except_bind_eq_ok.mp hcadence
  cases asked with
  | none =>
    cases h
    exact hasked
  | some c =>
    obtain ⟨_, -, h⟩ := except_bind_eq_ok.mp h
    cases h
    exact hasked

/-- An edit sets the status that it is given, which is active or paused. -/
theorem parsedStatus_cases {status : Option ScheduleStatus}
    (h : (request.status.mapM fun s => parseScheduleStatus s scheduleEditToolName) = .ok status) :
    (request.status = none ∧ status = none) ∨
    (request.status = some "active" ∧ status = some .active) ∨
    (request.status = some "paused" ∧ status = some .paused) := by
  cases hasked : request.status with
  | none =>
    rw [hasked] at h
    exact .inl ⟨rfl, (ok.inj h).symm⟩
  | some s =>
    rw [hasked] at h
    obtain ⟨st, hst, h⟩ := except_bind_eq_ok.mp h
    cases h
    change parseScheduleStatus s scheduleEditToolName = .ok st at hst
    unfold parseScheduleStatus at hst
    split_ifs at hst with hactive hpaused
    · cases hst
      exact .inr (.inl ⟨congrArg some hactive, rfl⟩)
    · cases hst
      exact .inr (.inr ⟨congrArg some hpaused, rfl⟩)

/-- What an edit does to the next run: it clears it, computes it anew, or leaves it alone. -/
theorem patchedNextRun_cases {cadence : Option ScheduleCadence} {status : Option ScheduleStatus}
    {next : Option (Option String)}
    (h : patchedNextRun cal existing cadence status computed = .ok next) :
    (status.getD existing.status = .paused ∧ next = some none) ∨
    (status.getD existing.status = .active ∧ (cadence.isSome ∨ status.isSome) ∧
      ∃ run, nextRunForCadence cal (cadence.getD existing.cadence) computed = .ok run ∧
        next = some (run.map UtcDateTime.toRfc3339)) ∨
    (status.getD existing.status ≠ .paused ∧
      (status.getD existing.status = .active → cadence = none ∧ status = none) ∧
      next = none) := by
  unfold patchedNextRun at h
  cases hstatus : status.getD existing.status with
  | paused =>
    rw [hstatus] at h
    exact .inl ⟨rfl, (ok.inj h).symm⟩
  | active =>
    rw [hstatus] at h
    simp only at h
    split_ifs at h with hasked
    · obtain ⟨run, hrun, h⟩ := except_bind_eq_ok.mp h
      exact .inr (.inl ⟨rfl, hasked, run, failWith_eq_ok.mp hrun, (ok.inj h).symm⟩)
    · refine .inr (.inr ⟨nofun, fun _ => ?_, (ok.inj h).symm⟩)
      simpa using hasked
  | completed | disabled =>
    rw [hstatus] at h
    exact .inr (.inr ⟨nofun, nofun, (ok.inj h).symm⟩)

/-- All that an edit can do to the status and the next run of a schedule. -/
inductive PatchEffect (cal : Calendar) (request : ScheduleEditArgs) (existing : ScheduleDefinition)
    (computed : UtcDateTime) (patch : SchedulePatch) : Prop
  | staysPaused (hnone : request.status = none) (hst : patch.status = none)
    (hread : existing.status = .paused) (hnext : patch.next_run_at = some none)
  | pauses (hgiven : request.status = some "paused") (hst : patch.status = some .paused)
    (hnext : patch.next_run_at = some none)
  | recomputes (run : Option UtcDateTime) (hnone : request.status = none)
    (hst : patch.status = none) (hread : existing.status = .active)
    (hchanged : patch.cadence.isSome)
    (hrun : nextRunForCadence cal (patch.cadence.getD existing.cadence) computed = .ok run)
    (hnext : patch.next_run_at = some (run.map UtcDateTime.toRfc3339))
  | activates (run : Option UtcDateTime) (hgiven : request.status = some "active")
    (hst : patch.status = some .active)
    (hrun : nextRunForCadence cal (patch.cadence.getD existing.cadence) computed = .ok run)
    (hnext : patch.next_run_at = some (run.map UtcDateTime.toRfc3339))
  | leaves (hnone : request.status = none) (hst : patch.status = none)
    (hread : existing.status ≠ .paused)
    (hkeep : existing.status = .active → patch.cadence = none) (hnext : patch.next_run_at = none)

/-- The status that is given, and the next run that goes with it. -/
theorem editPatch_effect
    (h : editPatch cal settings request existing validated computed now = .ok patch) :
    PatchEffect cal request existing computed patch := by
  obtain ⟨-, hstatus, hnext⟩ := editPatch_spec h
  obtain ⟨hnone, hst⟩ | ⟨hgiven, hst⟩ | ⟨hgiven, hst⟩ := parsedStatus_cases hstatus
  all_goals
    rw [hst] at hnext
    obtain ⟨hpaused, hclear⟩ | ⟨hactive, hasked, run, hrun, hset⟩ | ⟨hpaused, hactive, hkeep⟩ :=
      patchedNextRun_cases hnext
  · exact .staysPaused hnone hst hpaused hclear
  · exact .recomputes run hnone hst hactive (by simpa using hasked) hrun hset
  · exact .leaves hnone hst hpaused (fun hact => (hactive hact).1) hkeep
  · cases hpaused
  · exact .activates run hgiven hst hrun hset
  · cases (hactive rfl).2
  · exact .pauses hgiven hst hclear
  · cases hactive
  · exact absurd rfl hpaused

end

/-- A run after which the executor gives its schedule no next run. -/
def EndsSchedule (cal : Calendar) (settings : SchedulerSettings) (schedule : ScheduleDefinition)
    (status : ScheduleRunStatus) (now : UtcDateTime) : Bool :=
  (schedule.cadence.isOneShot ∧ status = .success) ∨
    settings.auto_disable_after_failures ≤ schedule.failuresWith status ∨
    ¬(nextRunForCadence cal schedule.cadence now).toOption.join.isSome

/-- A reschedule sets a next run and no status, or ends the schedule. -/
theorem computeReschedule_cases (cal : Calendar) (settings : SchedulerSettings)
    (schedule : ScheduleDefinition) (status : ScheduleRunStatus) (now : UtcDateTime) :
    (¬EndsSchedule cal settings schedule status now ∧
      ∃ t, nextRunForCadence cal schedule.cadence now = .ok (some t) ∧
        computeReschedule cal settings schedule status now = (some t.toRfc3339, none)) ∨
    (EndsSchedule cal settings schedule status now ∧ ∃ ended, ended ≠ .active ∧ ended ≠ .paused ∧
      computeReschedule cal settings schedule status now = (none, some ended)) := by
  unfold computeReschedule EndsSchedule
  split_ifs with hshot hlimit
  · exact .inr ⟨by simp [hshot], .completed, nofun, nofun, rfl⟩
  · exact .inr ⟨by simp [hlimit], .disabled, nofun, nofun, rfl⟩
  · cases hnext : nextRunForCadence cal schedule.cadence now with
    | error e => exact .inr ⟨by simp [Except.toOption], .disabled, nofun, nofun, rfl⟩
    | ok next =>
      cases next with
      | none => exact .inr ⟨by simp [Except.toOption], .completed, nofun, nofun, rfl⟩
      | some t =>
        refine .inl ⟨?_, t, rfl, rfl⟩
        simpa [Except.toOption, hlimit] using hshot

/-- A law of all schedules is kept by a change of one of them, if that keeps it. -/
theorem modify_forall {P : ScheduleDefinition → Prop} {schedules : List ScheduleDefinition}
    {f : ScheduleDefinition → ScheduleDefinition} (hall : ∀ d ∈ schedules, P d)
    (hf : ∀ d ∈ schedules, d.schedule_id = schedule_id → P (f d)) :
    ∀ d ∈ SchedulerStore.modify schedules schedule_id f, P d := by
  intro d' hd'
  obtain ⟨d, hd, rfl⟩ := List.mem_map.mp hd'
  split_ifs with hid
  · exact hf d hd hid
  · exact hall d hd

/-! ## What a step can do -/

section

variable {g g' : SchedulerState} {phase phase' : SchedulePhase} {act : ScheduleAction}

/-- All that a call of the store can do to the schedules. -/
inductive ScheduleEffect (cal : Calendar) (settings : SchedulerSettings) (g : SchedulerState)
    (phase : SchedulePhase) (act : ScheduleAction) (g' : SchedulerState) : Prop
  | same (hschedules : g'.schedules = g.schedules) (hused : g'.used = g.used)
    (hintents : g'.intents = g.intents)
  | created (user_id schedule_id : String) (request : ScheduleCreateArgs)
    (validated computed now : UtcDateTime) (d : ScheduleDefinition)
    (hphase : phase = .creating user_id request)
    (hact : act = .createSchedule schedule_id validated computed now)
    (hfresh : schedule_id ∉ g.used)
    (hd : newDefinition cal settings user_id schedule_id request validated computed now = .ok d)
    (hg : g' = { g with schedules := g.schedules ++ [d], used := schedule_id :: g.used })
  | updated (request : ScheduleEditArgs) (existing : ScheduleDefinition)
    (validated computed now : UtcDateTime) (patch : SchedulePatch)
    (hphase : phase = .editing request existing)
    (hact : act = .updateSchedule validated computed now)
    (hpatch : editPatch cal settings request existing validated computed now = .ok patch)
    (hthere : g.schedules.any fun d => d.schedule_id = request.schedule_id)
    (hg : g' = { g with
      schedules := SchedulerStore.modify g.schedules request.schedule_id patch.apply
      intents := ((patch.intent existing computed).map fun intent =>
        (request.schedule_id, intent)).toList ++ g.intents })
  | deleted (schedule_id : String) (hphase : phase = .deleting schedule_id)
    (hthere : g.schedules.any fun d => d.schedule_id = schedule_id)
    (hg : g' = { g with
      schedules := SchedulerStore.deleteSchedule g.schedules schedule_id
      intents := (schedule_id, .deleted) :: g.intents })
  | recorded (schedule : ScheduleDefinition) (status : ScheduleRunStatus)
    (finished rescheduled now : UtcDateTime)
    (hphase : phase = .executing schedule)
    (hact : act = .recordRun status finished rescheduled now)
    (hg : g' = { g with
      schedules := SchedulerStore.modify g.schedules schedule.schedule_id fun d =>
        d.recordRun status finished.toRfc3339
          (computeReschedule cal settings schedule status rescheduled).1
          (computeReschedule cal settings schedule status rescheduled).2 now.toRfc3339
      running := g.running.erase schedule.schedule_id
      intents := ((g.intents.lookup schedule.schedule_id).map fun intent =>
        (schedule.schedule_id, intent.withRun schedule status rescheduled)).toList ++ g.intents })

theorem insertStep_effect {request : ScheduleCreateArgs} {validated computed now : UtcDateTime}
    (hfresh : schedule_id ∉ g.used)
    (h : insertStep cal settings g user_id request schedule_id validated computed now = .ok next) :
    ScheduleEffect cal settings g (.creating user_id request)
      (.createSchedule schedule_id validated computed now) next.1 := by
  unfold insertStep at h
  obtain ⟨d, hd, h⟩ := except_bind_eq_ok.mp h
  obtain ⟨schedules, hschedules, h⟩ := except_bind_eq_ok.mp h
  cases h
  have hcreated := failWith_eq_ok.mp hschedules
  unfold SchedulerStore.createSchedule at hcreated
  split_ifs at hcreated
  cases hcreated
  exact .created user_id schedule_id request validated computed now d rfl rfl hfresh hd rfl

theorem updateStep_effect {request : ScheduleEditArgs} {existing : ScheduleDefinition}
    {validated computed now : UtcDateTime}
    (h : updateStep cal settings g request existing validated computed now = .ok next) :
    ScheduleEffect cal settings g (.editing request existing)
      (.updateSchedule validated computed now) next.1 := by
  unfold updateStep at h
  obtain ⟨patch, hpatch, h⟩ := except_bind_eq_ok.mp h
  obtain ⟨schedules, hschedules, h⟩ := except_bind_eq_ok.mp h
  cases h
  have hupdated := failWith_eq_ok.mp hschedules
  unfold SchedulerStore.updateSchedule at hupdated
  split_ifs at hupdated with hthere
  cases hupdated
  exact .updated request existing validated computed now patch rfl rfl hpatch hthere rfl

theorem deleteStep_effect (h : deleteStep g schedule_id = .ok next) :
    ScheduleEffect cal settings g (.deleting schedule_id) .deleteSchedule next.1 := by
  unfold deleteStep at h
  split_ifs at h with hthere
  cases h
  exact .deleted schedule_id rfl hthere rfl

/-- A part of a tool that only reads. -/
theorem reads_effect {r : Except ToolError (SchedulerState × SchedulePhase)}
    (h : ∀ next, r = .ok next → next.1 = g) :
    ScheduleEffect cal settings g phase act (orIdle g r).1 := by
  have hsame : (orIdle g r).1 = g := by
    cases r with
    | ok next => exact h next rfl
    | error e => rfl
  rw [hsame]
  exact .same rfl rfl rfl

/-- A part of a tool that writes when it succeeds. -/
theorem writes_effect {r : Except ToolError (SchedulerState × SchedulePhase)}
    (h : ∀ next, r = .ok next → ScheduleEffect cal settings g phase act next.1) :
    ScheduleEffect cal settings g phase act (orIdle g r).1 := by
  cases r with
  | ok next => exact h next rfl
  | error e => exact .same rfl rfl rfl

/-- A call that makes two checks and goes on to the next one writes nothing. -/
theorem reads_of_checks {α β : Type} {first : Except ToolError α} {second : α → Except ToolError β}
    {phase : α → β → SchedulePhase} {next : SchedulerState × SchedulePhase}
    (h : (do
      let a ← first
      let b ← second a
      pure (g, phase a b)) = .ok next) : next.1 = g := by
  obtain ⟨_, -, h⟩ := except_bind_eq_ok.mp h
  obtain ⟨_, -, h⟩ := except_bind_eq_ok.mp h
  exact (congrArg Prod.fst (ok.inj h)).symm

/-- Every step is one of these. -/
theorem scheduleStep_effect (h : scheduleStep cal settings g phase act = some (g', phase')) :
    ScheduleEffect cal settings g phase act g' := by
  unfold scheduleStep at h
  split at h
  · obtain rfl := congrArg Prod.fst (some.inj h)
    exact reads_effect fun _ => reads_of_checks
  · split_ifs at h with hused
    obtain rfl := congrArg Prod.fst (some.inj h)
    exact writes_effect fun _ => insertStep_effect hused
  · obtain rfl := congrArg Prod.fst (some.inj h)
    exact reads_effect fun _ => reads_of_checks
  · obtain rfl := congrArg Prod.fst (some.inj h)
    exact writes_effect fun _ => updateStep_effect
  · obtain rfl := congrArg Prod.fst (some.inj h)
    exact reads_effect fun _ => reads_of_checks
  · obtain rfl := congrArg Prod.fst (some.inj h)
    exact writes_effect fun _ => deleteStep_effect
  · split at h
    · split_ifs at h
      cases h
      exact .same rfl rfl rfl
    · cases h
  · cases h
    exact .recorded _ _ _ _ _ rfl rfl rfl
  · cases h

end

/-! ## The law -/

/-- A schedule is active exactly when it has a next run. -/
def ScheduleDefinition.Coherent (d : ScheduleDefinition) : Prop :=
  d.status = .active ↔ d.next_run_at.isSome

/-- A cadence that fires no more after a time. -/
def Expired (cal : Calendar) (cadence : ScheduleCadence) (now : UtcDateTime) : Bool :=
  (nextRunForCadence cal cadence now).toOption = some none

/-- The status that an edit aims at. -/
def ScheduleEditArgs.effectiveStatus (request : ScheduleEditArgs) (existing : ScheduleDefinition) :
    ScheduleStatus :=
  if request.status = some "active" then .active
  else if request.status = some "paused" then .paused
  else existing.status

section

variable {ι : Type}

/-- A schedule is created, resumed, or given a cadence only if it fires again; an edit that gives no
status and decides over the next run finds the schedule active if it was so when it was read; and a
run that does not end its schedule finds it active. -/
def FiresAgain (cal : Calendar) (settings : SchedulerSettings)
    (s : Threads ι SchedulerState SchedulePhase) (l : ι × ScheduleAction) : Prop :=
  match s.threads l.1, l.2 with
  | .creating _ request, .createSchedule _ _ computed _ =>
    ∀ cadence ∈ (request.cadence settings).toOption, ¬Expired cal cadence computed
  | .editing request existing, .updateSchedule _ computed _ =>
    ∀ cadence ∈ (request.cadence settings existing).toOption,
      (request.effectiveStatus existing = .active → request.status.isSome ∨ cadence.isSome →
        ¬Expired cal (cadence.getD existing.cadence) computed) ∧
      (request.status = none →
        existing.status = .paused ∨ existing.status = .active ∧ cadence.isSome →
        ∀ d ∈ s.shared.schedules, d.schedule_id = request.schedule_id →
          (d.status = .active ↔ existing.status = .active))
  | .executing schedule, .recordRun status _ rescheduled _ =>
    EndsSchedule cal settings schedule status rescheduled ∨
      ∀ d ∈ s.shared.schedules, d.schedule_id = schedule.schedule_id → d.status = .active
  | _, _ => True

end

/-- A schedule that is created to fire again is coherent. -/
theorem newDefinition_coherent {request : ScheduleCreateArgs} {validated computed now : UtcDateTime}
    (h : newDefinition cal settings user_id schedule_id request validated computed now = .ok d)
    (hfires : ∀ cadence ∈ (request.cadence settings).toOption, ¬Expired cal cadence computed) :
    d.Coherent := by
  obtain ⟨next_run, hcadence, hnext, -, hstatus, hat⟩ := newDefinition_spec h
  have hfire := hfires d.cadence (by simp [hcadence, Except.toOption])
  cases next_run with
  | none => simp [Expired, hnext, Except.toOption] at hfire
  | some t => simp [ScheduleDefinition.Coherent, hstatus, hat]

/-- A run leaves its schedule coherent if it ends it, or finds it active. -/
theorem recordRun_coherent {schedule d : ScheduleDefinition} {status : ScheduleRunStatus}
    {rescheduled : UtcDateTime} {finished now : String}
    (hfires : EndsSchedule cal settings schedule status rescheduled ∨ d.status = .active) :
    (d.recordRun status finished (computeReschedule cal settings schedule status rescheduled).1
      (computeReschedule cal settings schedule status rescheduled).2 now).Coherent := by
  unfold ScheduleDefinition.Coherent ScheduleDefinition.recordRun
  obtain ⟨hends, t, -, hr⟩ | ⟨-, ended, hactive, -, hr⟩ :=
    computeReschedule_cases cal settings schedule status rescheduled
  · rw [hr]
    simpa using hfires.resolve_left hends
  · rw [hr]
    simpa using hactive

/-- An edit leaves a coherent schedule coherent if the cadence fires again where it decides over the
next run, and the schedule is active as it was when it was read where it gives no status. -/
theorem apply_coherent {request : ScheduleEditArgs} {existing d : ScheduleDefinition}
    {patch : SchedulePatch} {validated computed now : UtcDateTime}
    (h : editPatch cal settings request existing validated computed now = .ok patch)
    (hfires : request.effectiveStatus existing = .active →
      request.status.isSome ∨ patch.cadence.isSome →
      ¬Expired cal (patch.cadence.getD existing.cadence) computed)
    (hread : request.status = none →
      existing.status = .paused ∨ existing.status = .active ∧ patch.cadence.isSome →
      (d.status = .active ↔ existing.status = .active))
    (hd : d.Coherent) : (patch.apply d).Coherent := by
  unfold ScheduleDefinition.Coherent SchedulePatch.apply
  unfold ScheduleEditArgs.effectiveStatus at hfires
  have hsome : ∀ {run}, nextRunForCadence cal (patch.cadence.getD existing.cadence) computed =
      .ok run → ¬Expired cal (patch.cadence.getD existing.cadence) computed → run.isSome := by
    intro run hrun hnot
    cases run with
    | none => simp [Expired, hrun, Except.toOption] at hnot
    | some t => rfl
  cases editPatch_effect h with
  | staysPaused hnone hst hread' hnext =>
    have hnot : d.status ≠ .active := by
      intro hact
      rw [(hread hnone (.inl hread')).mp hact] at hread'
      cases hread'
    simp [hst, hnext, hnot]
  | pauses _ hst hnext => simp [hst, hnext]
  | recomputes run hnone hst hread' hchanged hrun hnext =>
    have hrow := (hread hnone (.inr ⟨hread', hchanged⟩)).mpr hread'
    have hfire := hsome hrun (hfires (by simpa [hnone] using hread') (.inr hchanged))
    simp [hst, hnext, hfire, hrow]
  | activates run hgiven hst hrun hnext =>
    have hfire := hsome hrun (hfires (by simp [hgiven]) (.inl (by simp [hgiven])))
    simp [hst, hnext, hfire]
  | leaves _ hst _ _ hnext =>
    simp only [hst, hnext, Option.getD_none]
    exact hd

section

variable {ι : Type} [DecidableEq ι]

/-- Every schedule is coherent. -/
def AllCoherent (s : Threads ι SchedulerState SchedulePhase) : Prop :=
  ∀ d ∈ s.shared.schedules, d.Coherent

/-- Every step whose writes fire again keeps the schedules coherent. -/
theorem allCoherent_step (s : Threads ι SchedulerState SchedulePhase) (l : ι × ScheduleAction)
    (t : Threads ι SchedulerState SchedulePhase) (hinv : AllCoherent s)
    (hguard : FiresAgain cal settings s l) (hst : (scheduleSystem cal settings).step s l t) :
    AllCoherent t := by
  obtain ⟨i, act⟩ := l
  obtain ⟨g, k, hstep, rfl⟩ := interleave_step hst
  unfold FiresAgain at hguard
  unfold AllCoherent
  dsimp only at hguard ⊢
  cases scheduleStep_effect hstep with
  | same hschedules =>
    rw [hschedules]
    exact hinv
  | created user_id schedule_id request validated computed now d hphase hact _ hd hg =>
    rw [hphase, hact] at hguard
    subst hg
    intro d' hd'
    obtain hold | hnew := List.mem_append.mp hd'
    · exact hinv d' hold
    · obtain rfl := List.mem_singleton.mp hnew
      exact newDefinition_coherent hd hguard
  | updated request existing validated computed now patch hphase hact hpatch _ hg =>
    rw [hphase, hact] at hguard
    subst hg
    obtain ⟨hfires, hread⟩ := hguard patch.cadence
      (by simp [(editPatch_spec hpatch).1, Except.toOption])
    refine modify_forall hinv fun d hd hid => ?_
    exact apply_coherent hpatch hfires (fun hnone hdecides => hread hnone hdecides d hd hid)
      (hinv d hd)
  | deleted schedule_id _ _ hg =>
    subst hg
    exact fun d hd => hinv d (List.mem_filter.mp hd).1
  | recorded schedule status finished rescheduled now hphase hact hg =>
    rw [hphase, hact] at hguard
    subst hg
    refine modify_forall hinv fun d hd hid => recordRun_coherent ?_
    exact hguard.imp_right fun hrow => hrow d hd hid

/-- In every run whose writes fire again, a schedule is active exactly when it has a next run. -/
theorem active_iff_next_run {s : Threads ι SchedulerState SchedulePhase}
    (h : (scheduleSystem cal settings).ReachWithin (FiresAgain cal settings) s) :
    ∀ d ∈ s.shared.schedules, d.status = .active ↔ d.next_run_at.isSome := by
  have hinit : ∀ s : Threads ι SchedulerState SchedulePhase, SchedulerInit s → AllCoherent s := by
    rintro s ⟨hempty, -⟩ d hd
    rw [hempty] at hd
    cases hd
  exact h.invariant hinit allCoherent_step

end

/-! ## Two runs -/

/-- A full hour of March 1, 2026. -/
def marchFirst (hour : Fin 24) : UtcDateTime where
  year := 2026
  ordinal := 60
  secs := 3600 * hour
  nanos := 0
  ordinal_pos := by decide
  ordinal_le := by decide
  secs_lt := by omega
  nanos_lt := .inl (by decide)

/-- A calendar that knows the ninth hour of that day, no cron expression, and sums within a day. -/
def oneDay : Calendar where
  parseFromRfc3339 s :=
    if s = "2026-03-01T09:00:00+00:00" then .ok (marchFirst 9)
    else .error "input contains invalid characters"
  isTimezone tz := tz = "Asia/Kolkata"
  cronError _ := some "Invalid expression: Invalid cron expression."
  cronAfter _ _ _ := none
  secondsBetween a b := (b.secs : ℤ) - a.secs
  addSeconds t n :=
    if h : t.secs + n < 86400 then
      { t with secs := t.secs + n, nanos := 0, secs_lt := h, nanos_lt := .inl (by decide) }
    else t

/-- No schedules, and nobody at work. -/
def emptyScheduler (ι : Type) : Threads ι SchedulerState SchedulePhase :=
  ⟨{}, fun _ => .idle⟩

/-- Alice creates the schedule `s1` at eight. -/
def createdAtEight (cadence_type cadence_value : String) : List (Fin 2 × ScheduleAction) :=
  [(0, .countSchedules (some "alice") { goal := "report", cadence_type, cadence_value }),
    (0, .createSchedule "s1" (marchFirst 8) (marchFirst 8) (marchFirst 8))]

/-- The schedule runs at an hour. -/
def runAt (hour : Fin 24) (status : ScheduleRunStatus) : List (Fin 2 × ScheduleAction) :=
  [(1, .dueSchedules "s1" (marchFirst hour)),
    (1, .recordRun status (marchFirst hour) (marchFirst hour) (marchFirst hour))]

/-- Alice edits the schedule at an hour. -/
def editedAt (hour : Fin 24) (request : ScheduleEditArgs) : List (Fin 2 × ScheduleAction) :=
  [(0, .getForEdit (some "alice") request),
    (0, .updateSchedule (marchFirst hour) (marchFirst hour) (marchFirst hour))]

instance {ι : Type} (cal : Calendar) (settings : SchedulerSettings)
    (s : Threads ι SchedulerState SchedulePhase) (l : ι × ScheduleAction) :
    Decidable (FiresAgain cal settings s l) := by
  unfold FiresAgain
  split <;> infer_instance

/-- A report every hour runs at nine, and is paused at ten and resumed at eleven. -/
def pausedAndResumed : List (Fin 2 × ScheduleAction) :=
  createdAtEight "interval" "3600" ++ runAt 9 .success ++
    editedAt 10 { schedule_id := "s1", status := some "paused" } ++
    editedAt 11 { schedule_id := "s1", status := some "active" }

/-- It is to run at noon, and the schedules are coherent. -/
theorem pausedAndResumed_active : ∃ s : Threads (Fin 2) SchedulerState SchedulePhase,
    (scheduleSystem oneDay {}).ReachWithin (FiresAgain oneDay {}) s ∧
    s.shared.schedules.map (fun d => (d.status, d.next_run_at)) =
      [(.active, some "2026-03-01T12:00:00+00:00")] ∧
    ∀ d ∈ s.shared.schedules, d.status = .active ↔ d.next_run_at.isSome := by
  obtain ⟨s, hs, hrow⟩ : ∃ s ∈ exec (FiresAgain oneDay {}) (threadStep (scheduleStep oneDay {}))
      (emptyScheduler (Fin 2)) pausedAndResumed,
      s.shared.schedules.map (fun d => (d.status, d.next_run_at)) =
        [(.active, some "2026-03-01T12:00:00+00:00")] := by
    decide
  have hreach : (scheduleSystem oneDay {}).ReachWithin (FiresAgain oneDay {}) s :=
    reachWithin_exec (.init ⟨rfl, fun _ => rfl⟩) hs
  exact ⟨s, hreach, hrow, active_iff_next_run hreach⟩

/-- A report at nine o'clock runs then, which completes its schedule, and is resumed at ten. -/
def resumedOneShot : List (Fin 2 × ScheduleAction) :=
  createdAtEight "once" "2026-03-01T09:00:00+00:00" ++ runAt 9 .success ++
    editedAt 10 { schedule_id := "s1", status := some "active" }

/-- It is active then, and has no next run. -/
theorem resumedOneShot_never_fires : ∃ s : Threads (Fin 2) SchedulerState SchedulePhase,
    (scheduleSystem oneDay {}).Reach s ∧
    ¬∀ d ∈ s.shared.schedules, d.status = .active ↔ d.next_run_at.isSome := by
  obtain ⟨s, hs, hrow⟩ : ∃ s ∈ exec (fun _ _ => True) (threadStep (scheduleStep oneDay {}))
      (emptyScheduler (Fin 2)) resumedOneShot,
      ¬∀ d ∈ s.shared.schedules, d.status = .active ↔ d.next_run_at.isSome := by
    decide
  exact ⟨s, reachWithin_exec (.init ⟨rfl, fun _ => rfl⟩) hs, hrow⟩

end Oxydra
