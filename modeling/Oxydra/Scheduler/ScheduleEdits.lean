import Oxydra.Scheduler.ScheduleStates

/-!
# Edits during a run

An execution writes what it computed from the schedule that it loaded, which an edit may have
changed while the turn ran. `edits_respected` says what the schedule is then: what the edit asked
for, and with a run that was recorded since, what that run makes of a schedule with the cadence of
the edit. It holds in every run in which each recorded run finds its schedule active and with the
cadence that was loaded, and each edit finds unchanged what it takes over from the schedule that it
read.
-/

namespace Oxydra

open Option List Lts

variable {schedule : ScheduleDefinition} {status : ScheduleRunStatus}

variable {cal : Calendar} {settings : SchedulerSettings}

/-! ## What it is to respect an edit -/

section

variable (cal : Calendar) (settings : SchedulerSettings)

/-- The status and the next run of a schedule that an edit makes active: the next run of the cadence
after the time of the edit or, after a run, what the executor computes with that cadence. -/
def ScheduleEdit.FiresBy (edit : ScheduleEdit)
    (d : ScheduleDefinition) : Prop :=
  match edit.ran with
  | none => d.status = .active ∧
    ∃ next ∈ (nextRunForCadence cal edit.cadence edit.computed).toOption,
      d.next_run_at = next.map UtcDateTime.toRfc3339
  | some (schedule, status, now) =>
    let r := computeReschedule cal settings { schedule with cadence := edit.cadence } status now
    d.next_run_at = r.1 ∧ d.status = r.2.getD .active

/-- The status and the next run that an edit asks for. A paused schedule has no next run, and one
that has ended stays so with another cadence. -/
def ScheduleEdit.RespectedBy (edit : ScheduleEdit)
    (d : ScheduleDefinition) : Prop :=
  match edit.status with
  | .paused => d.status = .paused ∧ d.next_run_at = none
  | .active => d.cadence = edit.cadence ∧ edit.FiresBy cal settings d
  | .completed | .disabled => d.status = edit.status

/-- What a schedule is after an edit or a deletion. -/
def ScheduleIntent.RespectedBy :
    ScheduleIntent → Option ScheduleDefinition → Prop
  | .edited edit, row => ∃ d ∈ row, edit.RespectedBy cal settings d
  | .deleted, row => row = none

end

section

variable {ι : Type}

/-- A recorded run finds its schedule active and with the cadence that was loaded, or disables it
for its failures; and an edit finds the status that it does not give, and the cadence that it
resumes the schedule with, as it read them. -/
def FreshWrites (settings : SchedulerSettings) (s : Threads ι SchedulerState SchedulePhase)
    (l : ι × ScheduleAction) : Prop :=
  match s.threads l.1, l.2 with
  | .editing request existing, .updateSchedule _ _ _ =>
    ∀ cadence ∈ (request.cadence settings existing).toOption,
      ∀ d ∈ s.shared.row request.schedule_id,
        (request.status = none → existing.status = .paused ∨ cadence.isSome →
          d.status = existing.status) ∧
        (request.status = some "active" → cadence = none → d.cadence = existing.cadence)
  | .executing schedule, .recordRun status _ _ _ =>
    ∀ d ∈ s.shared.row schedule.schedule_id, d.status = .active ∧
      (d.cadence = schedule.cadence ∨ status ≠ .success ∧
        settings.auto_disable_after_failures ≤ schedule.nextFailures)
  | _, _ => True

end

/-! ## The row after a write -/

section

variable {g : SchedulerState} {id schedule_id : String}

theorem row_isSome (h : g.schedules.any fun d => d.schedule_id = id) : ∃ d, g.row id = some d := by
  rw [← isSome_iff_exists]
  unfold SchedulerState.row
  rw [List.find?_isSome]
  exact any_eq_true.mp h

theorem find_append {schedules : List ScheduleDefinition} {d : ScheduleDefinition}
    (h : d.schedule_id ≠ id) :
    (schedules ++ [d]).find? (fun d => d.schedule_id = id) =
      schedules.find? fun d => d.schedule_id = id := by
  rw [List.find?_append, List.find?_singleton, if_neg (by simpa using h), or_none]

theorem find_delete (schedules : List ScheduleDefinition) :
    (SchedulerStore.deleteSchedule schedules schedule_id).find? (fun d => d.schedule_id = id) =
      if id = schedule_id then none else schedules.find? fun d => d.schedule_id = id := by
  unfold SchedulerStore.deleteSchedule
  rw [List.find?_filter]
  split_ifs with h
  · rw [List.find?_eq_none]
    intro d _
    simp [h]
  · refine congrArg (fun p => schedules.find? p) (funext fun d => ?_)
    by_cases hd : d.schedule_id = id
    · simp [hd, h]
    · simp [hd]

theorem find_modify {f : ScheduleDefinition → ScheduleDefinition}
    (hf : ∀ d, (f d).schedule_id = d.schedule_id) (schedules : List ScheduleDefinition) :
    (SchedulerStore.modify schedules schedule_id f).find? (fun d => d.schedule_id = id) =
      if id = schedule_id then (schedules.find? fun d => d.schedule_id = id).map f
      else schedules.find? fun d => d.schedule_id = id := by
  have hsame : (fun d : ScheduleDefinition => decide (d.schedule_id = id)) ∘
      (fun d => if d.schedule_id = schedule_id then f d else d) =
      fun d => decide (d.schedule_id = id) := by
    funext d
    by_cases h : d.schedule_id = schedule_id
    · simp [h, hf]
    · simp [h]
  unfold SchedulerStore.modify
  rw [List.find?_map, hsame]
  cases hrow : schedules.find? fun d => d.schedule_id = id with
  | none => simp
  | some d =>
    have hid : d.schedule_id = id := by simpa using List.find?_some hrow
    simp only [map_some, hid]
    split_ifs <;> rfl

end

/-! ## Edits that are respected -/

section

variable {request : ScheduleEditArgs} {existing d : ScheduleDefinition} {patch : SchedulePatch}
  {validated computed now : UtcDateTime} {edit : ScheduleEdit}

/-- An edit whose schedule is as it was read, where it takes something over, is respected. -/
theorem apply_respects_new {intent : ScheduleIntent}
    (h : editPatch cal settings request existing validated computed now = .ok patch)
    (hintent : patch.intent existing computed = some intent)
    (hread : request.status = none → existing.status = .paused ∨ patch.cadence.isSome →
      d.status = existing.status)
    (hcadence : request.status = some "active" → patch.cadence = none →
      d.cadence = existing.cadence) :
    intent.RespectedBy cal settings (some (patch.apply d)) := by
  unfold SchedulePatch.intent at hintent
  split_ifs at hintent with hasked
  cases hintent
  refine ⟨patch.apply d, rfl, ?_⟩
  unfold ScheduleEdit.RespectedBy ScheduleEdit.FiresBy SchedulePatch.apply
  cases editPatch_effect h with
  | staysPaused hnone hst hpaused hnext =>
    rw [hst, getD_none, getD_none, hpaused, hread hnone (.inl hpaused), hpaused]
    exact ⟨rfl, by simp [hnext]⟩
  | pauses _ hst hnext =>
    rw [hst, getD_some]
    exact ⟨rfl, by simp [hnext]⟩
  | recomputes run hnone hst hactive hchanged hrun hnext =>
    obtain ⟨c, hnew⟩ := isSome_iff_exists.mp hchanged
    rw [hst, getD_none, getD_none, hactive, hread hnone (.inr hchanged), hactive]
    refine ⟨?_, rfl, run, by simp [hrun, Except.toOption], by simp [hnext]⟩
    rw [hnew, getD_some, getD_some]
  | activates run hgiven hst hrun hnext =>
    rw [hst, getD_some]
    refine ⟨?_, rfl, run, by simp [hrun, Except.toOption], by simp [hnext]⟩
    cases hnew : patch.cadence with
    | some c => rfl
    | none => exact hcadence hgiven hnew
  | leaves hnone hst hpaused hkeep _ =>
    -- a schedule that has ended gets another cadence
    have hchanged : patch.cadence.isSome := by simpa [hst] using hasked
    have hrow := hread hnone (.inr hchanged)
    rw [hst, getD_none, getD_none]
    cases hended : existing.status with
    | active => simp [hkeep hended] at hchanged
    | paused => exact absurd hended hpaused
    | completed | disabled => rw [hrow, hended]

/-- A schedule that respects an edit and is paused is so at the wish of the edit. -/
theorem ScheduleEdit.RespectedBy.paused (h : edit.RespectedBy cal settings d)
    (hpaused : d.status = .paused) : edit.status = .paused := by
  unfold ScheduleEdit.RespectedBy at h
  split at h
  · assumption
  · obtain ⟨-, h⟩ := h
    unfold ScheduleEdit.FiresBy at h
    split at h
    · rw [hpaused] at h
      cases h.1
    · next schedule status now _ =>
      -- a run leaves the status alone, or ends the schedule
      obtain ⟨-, t, -, hr⟩ | ⟨-, ended, -, hnot, hr⟩ :=
        computeReschedule_cases cal settings { schedule with cadence := edit.cadence } status now
      · rw [hr, hpaused] at h
        cases h.2
      · rw [hr, hpaused] at h
        exact absurd h.2.symm hnot
  · next hstatus => rw [← h, hpaused]
  · next hstatus => rw [← h, hpaused]

/-- An edit of other columns respects the edits before it. -/
theorem apply_respects_old
    (h : editPatch cal settings request existing validated computed now = .ok patch)
    (hintent : patch.intent existing computed = none)
    (hread : request.status = none → existing.status = .paused ∨ patch.cadence.isSome →
      d.status = existing.status)
    (hd : edit.RespectedBy cal settings d) : edit.RespectedBy cal settings (patch.apply d) := by
  unfold SchedulePatch.intent at hintent
  split_ifs at hintent with hasked
  obtain ⟨hst, hcadence⟩ : patch.status = none ∧ patch.cadence = none := by simpa using hasked
  cases editPatch_effect h with
  | staysPaused hnone _ hpaused hnext =>
    have hrow := (hread hnone (.inl hpaused)).trans hpaused
    have hwish := hd.paused hrow
    unfold ScheduleEdit.RespectedBy SchedulePatch.apply
    rw [hwish]
    exact ⟨by simp [hst, hrow], by simp [hnext]⟩
  | pauses _ hst' _ | activates _ _ hst' _ _ =>
    rw [hst] at hst'
    cases hst'
  | recomputes _ _ _ _ hchanged _ _ =>
    rw [hcadence] at hchanged
    cases hchanged
  | leaves _ _ _ _ hnext =>
    unfold ScheduleEdit.RespectedBy ScheduleEdit.FiresBy SchedulePatch.apply at *
    simp only [hst, hcadence, hnext, getD_none]
    exact hd

/-- The failures count whatever the cadence is. -/
theorem computeReschedule_of_failures (hfailed : status ≠ .success)
    (hlimit : settings.auto_disable_after_failures ≤ schedule.nextFailures) :
    computeReschedule cal settings schedule status now = (none, some .disabled) := by
  unfold computeReschedule ScheduleDefinition.failuresWith
  rw [if_neg (fun h => hfailed h.2), if_neg hfailed, if_pos hlimit]

/-- A run that finds its schedule as it was loaded respects the edits before it. -/
theorem recordRun_respects {finished updated : String} (hd : edit.RespectedBy cal settings d)
    (hactive : d.status = .active)
    (hcadence : d.cadence = schedule.cadence ∨ status ≠ .success ∧
      settings.auto_disable_after_failures ≤ schedule.nextFailures) :
    ({ edit with ran := some (schedule, status, now) } : ScheduleEdit).RespectedBy cal settings
      (d.recordRun status finished (computeReschedule cal settings schedule status now).1
        (computeReschedule cal settings schedule status now).2 updated) := by
  unfold ScheduleEdit.RespectedBy at *
  unfold ScheduleDefinition.recordRun
  dsimp only
  split at hd
  · rw [hactive] at hd
    cases hd.1
  · obtain ⟨hkeep, -⟩ := hd
    refine ⟨hkeep, ?_⟩
    have hsame : computeReschedule cal settings { schedule with cadence := edit.cadence } status
        now = computeReschedule cal settings schedule status now := by
      obtain hcadence | ⟨hfailed, hlimit⟩ := hcadence
      · rw [← hkeep, hcadence]
      · rw [computeReschedule_of_failures hfailed hlimit]
        exact computeReschedule_of_failures hfailed hlimit
    unfold ScheduleEdit.FiresBy
    dsimp only
    rw [hsame, hactive]
    exact ⟨rfl, rfl⟩
  · next hended =>
    rw [hactive, hended] at hd
    cases hd
  · next hended =>
    rw [hactive, hended] at hd
    cases hd

end

/-! ## All interleavings -/

/-- What was last asked of a schedule, after one more entry. -/
theorem lookup_asked {id schedule_id : String} (asked : Option ScheduleIntent)
    (intents : List (String × ScheduleIntent)) :
    ((asked.map fun intent => (schedule_id, intent)).toList ++ intents).lookup id =
      if id = schedule_id then asked.or (intents.lookup id) else intents.lookup id := by
  cases asked with
  | none => simp
  | some intent =>
    by_cases h : id = schedule_id
    · simp [h]
    · simp [lookup_cons, h, beq_eq_false_iff_ne.mpr h]

section

variable {ι : Type} [DecidableEq ι]

/-- Every id that a schedule has, or that something was asked of, was given to a schedule; and what
was last asked of each schedule is respected. -/
structure EditsKept (cal : Calendar) (settings : SchedulerSettings) (g : SchedulerState) :
    Prop where
  used : ∀ d ∈ g.schedules, d.schedule_id ∈ g.used
  asked : ∀ id intent, g.intents.lookup id = some intent → id ∈ g.used
  kept : ∀ id intent, g.intents.lookup id = some intent →
    intent.RespectedBy cal settings (g.row id)

variable {g : SchedulerState}

theorem EditsKept.mem_used (hinv : EditsKept cal settings g) {schedule_id : String}
    (h : g.schedules.any fun d => d.schedule_id = schedule_id) : schedule_id ∈ g.used := by
  obtain ⟨d, hd, hid⟩ := any_eq_true.mp h
  rw [← of_decide_eq_true hid]
  exact hinv.used d hd

/-- A new schedule has an id of which nothing was asked yet. -/
theorem EditsKept.created (hinv : EditsKept cal settings g) {schedule_id : String}
    {d : ScheduleDefinition} (hid : d.schedule_id = schedule_id) (hfresh : schedule_id ∉ g.used) :
    EditsKept cal settings
      { g with schedules := g.schedules ++ [d], used := schedule_id :: g.used } where
  used d' hd' := by
    obtain hold | hnew := mem_append.mp hd'
    · exact mem_cons_of_mem _ (hinv.used d' hold)
    · rw [mem_singleton.mp hnew, hid]
      exact mem_cons_self
  asked id intent h := mem_cons_of_mem _ (hinv.asked id intent h)
  kept id intent h := by
    have hne : d.schedule_id ≠ id := by
      rw [hid]
      rintro rfl
      exact hfresh (hinv.asked _ intent h)
    have hrow := hinv.kept id intent h
    unfold SchedulerState.row at hrow ⊢
    rwa [find_append hne]

/-- A write to one schedule, with what was asked of it, leaves the others and what was asked of
them. -/
theorem EditsKept.write (hinv : EditsKept cal settings g) {schedule_id : String}
    {schedules : List ScheduleDefinition} {running : List String} (asked : Option ScheduleIntent)
    (hused : ∀ d ∈ schedules, d.schedule_id ∈ g.used)
    (hothers : ∀ id, id ≠ schedule_id →
      schedules.find? (fun d => d.schedule_id = id) = g.schedules.find? fun d => d.schedule_id = id)
    (hthere : asked.isSome → schedule_id ∈ g.used)
    (hkept : ∀ intent, asked.or (g.intents.lookup schedule_id) = some intent →
      intent.RespectedBy cal settings (schedules.find? fun d => d.schedule_id = schedule_id)) :
    EditsKept cal settings { g with
      schedules
      running
      intents := (asked.map fun intent => (schedule_id, intent)).toList ++ g.intents } where
  used := hused
  asked id intent h := by
    rw [lookup_asked] at h
    split_ifs at h with hid
    · rw [hid] at h ⊢
      cases asked with
      | some new => exact hthere rfl
      | none => exact hinv.asked schedule_id intent h
    · exact hinv.asked id intent h
  kept id intent h := by
    rw [lookup_asked] at h
    show intent.RespectedBy cal settings (schedules.find? fun d => d.schedule_id = id)
    split_ifs at h with hid
    · rw [hid] at h ⊢
      exact hkept intent h
    · rw [hothers id hid]
      exact hinv.kept id intent h

/-- An edit that finds what it takes over as it read it. -/
theorem EditsKept.updated (hinv : EditsKept cal settings g) {request : ScheduleEditArgs}
    {existing : ScheduleDefinition} {patch : SchedulePatch} {validated computed now : UtcDateTime}
    (hpatch : editPatch cal settings request existing validated computed now = .ok patch)
    (hthere : g.schedules.any fun d => d.schedule_id = request.schedule_id)
    (hfresh : ∀ d ∈ g.row request.schedule_id,
      (request.status = none → existing.status = .paused ∨ patch.cadence.isSome →
        d.status = existing.status) ∧
      (request.status = some "active" → patch.cadence = none → d.cadence = existing.cadence)) :
    EditsKept cal settings { g with
      schedules := SchedulerStore.modify g.schedules request.schedule_id patch.apply
      intents := ((patch.intent existing computed).map fun intent =>
        (request.schedule_id, intent)).toList ++ g.intents } := by
  have hrow : ∀ id, (SchedulerStore.modify g.schedules request.schedule_id patch.apply).find?
      (fun d => d.schedule_id = id) = if id = request.schedule_id then (g.row id).map patch.apply
        else g.row id := fun id => find_modify (f := patch.apply) (fun _ => rfl) g.schedules
  obtain ⟨d, hd⟩ := row_isSome hthere
  obtain ⟨hread, hcadence⟩ := hfresh d hd
  refine hinv.write _ (modify_forall hinv.used fun d hd _ => hinv.used d hd)
    (fun id hid => (hrow id).trans (if_neg hid)) (fun _ => hinv.mem_used hthere) fun intent h => ?_
  rw [hrow, if_pos rfl, hd, map_some]
  cases hintent : patch.intent existing computed with
  | some new =>
    rw [hintent] at h
    cases h
    exact apply_respects_new hpatch hintent hread hcadence
  | none =>
    rw [hintent, none_or] at h
    have hold := hinv.kept _ _ h
    rw [hd] at hold
    cases intent with
    | deleted => cases hold
    | edited edit =>
      obtain ⟨_, hsome, hold⟩ := hold
      cases hsome
      exact ⟨_, rfl, apply_respects_old hpatch hintent hread hold⟩

/-- A deletion. -/
theorem EditsKept.deleted (hinv : EditsKept cal settings g) {schedule_id : String}
    (hthere : g.schedules.any fun d => d.schedule_id = schedule_id) :
    EditsKept cal settings { g with
      schedules := SchedulerStore.deleteSchedule g.schedules schedule_id
      intents := (schedule_id, .deleted) :: g.intents } := by
  refine hinv.write (some .deleted)
    (fun d hd => hinv.used d (mem_filter.mp hd).1)
    (fun id hid => (find_delete g.schedules).trans (if_neg hid))
    (fun _ => hinv.mem_used hthere) fun intent h => ?_
  cases h
  exact (find_delete g.schedules).trans (if_pos rfl)

/-- A run that finds its schedule as it was loaded. -/
theorem EditsKept.recorded (hinv : EditsKept cal settings g) {finished updated : String}
    {rescheduled : UtcDateTime} {running : List String}
    (hfresh : ∀ d ∈ g.row schedule.schedule_id, d.status = .active ∧
      (d.cadence = schedule.cadence ∨ status ≠ .success ∧
        settings.auto_disable_after_failures ≤ schedule.nextFailures)) :
    EditsKept cal settings { g with
      schedules := SchedulerStore.modify g.schedules schedule.schedule_id fun d =>
        d.recordRun status finished (computeReschedule cal settings schedule status rescheduled).1
          (computeReschedule cal settings schedule status rescheduled).2 updated
      running
      intents := ((g.intents.lookup schedule.schedule_id).map fun intent =>
        (schedule.schedule_id, intent.withRun schedule status rescheduled)).toList ++
          g.intents } := by
  have hmap : (g.intents.lookup schedule.schedule_id).map (fun intent =>
      (schedule.schedule_id, intent.withRun schedule status rescheduled)) =
      ((g.intents.lookup schedule.schedule_id).map (ScheduleIntent.withRun schedule status
        rescheduled)).map fun intent => (schedule.schedule_id, intent) := by
    rw [Option.map_map]
    rfl
  rw [hmap]
  refine hinv.write _ (modify_forall hinv.used fun d hd _ => hinv.used d hd)
    (fun id hid => (find_modify (by intro d; rfl) g.schedules).trans (if_neg hid)) ?_ ?_
  · intro hasked
    cases hold : g.intents.lookup schedule.schedule_id with
    | none => simp [hold] at hasked
    | some old => exact hinv.asked _ old hold
  · intro intent h
    rw [find_modify (by intro d; rfl), if_pos rfl]
    cases hold : g.intents.lookup schedule.schedule_id with
    | none => simp [hold] at h
    | some old =>
      rw [hold] at h
      cases h
      have hrow := hinv.kept _ _ hold
      unfold SchedulerState.row at hrow
      cases old with
      | deleted =>
        rw [show _ = none from hrow]
        rfl
      | edited edit =>
        obtain ⟨d, hd, hrow⟩ := hrow
        obtain ⟨hactive, hcadence⟩ := hfresh d hd
        rw [hd]
        exact ⟨_, rfl, recordRun_respects hrow hactive hcadence⟩

/-- Every step whose writes are fresh keeps the edits. -/
theorem editsKept_step (s : Threads ι SchedulerState SchedulePhase) (l : ι × ScheduleAction)
    (t : Threads ι SchedulerState SchedulePhase) (hinv : EditsKept cal settings s.shared)
    (hguard : FreshWrites settings s l) (hst : (scheduleSystem cal settings).step s l t) :
    EditsKept cal settings t.shared := by
  obtain ⟨i, act⟩ := l
  obtain ⟨g, k, hstep, rfl⟩ := interleave_step hst
  unfold FreshWrites at hguard
  dsimp only at hguard ⊢
  cases scheduleStep_effect hstep with
  | same hschedules hused hintents =>
    have hrow : g.row = s.shared.row := by
      unfold SchedulerState.row
      rw [hschedules]
    exact ⟨by rw [hschedules, hused]; exact hinv.used, by rw [hintents, hused]; exact hinv.asked,
      by rw [hintents, hrow]; exact hinv.kept⟩
  | created user_id schedule_id request validated computed now d _ _ hfresh hd hg =>
    obtain ⟨_, -, -, hid, -⟩ := newDefinition_spec hd
    rw [hg]
    exact hinv.created hid hfresh
  | updated request existing validated computed now patch hphase hact hpatch hthere hg =>
    rw [hphase, hact] at hguard
    rw [hg]
    exact hinv.updated hpatch hthere
      (hguard patch.cadence (by simp [(editPatch_spec hpatch).1, Except.toOption]))
  | deleted schedule_id _ hthere hg =>
    rw [hg]
    exact hinv.deleted hthere
  | recorded schedule status finished rescheduled now hphase hact hg =>
    rw [hphase, hact] at hguard
    rw [hg]
    exact hinv.recorded hguard

/-- In every run whose writes are fresh, the last edit or deletion of each schedule is respected. -/
theorem edits_respected {s : Threads ι SchedulerState SchedulePhase}
    (h : (scheduleSystem cal settings).ReachWithin (FreshWrites settings) s) :
    ∀ schedule_id intent, s.shared.intents.lookup schedule_id = some intent →
      intent.RespectedBy cal settings (s.shared.row schedule_id) := by
  have hinit : ∀ s : Threads ι SchedulerState SchedulePhase, SchedulerInit s →
      EditsKept cal settings s.shared := by
    rintro s ⟨hempty, -⟩
    rw [hempty]
    constructor
    case used => exact fun d hd => absurd hd not_mem_nil
    case asked | kept =>
      intro id intent h
      cases h
  exact (h.invariant hinit editsKept_step).kept

end

/-! ## Two runs -/

instance (cal : Calendar) (settings : SchedulerSettings) (edit : ScheduleEdit)
    (d : ScheduleDefinition) : Decidable (edit.FiresBy cal settings d) := by
  unfold ScheduleEdit.FiresBy
  split <;> infer_instance

instance (cal : Calendar) (settings : SchedulerSettings) (edit : ScheduleEdit)
    (d : ScheduleDefinition) : Decidable (edit.RespectedBy cal settings d) := by
  unfold ScheduleEdit.RespectedBy
  split <;> infer_instance

instance (cal : Calendar) (settings : SchedulerSettings) (intent : ScheduleIntent)
    (row : Option ScheduleDefinition) : Decidable (intent.RespectedBy cal settings row) := by
  unfold ScheduleIntent.RespectedBy
  split <;> infer_instance

instance {ι : Type} (settings : SchedulerSettings) (s : Threads ι SchedulerState SchedulePhase)
    (l : ι × ScheduleAction) : Decidable (FreshWrites settings s l) := by
  unfold FreshWrites
  generalize s.threads l.1 = phase
  generalize l.2 = act
  rcases phase with _ | _ <;> rcases act with _ | _ <;> dsimp only <;> infer_instance

/-- An edit that lets the report run every four hours. -/
def fourHourly : ScheduleEditArgs :=
  { schedule_id := "s1", cadence_type := some "interval", cadence_value := some "14400" }

/-- A report every hour becomes one every four hours, between two of its runs. -/
def changedBetweenRuns : List (Fin 2 × ScheduleAction) :=
  createdAtEight "interval" "3600" ++ runAt 9 .success ++
    editedAt 9 fourHourly ++
    runAt 13 .failed

/-- The next one is four hours after the last one, and every edit is respected. -/
theorem changedBetweenRuns_respected : ∃ s : Threads (Fin 2) SchedulerState SchedulePhase,
    (scheduleSystem oneDay {}).ReachWithin (FreshWrites {}) s ∧
    (s.shared.row "s1").map (fun d => (d.status, d.next_run_at)) =
      some (.active, some "2026-03-01T17:00:00+00:00") ∧
    ∀ schedule_id intent, s.shared.intents.lookup schedule_id = some intent →
      intent.RespectedBy oneDay {} (s.shared.row schedule_id) := by
  obtain ⟨s, hs, hrow⟩ : ∃ s ∈ exec (FreshWrites {}) (threadStep (scheduleStep oneDay {}))
      (emptyScheduler (Fin 2)) changedBetweenRuns,
      (s.shared.row "s1").map (fun d => (d.status, d.next_run_at)) =
        some (.active, some "2026-03-01T17:00:00+00:00") := by
    decide
  have hreach : (scheduleSystem oneDay {}).ReachWithin (FreshWrites {}) s :=
    reachWithin_exec (.init ⟨rfl, fun _ => rfl⟩) hs
  exact ⟨s, hreach, hrow, edits_respected hreach⟩

/-- The same change, while the report of nine o'clock is at work. -/
def changedDuringRun : List (Fin 2 × ScheduleAction) :=
  createdAtEight "interval" "3600" ++ [(1, .dueSchedules "s1" (marchFirst 9))] ++
    editedAt 9 fourHourly ++
    [(1, .recordRun .success (marchFirst 10) (marchFirst 10) (marchFirst 10))]

/-- The report is to run at eleven, by the cadence that it had before. -/
theorem changedDuringRun_lost : ∃ s : Threads (Fin 2) SchedulerState SchedulePhase,
    (scheduleSystem oneDay {}).Reach s ∧
    (s.shared.row "s1").map (fun d => (d.cadence, d.next_run_at)) =
      some (.interval 14400, some "2026-03-01T11:00:00+00:00") ∧
    ¬∀ schedule_id intent, s.shared.intents.lookup schedule_id = some intent →
      intent.RespectedBy oneDay {} (s.shared.row schedule_id) := by
  obtain ⟨s, hs, hrow, intent, hintent, hlost⟩ :
      ∃ s ∈ exec (fun _ _ => True) (threadStep (scheduleStep oneDay {}))
        (emptyScheduler (Fin 2)) changedDuringRun,
      (s.shared.row "s1").map (fun d => (d.cadence, d.next_run_at)) =
        some (.interval 14400, some "2026-03-01T11:00:00+00:00") ∧
      ∃ intent ∈ s.shared.intents.lookup "s1",
        ¬intent.RespectedBy oneDay {} (s.shared.row "s1") := by
    decide
  exact ⟨s, reachWithin_exec (.init ⟨rfl, fun _ => rfl⟩) hs, hrow,
    fun hall => hlost (hall "s1" intent hintent)⟩

end Oxydra
