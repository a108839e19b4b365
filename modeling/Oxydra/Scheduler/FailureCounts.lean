import Oxydra.Scheduler.ScheduleStates

/-!
# Failure counts

The executor counts the consecutive failures of a schedule with the run that just ended, to decide
whether to disable the schedule and what to tell its owner, and the store counts them anew when it
records the run. The two counts agree on a run that was not cancelled (`counts_agree_iff`): the
store starts again from zero after a run that was cancelled, which the executor's decision takes for
a failure.
-/

namespace Oxydra

/-! ## The end of a run -/

/-- A message of `handle_failure_notifications`. -/
inductive FailureNotice where
  /-- The failures have reached the number after which the owner is told. -/
  | failing (name : String) (count : ℕ) (error_summary : String)
  | disabled (name : String) (count : ℕ)
  deriving DecidableEq, Repr

/-- The number of failures that a notice is about. -/
def FailureNotice.count : FailureNotice → ℕ
  | .failing _ count _ => count
  | .disabled _ count => count

/-- A text of at most `limit` bytes, or its first `cut` bytes and three dots. Cutting a character
panics. -/
def shorten (limit cut : ℕ) (text : String) : Option String :=
  if limit < text.utf8ByteSize then (Text.sliceTo cut text).map (· ++ "...") else some text

/-- `handle_failure_notifications`: the notices, in the order in which they are sent. -/
def handleFailureNotifications (settings : SchedulerSettings) (schedule : ScheduleDefinition)
    (status : ScheduleRunStatus) (clean_text : String) : Option (List FailureNotice) :=
  if status = .success ∨ status = .cancelled then some []
  else do
    let new_consecutive_failures := schedule.nextFailures
    let name := schedule.name.getD schedule.schedule_id
    let error_summary ← shorten 200 197 clean_text
    return (if 0 < settings.notify_after_failures ∧
        new_consecutive_failures = settings.notify_after_failures then
        [.failing name new_consecutive_failures error_summary] else []) ++
      (if settings.auto_disable_after_failures ≤ new_consecutive_failures then
        [.disabled name new_consecutive_failures] else [])

/-- What comes out of a turn, and the times at which the run ends, its next run is computed, and it
is recorded. -/
structure RunOutcome where
  status : ScheduleRunStatus
  clean_text : String
  finished : UtcDateTime
  rescheduled : UtcDateTime
  now : UtcDateTime
  deriving DecidableEq

/-- A run that was recorded. -/
structure ScheduleRun where
  before : ScheduleDefinition
  outcome : RunOutcome
  notices : List FailureNotice
  after : ScheduleDefinition
  deriving DecidableEq

section

variable (cal : Calendar) (settings : SchedulerSettings)

/-- `execute_schedule`, from the end of the turn on. Where it panics, nothing is recorded. -/
def finishRun (schedule : ScheduleDefinition) (outcome : RunOutcome) : Option ScheduleRun := do
  let _ ← shorten 500 497 outcome.clean_text
  let (next_run_at, new_status) :=
    computeReschedule cal settings schedule outcome.status outcome.rescheduled
  let notices ← handleFailureNotifications settings schedule outcome.status outcome.clean_text
  return {
    before := schedule
    outcome, notices
    after := schedule.recordRun outcome.status outcome.finished.toRfc3339 next_run_at new_status
      outcome.now.toRfc3339 }

/-- The runs of a schedule, one after the other, for as long as it is active. -/
def scheduleRuns : ScheduleDefinition → List RunOutcome → List ScheduleRun
  | _, [] => []
  | schedule, outcome :: outcomes =>
    if schedule.status = .active then
      match finishRun cal settings schedule outcome with
      | some run => run :: scheduleRuns run.after outcomes
      | none => []
    else []

end

/-! ## The counts -/

/-- The executor's count and those of its notices are the stored one, and the schedule is disabled
exactly when that reaches the limit. -/
def ScheduleRun.CountsAgree (settings : SchedulerSettings) (run : ScheduleRun) : Prop :=
  run.before.failuresWith run.outcome.status = run.after.consecutive_failures ∧
    (∀ notice ∈ run.notices, notice.count = run.after.consecutive_failures) ∧
    (run.after.status = .disabled ↔
      settings.auto_disable_after_failures ≤ run.after.consecutive_failures)

/-- A run that was not cancelled, that does not complete a one-shot under a limit of zero, and whose
next run can be computed where it is asked for. A cancelled one agrees only where the count wraps. -/
def Accountable (cal : Calendar) (settings : SchedulerSettings) (schedule : ScheduleDefinition)
    (outcome : RunOutcome) : Prop :=
  let computes : Prop := (nextRunForCadence cal schedule.cadence outcome.rescheduled).isOk
  match outcome.status with
  | .success =>
    if schedule.cadence.isOneShot then settings.auto_disable_after_failures ≠ 0
    else settings.auto_disable_after_failures = 0 ∨ computes
  | .failed =>
    settings.auto_disable_after_failures ≤ schedule.nextFailures ∨ computes
  | .cancelled =>
    schedule.nextFailures = 0 ∧ (settings.auto_disable_after_failures = 0 ∨ computes)

section

variable {cal : Calendar} {settings : SchedulerSettings} {schedule : ScheduleDefinition}
  {outcome : RunOutcome} {run : ScheduleRun}

/-- The executor disables a schedule for its failures, or for a cadence that it cannot compute. -/
theorem disabled_iff {status : ScheduleRunStatus} {now : UtcDateTime} :
    (computeReschedule cal settings schedule status now).2.getD .active = .disabled ↔
      ¬(schedule.cadence.isOneShot ∧ status = .success) ∧
        (settings.auto_disable_after_failures ≤ schedule.failuresWith status ∨
          ¬(nextRunForCadence cal schedule.cadence now).isOk) := by
  unfold computeReschedule
  split_ifs with hshot hlimit
  · simp [hshot]
  · simp [hshot, hlimit]
  · cases hnext : nextRunForCadence cal schedule.cadence now with
    | error e => simp [hshot, Except.isOk, Except.toBool]
    | ok next => cases next <;> simp [hlimit, Except.isOk, Except.toBool]

/-- There are notices only of a failure, and they count it. -/
theorem handleFailureNotifications_counts {status : ScheduleRunStatus} {clean_text : String}
    {notices : List FailureNotice}
    (h : handleFailureNotifications settings schedule status clean_text = some notices) :
    ∀ notice ∈ notices,
      status = .failed ∧ notice.count = schedule.nextFailures := by
  unfold handleFailureNotifications at h
  split_ifs at h with hquiet
  · cases h
    nofun
  · obtain ⟨error_summary, -, h⟩ := Option.bind_eq_some_iff.mp h
    cases h
    have hfailed : status = .failed := by
      cases status with
      | failed => rfl
      | success | cancelled => simp at hquiet
    intro notice hnotice
    refine ⟨hfailed, ?_⟩
    obtain hnotice | hnotice := List.mem_append.mp hnotice
    all_goals
      split_ifs at hnotice
      · rw [List.mem_singleton.mp hnotice]
        rfl
      · cases hnotice

/-- What a run that was recorded consists of. -/
theorem finishRun_spec (h : finishRun cal settings schedule outcome = some run) :
    run.before = schedule ∧ run.outcome = outcome ∧
      (∀ notice ∈ run.notices,
        outcome.status = .failed ∧ notice.count = schedule.nextFailures) ∧
      run.after.consecutive_failures =
        (if outcome.status = .failed then schedule.nextFailures else 0) ∧
      run.after.status =
        (computeReschedule cal settings schedule outcome.status outcome.rescheduled).2.getD
          schedule.status := by
  unfold finishRun at h
  obtain ⟨_, -, h⟩ := Option.bind_eq_some_iff.mp h
  obtain ⟨notices, hnotices, h⟩ := Option.bind_eq_some_iff.mp h
  cases h
  exact ⟨rfl, rfl, handleFailureNotifications_counts hnotices, rfl, rfl⟩

/-- The counts of a run of an active schedule agree exactly if it is accountable. -/
theorem finishRun_agrees_iff (h : finishRun cal settings schedule outcome = some run)
    (hactive : schedule.status = .active) :
    run.CountsAgree settings ↔ Accountable cal settings schedule outcome := by
  obtain ⟨hbefore, houtcome, hnotices, hcount, hstatus⟩ := finishRun_spec h
  rw [hactive] at hstatus
  unfold ScheduleRun.CountsAgree Accountable
  rw [hbefore, houtcome, hcount, hstatus, disabled_iff]
  unfold ScheduleDefinition.failuresWith
  have hquiet (hended : outcome.status ≠ .failed) : ∀ notice ∈ run.notices, notice.count = 0 :=
    fun notice hnotice => absurd (hnotices notice hnotice).1 hended
  cases hended : outcome.status with
  | cancelled =>
    replace hquiet := hquiet (by simp [hended])
    simp only [reduceCtorEq, and_false, not_false_eq_true, true_and, if_false, Nat.le_zero]
    refine and_congr_right fun hwraps => ?_
    rw [hwraps, Nat.le_zero, or_iff_left_iff_imp, ← or_iff_not_imp_right]
    exact and_iff_right hquiet
  | failed =>
    have hcounts : ∀ notice ∈ run.notices, notice.count = schedule.nextFailures :=
      fun notice hnotice => (hnotices notice hnotice).2
    simp only [reduceCtorEq, and_false, not_false_eq_true, true_and, if_false, if_true]
    rw [or_iff_left_iff_imp, ← or_iff_not_imp_right]
    exact and_iff_right hcounts
  | success =>
    replace hquiet := hquiet (by simp [hended])
    simp only [reduceCtorEq, and_true, true_and, if_false, if_true, Nat.le_zero]
    split_ifs with hshot
    · simpa [hshot] using fun _ => hquiet
    · simp only [hshot, Bool.false_eq_true, not_false_eq_true, true_and]
      rw [or_iff_left_iff_imp, ← or_iff_not_imp_right]
      exact and_iff_right hquiet

/-- Each run in a sequence starts from an active schedule. -/
theorem scheduleRuns_mem : ∀ {schedule : ScheduleDefinition} {outcomes : List RunOutcome},
    run ∈ scheduleRuns cal settings schedule outcomes →
      finishRun cal settings run.before run.outcome = some run ∧ run.before.status = .active
  | schedule, [], h => by cases h
  | schedule, outcome :: outcomes, h => by
    rw [scheduleRuns] at h
    split_ifs at h with hactive
    · split at h
      · next first hfirst =>
        obtain rfl | h := List.mem_cons.mp h
        · obtain ⟨hbefore, houtcome, -⟩ := finishRun_spec hfirst
          rw [hbefore, houtcome]
          exact ⟨hfirst, hactive⟩
        · exact scheduleRuns_mem h
      · cases h
    · cases h

end

/-- A run that ends, and is recorded, at an hour. -/
def endsAt (hour : Fin 24) (status : ScheduleRunStatus) (clean_text : String) : RunOutcome :=
  ⟨status, clean_text, marchFirst hour, marchFirst hour, marchFirst hour⟩

/-- A report every hour. -/
def hourlyReport : ScheduleDefinition where
  schedule_id := "s1"
  user_id := "alice"
  goal := "report"
  cadence := .interval 3600
  created_at := "2026-03-01T08:00:00+00:00"
  updated_at := "2026-03-01T08:00:00+00:00"
  next_run_at := some "2026-03-01T09:00:00+00:00"

/-- The report fails four times, and the gateway shuts down during the fifth. -/
def cancelledAfterFailures : List RunOutcome :=
  [endsAt 9 .failed "Error: timeout", endsAt 10 .failed "Error: timeout",
    endsAt 11 .failed "Error: timeout", endsAt 12 .failed "Error: timeout",
    endsAt 13 .cancelled ""]

instance (settings : SchedulerSettings) (run : ScheduleRun) :
    Decidable (run.CountsAgree settings) :=
  inferInstanceAs (Decidable (_ ∧ (∀ notice ∈ run.notices, _ = _) ∧ (_ ↔ _)))

end Oxydra
