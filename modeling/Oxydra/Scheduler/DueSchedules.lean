import Oxydra.Scheduler.ScheduleStates

/-!
# Due schedules

`due_schedules` of `crates/memory/src/scheduler_store.rs` compares the texts of times, by their
bytes, and orders by them. The stored next runs are texts of times (`next_run_printed`), so with
years of four digits the query selects and orders by the times themselves (`due_schedules_exact`).
-/

namespace Oxydra

open Lts TextOrder

/-! ## The query -/

/-- The bytes by which the next run of a schedule is ordered. -/
def ScheduleDefinition.nextRunBytes (d : ScheduleDefinition) : List UInt8 :=
  d.next_run_at.elim [] bytes

/-- `due_schedules`: the schedules that are due, `ORDER BY next_run_at ASC`, and the first of them
up to the limit. Among schedules with the same next run, any order may come out. -/
def DueSchedules (schedules : List ScheduleDefinition) (now : String) (limit : ℕ)
    (answer : List ScheduleDefinition) : Prop :=
  ∃ rows : List ScheduleDefinition, rows.Perm (schedules.filter fun d => d.isDue now) ∧
    rows.Pairwise (fun a b => a.nextRunBytes ≤ b.nextRunBytes) ∧ answer = rows.take limit

/-- An answer of the query, with ties in the order of the table. -/
def dueSchedules (schedules : List ScheduleDefinition) (now : String) (limit : ℕ) :
    List ScheduleDefinition :=
  ((schedules.filter fun d => d.isDue now).mergeSort
    fun a b => a.nextRunBytes ≤ b.nextRunBytes).take limit

/-- The active schedules whose time is not after `now`, the earliest first, and the first of them up
to the limit. -/
def DueAt (time : ScheduleDefinition → Option UtcDateTime) (schedules : List ScheduleDefinition)
    (now : UtcDateTime) (limit : ℕ) (answer : List ScheduleDefinition) : Prop :=
  ∃ rows : List ScheduleDefinition,
    rows.Perm (schedules.filter fun d => d.status = .active ∧ (time d).any (· ≤ now)) ∧
    rows.Pairwise (fun a b => ∀ t ∈ time a, ∀ u ∈ time b, t ≤ u) ∧ answer = rows.take limit

/-- The selection is one that the query allows. -/
theorem dueSchedules_answers (schedules : List ScheduleDefinition) (now : String) (limit : ℕ) :
    DueSchedules schedules now limit (dueSchedules schedules now limit) := by
  have htrans : ∀ a b c : ScheduleDefinition, decide (a.nextRunBytes ≤ b.nextRunBytes) →
      decide (b.nextRunBytes ≤ c.nextRunBytes) → decide (a.nextRunBytes ≤ c.nextRunBytes) :=
    fun a b c hab hbc => decide_eq_true (List.le_trans (of_decide_eq_true hab)
      (of_decide_eq_true hbc))
  have htotal : ∀ a b : ScheduleDefinition,
      decide (a.nextRunBytes ≤ b.nextRunBytes) || decide (b.nextRunBytes ≤ a.nextRunBytes) := by
    intro a b
    simpa using List.le_total a.nextRunBytes b.nextRunBytes
  exact ⟨_, List.mergeSort_perm _ _,
    (List.pairwise_mergeSort htrans htotal _).imp of_decide_eq_true, rfl⟩

/-! ## The times -/

/-- Texts of four-digit years are ordered as the times are. -/
theorem bytes_toRfc3339_le {a b : UtcDateTime} (ha : a.FourDigitYear) (hb : b.FourDigitYear) :
    bytes a.toRfc3339 ≤ bytes b.toRfc3339 ↔ a ≤ b := by
  change ¬bytes b.toRfc3339 < bytes a.toRfc3339 ↔ _
  rw [UtcDateTime.toRfc3339_lt_iff hb ha, not_lt]

section

variable {time : ScheduleDefinition → Option UtcDateTime} {d : ScheduleDefinition}
  {now : UtcDateTime}

/-- A schedule is due by its text when it is by its time. -/
theorem isDue_iff (hd : d.next_run_at = (time d).map UtcDateTime.toRfc3339)
    (hyear : ∀ t ∈ time d, t.FourDigitYear) (hnow : now.FourDigitYear) :
    d.isDue now.toRfc3339 = decide (d.status = .active ∧ (time d).any (· ≤ now)) := by
  unfold ScheduleDefinition.isDue
  rw [hd]
  cases ht : time d with
  | none => simp
  | some t => simp [bytes_toRfc3339_le (hyear t ht) hnow]

/-- The order by texts is the one by times. -/
theorem nextRunBytes_le_iff {e : ScheduleDefinition} {t u : UtcDateTime}
    (hd : d.next_run_at = some t.toRfc3339) (he : e.next_run_at = some u.toRfc3339)
    (ht : t.FourDigitYear) (hu : u.FourDigitYear) :
    d.nextRunBytes ≤ e.nextRunBytes ↔ t ≤ u := by
  unfold ScheduleDefinition.nextRunBytes
  rw [hd, he]
  exact bytes_toRfc3339_le ht hu

end

/-- A next run that is the text of a time, if there is one. -/
def ScheduleDefinition.Printed (d : ScheduleDefinition) : Prop :=
  ∃ time : Option UtcDateTime, d.next_run_at = time.map UtcDateTime.toRfc3339

/-- Every write of a next run prints a time. -/
theorem printed_step {cal : Calendar} {settings : SchedulerSettings} {g g' : SchedulerState}
    {phase phase' : SchedulePhase} {act : ScheduleAction} (hinv : ∀ d ∈ g.schedules, d.Printed)
    (hstep : scheduleStep cal settings g phase act = some (g', phase')) :
    ∀ d ∈ g'.schedules, d.Printed := by
  cases scheduleStep_effect hstep with
  | same hschedules =>
    rw [hschedules]
    exact hinv
  | created user_id schedule_id request validated computed now d _ _ _ hd hg =>
    obtain ⟨next_run, -, -, -, -, hnext⟩ := newDefinition_spec hd
    subst hg
    intro d' hd'
    obtain hold | hnew := List.mem_append.mp hd'
    · exact hinv d' hold
    · rw [List.mem_singleton.mp hnew]
      exact ⟨next_run, hnext⟩
  | updated request existing validated computed now patch _ _ hpatch _ hg =>
    subst hg
    refine modify_forall hinv fun d hd _ => ?_
    unfold ScheduleDefinition.Printed SchedulePatch.apply
    obtain ⟨-, -, hnext⟩ := editPatch_spec hpatch
    obtain ⟨-, hset⟩ | ⟨-, -, run, -, hset⟩ | ⟨-, -, hset⟩ := patchedNextRun_cases hnext
    · exact ⟨none, by rw [hset]; rfl⟩
    · exact ⟨run, by rw [hset]; rfl⟩
    · rw [hset]
      exact hinv d hd
  | deleted schedule_id _ _ hg =>
    subst hg
    exact fun d hd => hinv d (List.mem_filter.mp hd).1
  | recorded schedule status finished rescheduled now _ _ hg =>
    subst hg
    refine modify_forall hinv fun d hd _ => ?_
    unfold ScheduleDefinition.Printed ScheduleDefinition.recordRun
    obtain ⟨-, t, -, hr⟩ | ⟨-, ended, -, -, hr⟩ :=
      computeReschedule_cases cal settings schedule status rescheduled
    · exact ⟨some t, by rw [hr]; rfl⟩
    · exact ⟨none, by rw [hr]; rfl⟩

/-- In every run of the tools and the executor, the stored next runs are texts of times. -/
theorem next_run_printed {ι : Type} [DecidableEq ι] {cal : Calendar}
    {settings : SchedulerSettings} {s : Threads ι SchedulerState SchedulePhase}
    (h : (scheduleSystem cal settings).Reach s) :
    ∃ time : ScheduleDefinition → Option UtcDateTime,
      ∀ d ∈ s.shared.schedules, d.next_run_at = (time d).map UtcDateTime.toRfc3339 := by
  have hinit : ∀ s : Threads ι SchedulerState SchedulePhase, SchedulerInit s →
      ∀ d ∈ s.shared.schedules, d.Printed := by
    rintro s ⟨hempty, -⟩ d hd
    rw [hempty] at hd
    cases hd
  have hprinted := h.invariant hinit fun s l t hinv _ hst => by
    obtain ⟨g, k, hstep, rfl⟩ := interleave_step hst
    exact printed_step hinv hstep
  choose! time htime using hprinted
  exact ⟨time, htime⟩

/-- For every table whose next runs are printed times with years of four digits, the texts are in
the order of the times, and the query answers what is due at a time, the earliest first. -/
theorem due_schedules_exact (schedules : List ScheduleDefinition)
    (time : ScheduleDefinition → Option UtcDateTime)
    (hprinted : ∀ d ∈ schedules, d.next_run_at = (time d).map UtcDateTime.toRfc3339)
    (hyear : ∀ d ∈ schedules, ∀ t ∈ time d, t.FourDigitYear) :
    (∀ a b : UtcDateTime, a.FourDigitYear → b.FourDigitYear →
      (bytes a.toRfc3339 < bytes b.toRfc3339 ↔ a < b)) ∧
    ∀ now : UtcDateTime, now.FourDigitYear → ∀ limit answer,
      DueSchedules schedules now.toRfc3339 limit answer ↔
        DueAt time schedules now limit answer := by
  refine ⟨fun a b ha hb => UtcDateTime.toRfc3339_lt_iff ha hb, fun now hnow limit answer => ?_⟩
  have hfilter : (schedules.filter fun d => d.isDue now.toRfc3339) =
      schedules.filter fun d => d.status = .active ∧ (time d).any (· ≤ now) :=
    List.filter_congr fun d hd => isDue_iff (hprinted d hd) (hyear d hd) hnow
  unfold DueSchedules DueAt
  rw [hfilter]
  refine exists_congr fun rows => and_congr_right fun hperm => and_congr_left fun _ => ?_
  -- the rows that are due have a time
  have hrows : ∀ d ∈ rows, d ∈ schedules ∧ ∃ t, time d = some t := by
    intro d hd
    obtain ⟨hmem, hdue⟩ := List.mem_filter.mp (hperm.mem_iff.mp hd)
    simp only [Bool.decide_and, Bool.and_eq_true, decide_eq_true_eq, Option.any_eq_true] at hdue
    obtain ⟨-, t, ht, -⟩ := hdue
    exact ⟨hmem, t, ht⟩
  refine List.Pairwise.iff_of_mem fun {a b} ha hb => ?_
  obtain ⟨hamem, t, hta⟩ := hrows a ha
  obtain ⟨hbmem, u, hub⟩ := hrows b hb
  have hat : a.next_run_at = some t.toRfc3339 := by rw [hprinted a hamem, hta, Option.map_some]
  have hbu : b.next_run_at = some u.toRfc3339 := by rw [hprinted b hbmem, hub, Option.map_some]
  rw [nextRunBytes_le_iff hat hbu (hyear a hamem t hta) (hyear b hbmem u hub)]
  simp [hta, hub]

/-! ## A table -/

instance (t : UtcDateTime) : Decidable t.FourDigitYear :=
  inferInstanceAs (Decidable (0 ≤ t.year ∧ t.year ≤ 9999))

/-- Half a second past nine. -/
def halfPastNine : UtcDateTime :=
  { marchFirst 9 with nanos := 500000000, nanos_lt := .inl (by decide) }

/-- A schedule with a status and a next run. -/
def scheduleAt (schedule_id : String) (status : ScheduleStatus) (next_run_at : Option String) :
    ScheduleDefinition where
  schedule_id := schedule_id
  user_id := "alice"
  goal := "report"
  cadence := .interval 3600
  status := status
  created_at := "2026-03-01T08:00:00+00:00"
  updated_at := "2026-03-01T08:00:00+00:00"
  next_run_at := next_run_at

/-- Two active schedules, half a second apart, and a paused one. -/
def halfASecondApart : List ScheduleDefinition :=
  [scheduleAt "late" .active (some "2026-03-01T09:00:00.500+00:00"),
    scheduleAt "paused" .paused none,
    scheduleAt "early" .active (some "2026-03-01T09:00:00+00:00")]

/-- Their times. -/
def halfASecondTimes (d : ScheduleDefinition) : Option UtcDateTime :=
  if d.schedule_id = "late" then some halfPastNine
  else if d.schedule_id = "early" then some (marchFirst 9)
  else none

/-- The one without a fraction of a second comes first. -/
theorem early_before_late : DueAt halfASecondTimes halfASecondApart (marchFirst 10) 5
    [scheduleAt "early" .active (some "2026-03-01T09:00:00+00:00"),
      scheduleAt "late" .active (some "2026-03-01T09:00:00.500+00:00")] := by
  have hexact := due_schedules_exact halfASecondApart halfASecondTimes (by decide)
    (by decide)
  refine (hexact.2 (marchFirst 10) (by decide) 5 _).mp
    ⟨[scheduleAt "early" .active (some "2026-03-01T09:00:00+00:00"),
      scheduleAt "late" .active (some "2026-03-01T09:00:00.500+00:00")], ?_, ?_, rfl⟩
  · decide
  · decide

end Oxydra
