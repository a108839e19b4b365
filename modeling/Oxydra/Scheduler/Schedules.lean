import Oxydra.Scheduler.Timestamps
import Oxydra.Types.Policy

/-!
# Schedules

The schedules of `crates/types/src/scheduler.rs`, the cadences of `crates/memory/src/cadence.rs`,
and the store of `crates/memory/src/scheduler_store.rs`, whose calls are one statement or one
transaction each.
-/

namespace Oxydra

/-! ## Data -/

inductive ScheduleCadence where
  /-- Once, at a time that is kept as a text. -/
  | once (time : String)
  | cron (expression timezone : String)
  | interval (every_secs : ℕ)
  deriving DecidableEq, Repr

inductive NotificationPolicy where
  | always
  | conditional
  | never
  deriving DecidableEq, Repr

inductive ScheduleStatus where
  | active
  | paused
  /-- A one-shot that has fired. -/
  | completed
  /-- Disabled after consecutive failures. -/
  | disabled
  deriving DecidableEq, Repr

inductive ScheduleRunStatus where
  | success
  | failed
  | cancelled
  deriving DecidableEq, Repr

/-- `ScheduleDefinition`, without its policy and its channel. -/
structure ScheduleDefinition where
  schedule_id : String
  user_id : String
  name : Option String := none
  goal : String
  cadence : ScheduleCadence
  notification_policy : NotificationPolicy := .always
  status : ScheduleStatus := .active
  created_at : String
  updated_at : String
  next_run_at : Option String
  last_run_at : Option String := none
  last_run_status : Option ScheduleRunStatus := none
  consecutive_failures : ℕ := 0
  deriving DecidableEq, Repr

/-- `consecutive_failures` with one failure more, which wraps where a `u32` does. -/
def ScheduleDefinition.nextFailures (d : ScheduleDefinition) : ℕ :=
  (d.consecutive_failures + 1) % 2^32

/-- `SchedulePatch`: only what is set is written. -/
structure SchedulePatch where
  name : Option (Option String) := none
  goal : Option String := none
  cadence : Option ScheduleCadence := none
  notification_policy : Option NotificationPolicy := none
  status : Option ScheduleStatus := none
  next_run_at : Option (Option String) := none
  updated_at : Option String := none
  consecutive_failures : Option ℕ := none
  deriving DecidableEq, Repr

inductive SchedulerError where
  | invalidCronExpression (expression reason : String)
  | invalidCadence (reason : String)
  | notFound (schedule_id : String)
  | store (message : String)
  deriving DecidableEq, Repr

/-- The text of a scheduler error. -/
def SchedulerError.display : SchedulerError → String
  | .invalidCronExpression expression reason =>
    "invalid cron expression: " ++ expression ++ ": " ++ reason
  | .invalidCadence reason => "invalid schedule cadence: " ++ reason
  | .notFound schedule_id => "schedule not found: " ++ schedule_id
  | .store message => "schedule store error: " ++ message

/-- `SchedulerConfig`, the fields that the tools and the executor's bookkeeping read. -/
structure SchedulerSettings where
  max_schedules_per_user : ℕ := 50
  min_interval_secs : ℕ := 60
  default_timezone : String := "Asia/Kolkata"
  auto_disable_after_failures : ℕ := 5
  notify_after_failures : ℕ := 3
  deriving DecidableEq, Repr

/-! ## Cadences -/

/-- What `chrono`, `chrono_tz`, and `cron` compute. -/
structure Calendar where
  /-- `DateTime::parse_from_rfc3339`, in UTC, or the text of its error. -/
  parseFromRfc3339 : String → Except String UtcDateTime
  /-- Whether a timezone is known. -/
  isTimezone : String → Bool
  /-- `Schedule::from_str`: the error of an expression that is none. -/
  cronError : String → Option String
  /-- The first firing of an expression in a timezone after a time. -/
  cronAfter : String → String → UtcDateTime → Option UtcDateTime
  /-- The whole seconds from a time to a later one. -/
  secondsBetween : UtcDateTime → UtcDateTime → ℤ
  /-- `after + Duration::seconds(every_secs as i64)`. Where the code panics, the caller takes no
  further step. -/
  addSeconds : UtcDateTime → ℕ → UtcDateTime

section

variable (cal : Calendar)

/-- `parse_utc_timestamp`. -/
def parseUtcTimestamp (s : String) : Except SchedulerError UtcDateTime :=
  match cal.parseFromRfc3339 s with
  | .ok t => .ok t
  | .error e => .error (.invalidCadence ("invalid timestamp '" ++ s ++ "': " ++ e))

/-- The expression with its seconds, if it and the timezone are known. -/
def parseCron (expression timezone : String) : Except SchedulerError String :=
  if !cal.isTimezone timezone then .error (.invalidCadence ("invalid timezone: " ++ timezone))
  else
    let full_expression := "0 " ++ expression
    match cal.cronError full_expression with
    | some reason => .error (.invalidCronExpression expression reason)
    | none => .ok full_expression

/-- `next_run_for_cadence`. -/
def nextRunForCadence (cadence : ScheduleCadence) (after : UtcDateTime) :
    Except SchedulerError (Option UtcDateTime) :=
  match cadence with
  | .once time => do
    let t ← parseUtcTimestamp cal time
    return if after < t then some t else none
  | .cron expression timezone => do
    let full_expression ← parseCron cal expression timezone
    return cal.cronAfter full_expression timezone after
  | .interval every_secs => return some (cal.addSeconds after every_secs)

/-- `validate_cadence`. -/
def validateCadence (cadence : ScheduleCadence) (min_interval_secs : ℕ) (now : UtcDateTime) :
    Except SchedulerError Unit :=
  match cadence with
  | .once time => do
    let t ← parseUtcTimestamp cal time
    if t ≤ now then throw (.invalidCadence "one-off time must be in the future")
  | .cron expression timezone => do
    let full_expression ← parseCron cal expression timezone
    -- only the first two firings are looked at
    match cal.cronAfter full_expression timezone now with
    | none => return
    | some a =>
      match cal.cronAfter full_expression timezone a with
      | none => return
      | some b =>
        let gap := cal.secondsBetween a b
        if gap < asI64 min_interval_secs then
          throw (.invalidCadence ("cron fires every " ++ toString gap ++ "s, minimum is " ++
            toString min_interval_secs ++ "s"))
  | .interval every_secs =>
    if every_secs < min_interval_secs then
      throw (.invalidCadence ("interval " ++ toString every_secs ++ "s is below minimum " ++
        toString min_interval_secs ++ "s"))
    else return

end

/-- `parse::<u64>()`: digits, after a plus sign or not. -/
def parseU64 (s : String) : Option ℕ :=
  let digits := match s.toList with
    | '+' :: rest => rest
    | chars => chars
  if digits.isEmpty ∨ ¬digits.all Char.isDigit then none
  else
    let n := digits.foldl (fun n c => 10 * n + (c.toNat - '0'.toNat)) 0
    if n < 2^64 then some n else none

/-- `parse_cadence`. -/
def parseCadence (cadence_type cadence_value timezone : String) :
    Except SchedulerError ScheduleCadence :=
  if cadence_type = "once" then .ok (.once cadence_value)
  else if cadence_type = "cron" then .ok (.cron cadence_value timezone)
  else if cadence_type = "interval" then
    match parseU64 cadence_value with
    | some every_secs => .ok (.interval every_secs)
    | none => .error (.invalidCadence
        ("interval value must be a positive integer: " ++ cadence_value))
  else .error (.invalidCadence ("unknown cadence type: " ++ cadence_type))

/-! ## The store -/

namespace SchedulerStore

variable (schedules : List ScheduleDefinition)

/-- `get_schedule`. -/
def getSchedule (schedule_id : String) : Except SchedulerError ScheduleDefinition :=
  match schedules.find? fun d => d.schedule_id = schedule_id with
  | some d => .ok d
  | none => .error (.notFound schedule_id)

/-- `count_schedules`. -/
def countSchedules (user_id : String) : ℕ := schedules.countP fun d => d.user_id = user_id

/-- `create_schedule`: a schedule id is there once. -/
def createSchedule (d : ScheduleDefinition) : Except SchedulerError (List ScheduleDefinition) :=
  if schedules.any fun d' => d'.schedule_id = d.schedule_id then
    .error (.store "UNIQUE constraint failed: schedules.schedule_id")
  else .ok (schedules ++ [d])

/-- A change of the schedule with an id. -/
def modify (schedule_id : String) (f : ScheduleDefinition → ScheduleDefinition) :
    List ScheduleDefinition :=
  schedules.map fun d => if d.schedule_id = schedule_id then f d else d

/-- `delete_schedule`. -/
def deleteSchedule (schedule_id : String) : List ScheduleDefinition :=
  schedules.filter fun d => d.schedule_id ≠ schedule_id

end SchedulerStore

/-- The columns that a patch sets. -/
def SchedulePatch.apply (patch : SchedulePatch) (d : ScheduleDefinition) : ScheduleDefinition :=
  { d with
    name := patch.name.getD d.name
    goal := patch.goal.getD d.goal
    cadence := patch.cadence.getD d.cadence
    notification_policy := patch.notification_policy.getD d.notification_policy
    status := patch.status.getD d.status
    next_run_at := patch.next_run_at.getD d.next_run_at
    updated_at := patch.updated_at.getD d.updated_at
    consecutive_failures := patch.consecutive_failures.getD d.consecutive_failures }

/-- `update_schedule`, with a patch that sets `updated_at`. -/
def SchedulerStore.updateSchedule (schedules : List ScheduleDefinition) (schedule_id : String)
    (patch : SchedulePatch) : Except SchedulerError (List ScheduleDefinition) :=
  if schedules.any fun d => d.schedule_id = schedule_id then
    .ok (modify schedules schedule_id patch.apply)
  else .error (.notFound schedule_id)

/-- The columns that `record_run_and_reschedule` sets. -/
def ScheduleDefinition.recordRun (d : ScheduleDefinition) (status : ScheduleRunStatus)
    (finished_at : String) (next_run_at : Option String) (new_status : Option ScheduleStatus)
    (now : String) : ScheduleDefinition :=
  { d with
    last_run_at := some finished_at
    last_run_status := some status
    -- only a failure counts
    consecutive_failures := if status = .failed then d.nextFailures else 0
    next_run_at := next_run_at
    status := new_status.getD d.status
    updated_at := now }

/-- `record_run_and_reschedule`, on the table of schedules. When the schedule is gone, the record of
the run violates its foreign key and the transaction is rolled back. -/
def SchedulerStore.recordRunAndReschedule (schedules : List ScheduleDefinition)
    (schedule_id : String) (status : ScheduleRunStatus) (finished_at : String)
    (next_run_at : Option String) (new_status : Option ScheduleStatus) (now : String) :
    List ScheduleDefinition :=
  modify schedules schedule_id fun d => d.recordRun status finished_at next_run_at new_status now

end Oxydra
