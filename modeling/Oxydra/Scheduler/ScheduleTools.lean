import Oxydra.Library.Interleaving
import Oxydra.Scheduler.Schedules
import Oxydra.Tools.Registry

/-!
# The writers of schedules

The three tools that write schedules (`crates/tools/src/scheduler_tools.rs`) and the executor that
runs the due ones and reschedules them (`crates/runtime/src/scheduler_executor.rs`).

An edit reads the schedule and writes its patch in two calls of the store. An execution loads the
schedule, runs for as long as the turn takes, and then writes what it computed from the schedule
that it had loaded. Each call of the store is one step of `scheduleSystem`, the transition system of
all interleavings, in which the clock may show any time at any reading.
-/

namespace Oxydra

open Lts

/-! ## Requests -/

structure ScheduleCreateArgs where
  name : Option String := none
  goal : String
  cadence_type : String
  cadence_value : String
  timezone : Option String := none
  notification : Option String := none
  deriving DecidableEq, Repr

structure ScheduleEditArgs where
  schedule_id : String
  name : Option String := none
  goal : Option String := none
  cadence_type : Option String := none
  cadence_value : Option String := none
  timezone : Option String := none
  notification : Option String := none
  status : Option String := none
  deriving DecidableEq, Repr

/-- The names of the tools. -/
def scheduleCreateToolName : String := "schedule_create"

@[inherit_doc scheduleCreateToolName]
def scheduleEditToolName : String := "schedule_edit"

@[inherit_doc scheduleCreateToolName]
def scheduleDeleteToolName : String := "schedule_delete"

/-- `map_err` of a scheduler error to the tool's error. -/
def failWith {α : Type} (tool : String) : Except SchedulerError α → Except ToolError α
  | .ok a => .ok a
  | .error e => .error (executionFailed tool e.display)

/-- `resolve_user_id`. -/
def resolveUserId (user_id : Option String) (tool : String) : Except ToolError String :=
  match user_id with
  | some u => .ok u
  | none => .error (executionFailed tool "user context is not available")

/-- `parse_notification_policy`. -/
def parseNotificationPolicy (s tool : String) : Except ToolError NotificationPolicy :=
  if s = "always" then .ok .always
  else if s = "conditional" then .ok .conditional
  else if s = "never" then .ok .never
  else .error (.invalidArguments tool
    ("invalid notification value: " ++ s ++ "; expected always, conditional, or never"))

/-- `parse_schedule_status`. -/
def parseScheduleStatus (s tool : String) : Except ToolError ScheduleStatus :=
  if s = "active" then .ok .active
  else if s = "paused" then .ok .paused
  else .error (.invalidArguments tool
    ("invalid status value: " ++ s ++ "; expected active or paused"))

/-- The check that a schedule is the user's. -/
def ownSchedule (schedules : List ScheduleDefinition) (user_id schedule_id tool : String) :
    Except ToolError ScheduleDefinition := do
  let existing ← failWith tool (SchedulerStore.getSchedule schedules schedule_id)
  if existing.user_id ≠ user_id then
    throw (executionFailed tool ("schedule " ++ schedule_id ++ " does not belong to you"))
  return existing

section

variable (cal : Calendar) (settings : SchedulerSettings)

/-! ## `ScheduleCreateTool` -/

/-- The check of the number of schedules that the user has. -/
def checkScheduleLimit (schedules : List ScheduleDefinition) (user_id : String) :
    Except ToolError Unit :=
  let count := SchedulerStore.countSchedules schedules user_id
  if settings.max_schedules_per_user ≤ count then
    .error (executionFailed scheduleCreateToolName ("you have reached the maximum number of " ++
      "schedules (" ++ toString count ++ "/" ++ toString settings.max_schedules_per_user ++ ")"))
  else .ok ()

/-- The cadence that a request asks for. -/
def ScheduleCreateArgs.cadence (request : ScheduleCreateArgs) :
    Except SchedulerError ScheduleCadence :=
  parseCadence request.cadence_type request.cadence_value
    (request.timezone.getD settings.default_timezone)

/-- The schedule that is created. The clock is read when the cadence is validated, when the first
run is computed, and for the timestamps. -/
def newDefinition (user_id schedule_id : String) (request : ScheduleCreateArgs)
    (validated computed now : UtcDateTime) : Except ToolError ScheduleDefinition := do
  let cadence ← failWith scheduleCreateToolName (request.cadence settings)
  failWith scheduleCreateToolName
    (validateCadence cal cadence settings.min_interval_secs validated)
  let next_run ← failWith scheduleCreateToolName (nextRunForCadence cal cadence computed)
  let notification_policy ← request.notification.elim (.ok .always)
    fun n => parseNotificationPolicy n scheduleCreateToolName
  return {
    schedule_id, user_id, cadence, notification_policy
    name := request.name
    goal := request.goal
    status := .active
    created_at := now.toRfc3339
    updated_at := now.toRfc3339
    next_run_at := next_run.map UtcDateTime.toRfc3339 }

/-! ## `ScheduleEditTool` -/

/-- The cadence that an edit asks for, if it asks for one. A timezone alone is for a cron cadence.
-/
def ScheduleEditArgs.cadence (request : ScheduleEditArgs) (existing : ScheduleDefinition) :
    Except ToolError (Option ScheduleCadence) :=
  match request.cadence_type, request.cadence_value with
  | some ct, some cv =>
    some <$> failWith scheduleEditToolName
      (parseCadence ct cv (request.timezone.getD settings.default_timezone))
  | some _, none | none, some _ => .error (.invalidArguments scheduleEditToolName
      "cadence_type and cadence_value must both be provided when changing cadence")
  | none, none =>
    match request.timezone, existing.cadence with
    | some tz, .cron expression _ =>
      some <$> failWith scheduleEditToolName (parseCadence "cron" expression tz)
    | _, _ => .ok none

/-- The cadence that an edit asks for, validated. -/
def newCadence (request : ScheduleEditArgs) (existing : ScheduleDefinition)
    (validated : UtcDateTime) : Except ToolError (Option ScheduleCadence) := do
  match ← request.cadence settings existing with
  | some cadence =>
    failWith scheduleEditToolName
      (validateCadence cal cadence settings.min_interval_secs validated)
    return some cadence
  | none => return none

/-- The next run that an edit writes, if it writes one. -/
def patchedNextRun (existing : ScheduleDefinition) (new_cadence : Option ScheduleCadence)
    (new_status : Option ScheduleStatus) (computed : UtcDateTime) :
    Except ToolError (Option (Option String)) :=
  match new_status.getD existing.status with
  | .paused => .ok (some none)
  | .active =>
    if new_cadence.isSome ∨ new_status.isSome then do
      let next_run ← failWith scheduleEditToolName
        (nextRunForCadence cal (new_cadence.getD existing.cadence) computed)
      return some (next_run.map UtcDateTime.toRfc3339)
    else .ok none
  | .completed | .disabled => .ok none

/-- The patch of an edit. The clock is read when the cadence is validated, when the next run is
computed, and for the timestamp. -/
def editPatch (request : ScheduleEditArgs) (existing : ScheduleDefinition)
    (validated computed now : UtcDateTime) : Except ToolError SchedulePatch := do
  let notification_policy ← request.notification.mapM
    fun n => parseNotificationPolicy n scheduleEditToolName
  let new_cadence ← newCadence cal settings request existing validated
  let new_status ← request.status.mapM fun s => parseScheduleStatus s scheduleEditToolName
  let next_run_at ← patchedNextRun cal existing new_cadence new_status computed
  return {
    notification_policy, next_run_at
    name := request.name.map some
    goal := request.goal
    cadence := new_cadence
    status := new_status
    updated_at := some now.toRfc3339 }

/-! ## `SchedulerExecutor` -/

/-- What the query for due schedules asks of a schedule. -/
def ScheduleDefinition.isDue (d : ScheduleDefinition) (now : String) : Bool :=
  d.status = .active ∧ d.next_run_at.any fun t => TextOrder.bytes t ≤ TextOrder.bytes now

/-- Whether a cadence is `ScheduleCadence::Once`. -/
def ScheduleCadence.isOneShot : ScheduleCadence → Bool
  | .once _ => true
  | .cron _ _ | .interval _ => false

/-- The `consecutive_failures` that the executor counts with a run: it takes a run that was
cancelled for a failure. -/
def ScheduleDefinition.failuresWith (d : ScheduleDefinition) (status : ScheduleRunStatus) : ℕ :=
  if status = .success then 0 else d.nextFailures

/-- `compute_reschedule`: the next run and the new status. -/
def computeReschedule (schedule : ScheduleDefinition) (status : ScheduleRunStatus)
    (now : UtcDateTime) : Option String × Option ScheduleStatus :=
  if schedule.cadence.isOneShot ∧ status = .success then (none, some .completed)
  else if settings.auto_disable_after_failures ≤ schedule.failuresWith status then
    (none, some .disabled)
  else
    match nextRunForCadence cal schedule.cadence now with
    | .ok (some next) => (some next.toRfc3339, none)
    | .ok none => (none, some .completed)
    | .error _ => (none, some .disabled)

/-! ## Interleavings -/

/-- An edit of the status or of the cadence of a schedule. -/
structure ScheduleEdit where
  /-- The status that the schedule is to have. -/
  status : ScheduleStatus
  /-- The cadence that the schedule is to have. -/
  cadence : ScheduleCadence
  /-- When the edit computed the next run. -/
  computed : UtcDateTime
  /-- The last run that was recorded since: the schedule as it was loaded, how the run ended, and
  when the executor computed the next one. -/
  ran : Option (ScheduleDefinition × ScheduleRunStatus × UtcDateTime) := none
  deriving DecidableEq

/-- What the user last asked of a schedule. -/
inductive ScheduleIntent where
  | edited (edit : ScheduleEdit)
  | deleted
  deriving DecidableEq

/-- The intent after one more run. -/
def ScheduleIntent.withRun (schedule : ScheduleDefinition) (status : ScheduleRunStatus)
    (rescheduled : UtcDateTime) : ScheduleIntent → ScheduleIntent
  | .edited edit => .edited { edit with ran := some (schedule, status, rescheduled) }
  | .deleted => .deleted

/-- The tables, and who has done what. -/
structure SchedulerState where
  schedules : List ScheduleDefinition := []
  /-- The ids that were given to schedules so far. -/
  used : List String := []
  /-- The schedules whose execution is not over. The next tick waits for it. -/
  running : List String := []
  /-- What was asked of the schedules, the newest first, which no step reads. -/
  intents : List (String × ScheduleIntent) := []
  deriving DecidableEq

/-- The schedule with an id. -/
def SchedulerState.row (g : SchedulerState) (schedule_id : String) : Option ScheduleDefinition :=
  g.schedules.find? fun d => d.schedule_id = schedule_id

/-- Where a call of a tool, or an execution, stands between two calls of the store. -/
inductive SchedulePhase where
  | idle
  | creating (user_id : String) (request : ScheduleCreateArgs)
  | editing (request : ScheduleEditArgs) (existing : ScheduleDefinition)
  | deleting (schedule_id : String)
  | executing (schedule : ScheduleDefinition)
  deriving DecidableEq, Repr

/-- A call of the store, with the request, the id, and the times of the clock that lead to it. -/
inductive ScheduleAction where
  | countSchedules (user_id : Option String) (request : ScheduleCreateArgs)
  | createSchedule (schedule_id : String) (validated computed now : UtcDateTime)
  | getForEdit (user_id : Option String) (request : ScheduleEditArgs)
  | updateSchedule (validated computed now : UtcDateTime)
  | getForDelete (user_id : Option String) (schedule_id : String)
  | deleteSchedule
  | dueSchedules (schedule_id : String) (now : UtcDateTime)
  | recordRun (status : ScheduleRunStatus) (finished rescheduled now : UtcDateTime)
  deriving DecidableEq

/-- `ScheduleCreateTool::execute`, up to the count. -/
def countStep (g : SchedulerState) (user_id : Option String) (request : ScheduleCreateArgs) :
    Except ToolError (SchedulerState × SchedulePhase) := do
  let user_id ← resolveUserId user_id scheduleCreateToolName
  checkScheduleLimit settings g.schedules user_id
  return (g, .creating user_id request)

/-- `ScheduleCreateTool::execute`, from the count on. -/
def insertStep (g : SchedulerState) (user_id : String) (request : ScheduleCreateArgs)
    (schedule_id : String) (validated computed now : UtcDateTime) :
    Except ToolError (SchedulerState × SchedulePhase) := do
  let d ← newDefinition cal settings user_id schedule_id request validated computed now
  let schedules ← failWith scheduleCreateToolName (SchedulerStore.createSchedule g.schedules d)
  return ({ g with schedules, used := schedule_id :: g.used }, .idle)

/-- `ScheduleEditTool::execute`, up to the check of the owner. -/
def getForEditStep (g : SchedulerState) (user_id : Option String) (request : ScheduleEditArgs) :
    Except ToolError (SchedulerState × SchedulePhase) := do
  let user_id ← resolveUserId user_id scheduleEditToolName
  let existing ← ownSchedule g.schedules user_id request.schedule_id scheduleEditToolName
  return (g, .editing request existing)

/-- What an edit with a patch asks for, if it is about the status or the cadence. -/
def SchedulePatch.intent (patch : SchedulePatch) (existing : ScheduleDefinition)
    (computed : UtcDateTime) : Option ScheduleIntent :=
  if patch.status.isSome ∨ patch.cadence.isSome then
    some (.edited {
      status := patch.status.getD existing.status
      cadence := patch.cadence.getD existing.cadence
      computed })
  else none

section

variable (g : SchedulerState)

/-- `ScheduleEditTool::execute`, from the check of the owner on. -/
def updateStep (request : ScheduleEditArgs) (existing : ScheduleDefinition)
    (validated computed now : UtcDateTime) :
    Except ToolError (SchedulerState × SchedulePhase) := do
  let patch ← editPatch cal settings request existing validated computed now
  let schedules ← failWith scheduleEditToolName
    (SchedulerStore.updateSchedule g.schedules request.schedule_id patch)
  let asked := (patch.intent existing computed).map fun intent => (request.schedule_id, intent)
  return ({ g with schedules, intents := asked.toList ++ g.intents }, .idle)

/-- `ScheduleDeleteTool::execute`, up to the check of the owner. -/
def getForDeleteStep (user_id : Option String) (schedule_id : String) :
    Except ToolError (SchedulerState × SchedulePhase) := do
  let user_id ← resolveUserId user_id scheduleDeleteToolName
  let _ ← ownSchedule g.schedules user_id schedule_id scheduleDeleteToolName
  return (g, .deleting schedule_id)

/-- `ScheduleDeleteTool::execute`, from the check of the owner on. -/
def deleteStep (schedule_id : String) :
    Except ToolError (SchedulerState × SchedulePhase) :=
  if g.schedules.any fun d => d.schedule_id = schedule_id then
    .ok ({ g with
      schedules := SchedulerStore.deleteSchedule g.schedules schedule_id
      intents := (schedule_id, .deleted) :: g.intents }, .idle)
  else .error (executionFailed scheduleDeleteToolName ("schedule " ++ schedule_id ++ " not found"))

/-- A call of a tool that fails leaves the tables as they were. -/
def orIdle :
    Except ToolError (SchedulerState × SchedulePhase) → SchedulerState × SchedulePhase
  | .ok next => next
  | .error _ => (g, .idle)

/-- One call of the store. -/
def scheduleStep (phase : SchedulePhase) (act : ScheduleAction) :
    Option (SchedulerState × SchedulePhase) :=
  match phase, act with
  | .idle, .countSchedules user_id request => some (orIdle g (countStep settings g user_id request))
  | .creating user_id request, .createSchedule schedule_id validated computed now =>
    -- `Uuid::new_v4` gives an id that no schedule has had
    if schedule_id ∈ g.used then none
    else some (orIdle g
      (insertStep cal settings g user_id request schedule_id validated computed now))
  | .idle, .getForEdit user_id request => some (orIdle g (getForEditStep g user_id request))
  | .editing request existing, .updateSchedule validated computed now =>
    some (orIdle g (updateStep cal settings g request existing validated computed now))
  | .idle, .getForDelete user_id schedule_id =>
    some (orIdle g (getForDeleteStep g user_id schedule_id))
  | .deleting schedule_id, .deleteSchedule => some (orIdle g (deleteStep g schedule_id))
  | .idle, .dueSchedules schedule_id now =>
    match g.row schedule_id with
    | some d =>
      if d.isDue now.toRfc3339 ∧ schedule_id ∉ g.running then
        some ({ g with running := schedule_id :: g.running }, .executing d)
      else none
    | none => none
  | .executing schedule, .recordRun status finished rescheduled now =>
    let (next_run_at, new_status) := computeReschedule cal settings schedule status rescheduled
    some ({ g with
      schedules := SchedulerStore.recordRunAndReschedule g.schedules schedule.schedule_id status
        finished.toRfc3339 next_run_at new_status now.toRfc3339
      running := g.running.erase schedule.schedule_id
      intents := ((g.intents.lookup schedule.schedule_id).map fun intent =>
        (schedule.schedule_id, intent.withRun schedule status rescheduled)).toList ++ g.intents },
      .idle)
  | _, _ => none

end

/-- Nothing is scheduled, and nobody is at work. -/
def SchedulerInit {ι : Type} (s : Threads ι SchedulerState SchedulePhase) : Prop :=
  s.shared = {} ∧ ∀ i, s.threads i = .idle

/-- All interleavings of the calls of the tools and of the executions. -/
def scheduleSystem {ι : Type} [DecidableEq ι] :
    System (Threads ι SchedulerState SchedulePhase) (ι × ScheduleAction) :=
  interleave SchedulerInit (scheduleStep cal settings)

end

end Oxydra
