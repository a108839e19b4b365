import Oxydra.Runner.LogSnapshots
import Oxydra.Runner.SinceThreshold

/-!
# The files of a snapshot

What `collect_logs_snapshot` gathers of the selected log files (`gathered_eq_some_iff`): of each one
without an error the last lines that are not blank and pass the since filter, and otherwise a
warning. It panics where the since value of a file that is opened cannot be read.
-/

namespace Oxydra

open List Text

/-! ## Files -/

namespace LogFile

variable (file : LogFile)

/-- The error that ends the reading of a file. -/
def error : Option String :=
  match file.content with
  | .error e => some e
  | .ok lines => readError lines

/-- The lines of a file that are text. -/
def lines : List String :=
  match file.content with
  | .error _ => []
  | .ok lines => textLines lines

/-- The threshold of a since value. -/
def threshold (since : Option String) : Option String :=
  since.bind fun since => (parseSinceThreshold file.now since).getD none

/-- The lines that are not blank and pass the filter. -/
def passing (since : Option String) : List String :=
  file.lines.filter fun line =>
    trim line ≠ "" ∧ isBeforeThreshold (file.threshold since) line = false

/-- A file is read without a panic. -/
def Reads (since : Option String) : Prop :=
  ∀ lines value, file.content = .ok lines → since = some value → Splittable value

/-- What is read of a file, where its since value can be split off its unit. -/
theorem readLogFileTail_eq {since : Option String} (h : file.Reads since) (tail : ℕ) :
    readLogFileTail file.now file.content tail since =
      some (match file.error with
        | some e => .error e
        | none => .ok (lastLines tail (file.passing since))) := by
  unfold readLogFileTail error passing lines threshold
  cases hcontent : file.content with
  | error e => rfl
  | ok read =>
    have hkept : ∀ threshold, (keptLines threshold read).map (lastLines tail) =
        match readError read with
        | some e => .error e
        | none => .ok (lastLines tail ((textLines read).filter fun line =>
            trim line ≠ "" ∧ isBeforeThreshold threshold line = false)) := by
      intro threshold
      rw [keptLines_eq]
      cases readError read <;> rfl
    cases hsince : since with
    | none => exact congrArg some (hkept none)
    | some value =>
      obtain ⟨threshold, hparse⟩ := Option.isSome_iff_exists.mp
        ((isSome_parseSinceThreshold_iff file.now value).mpr (h read value hcontent hsince))
      dsimp only
      rw [hparse, Option.bind_some, hparse]
      exact congrArg some (hkept threshold)

theorem isSome_readLogFileTail_iff (since : Option String) (tail : ℕ) :
    (readLogFileTail file.now file.content tail since).isSome ↔ file.Reads since := by
  refine ⟨fun h lines value hcontent hsince => ?_, fun h => ?_⟩
  · rw [← isSome_parseSinceThreshold_iff file.now]
    rw [hcontent, hsince] at h
    unfold readLogFileTail at h
    dsimp only at h
    cases hparse : parseSinceThreshold file.now value with
    | none =>
      rw [hparse] at h
      exact h
    | some threshold => rfl
  · rw [file.readLogFileTail_eq h]
    rfl

end LogFile

/-- A log file that is selected, with the label of its role and the name of its stream. -/
structure SelectedFile where
  role : String
  stream : String
  file : LogFile

/-- The log files that there are of a role and some streams. -/
def filesOf (folder : LogFolder) (role : String) (streams : List String) : List SelectedFile :=
  streams.filterMap fun stream => (folder role stream).map fun file => ⟨role, stream, file⟩

section

variable (startup : RunnerStartup) (request : RunnerControlLogsRequest)

namespace SelectedFile

variable (f : SelectedFile)

/-- The entries of the lines that are not blank and pass the filter. -/
def entries : List RunnerLogEntry :=
  (f.file.passing request.since).map (startup.logEntry f.role f.stream)

/-- The last of them, and none of a file with an error. -/
def shown : List RunnerLogEntry :=
  if f.file.error = none then
    (f.entries startup request).drop
      ((f.entries startup request).length - request.effectiveTail)
  else []

/-- Some of its lines are not among the last. -/
def isCut : Bool :=
  f.file.error = none ∧ request.effectiveTail < (f.entries startup request).length

/-- What is said of a file with an error. -/
def warnings : List String :=
  f.file.error.toList.map fun e =>
    "failed to read " ++ startup.logPath f.role f.stream ++ ": " ++ e

/-- The entries of a file among others. -/
def among (entries : List RunnerLogEntry) : List RunnerLogEntry :=
  entries.filter fun entry => entry.role = f.role ∧ entry.stream = f.stream

end SelectedFile

/-- The log files of a role that is available. -/
def roleFiles (folder : LogFolder) (role : String × Bool) : List SelectedFile :=
  if role.2 then filesOf folder role.1 (RunnerStartup.streams request.stream) else []

/-- What is said of a role and of its files. -/
def roleWarnings (folder : LogFolder) (role : String × Bool) : List String :=
  if role.2 then (roleFiles request folder role).flatMap fun f => f.warnings startup
  else ["no " ++ role.1 ++ " guest is running; skipping"]

/-- The log files that a request selects. -/
def selectedFiles (folder : LogFolder) : List SelectedFile :=
  (startup.roles request.role).flatMap (roleFiles request folder)

/-- The warnings about roles and files. -/
def snapshotWarnings (folder : LogFolder) : List String :=
  (startup.roles request.role).flatMap (roleWarnings startup request folder)

/-! ## What is gathered -/

/-- What is gathered with some more files and warnings. -/
def GatheredLogs.adding (gathered : GatheredLogs) (files : List SelectedFile)
    (warnings : List String) : GatheredLogs where
  entries := gathered.entries ++ files.flatMap fun f => f.shown startup request
  warnings := gathered.warnings ++ warnings
  any_file_truncated := gathered.any_file_truncated || files.any fun f => f.isCut startup request

theorem GatheredLogs.adding_adding (gathered : GatheredLogs) (files files' : List SelectedFile)
    (warnings warnings' : List String) :
    (gathered.adding startup request files warnings).adding startup request files' warnings' =
      gathered.adding startup request (files ++ files') (warnings ++ warnings') := by
  simp [GatheredLogs.adding, append_assoc, Bool.or_assoc]

theorem GatheredLogs.adding_nil (gathered : GatheredLogs) :
    gathered.adding startup request [] [] = gathered := by
  simp [GatheredLogs.adding]

variable {startup request} {folder : LogFolder} {gathered gathered' : GatheredLogs}

/-- What is gathered of one file. -/
theorem collectStream_of_reads {role stream : String} {file : LogFile}
    (hfile : folder role stream = some file) (hreads : file.Reads request.since) :
    startup.collectStream folder request role gathered stream =
      some (gathered.adding startup request [⟨role, stream, file⟩]
        (SelectedFile.warnings startup ⟨role, stream, file⟩)) := by
  unfold RunnerStartup.collectStream
  rw [hfile]
  dsimp only
  rw [file.readLogFileTail_eq hreads]
  unfold GatheredLogs.adding SelectedFile.shown SelectedFile.isCut SelectedFile.warnings
    SelectedFile.entries
  rw [flatMap_singleton, any_cons, any_nil, Bool.or_false]
  cases herror : file.error with
  | some e => simp
  | none => simp [lastLines]

theorem collectStream_of_not_reads {role stream : String} {file : LogFile}
    (hfile : folder role stream = some file) (hreads : ¬file.Reads request.since) :
    startup.collectStream folder request role gathered stream = none := by
  have hnone : readLogFileTail file.now file.content request.effectiveTail request.since = none := by
    rw [← Option.not_isSome_iff_eq_none, file.isSome_readLogFileTail_iff]
    exact hreads
  unfold RunnerStartup.collectStream
  rw [hfile]
  dsimp only
  rw [hnone]
  rfl

theorem collectStream_eq_some_iff {role stream : String} :
    startup.collectStream folder request role gathered stream = some gathered' ↔
      (∀ f ∈ filesOf folder role [stream], f.file.Reads request.since) ∧
        gathered' = gathered.adding startup request (filesOf folder role [stream])
          ((filesOf folder role [stream]).flatMap fun f => f.warnings startup) := by
  cases hfile : folder role stream with
  | none =>
    have hfiles : filesOf folder role [stream] = [] := by simp [filesOf, hfile]
    rw [hfiles, flatMap_nil, GatheredLogs.adding_nil, RunnerStartup.collectStream, hfile]
    simp [eq_comm]
  | some file =>
    have hfiles : filesOf folder role [stream] = [⟨role, stream, file⟩] := by
      simp [filesOf, hfile]
    rw [hfiles, forall_mem_singleton, flatMap_singleton]
    by_cases hreads : file.Reads request.since
    · rw [collectStream_of_reads hfile hreads, Option.some.injEq, and_iff_right hreads, eq_comm]
    · rw [collectStream_of_not_reads hfile hreads]
      exact iff_of_false nofun fun h => hreads h.1

/-- A loop of steps that add files and warnings, unless a file is not read. -/
theorem foldlM_eq_some_iff {α : Type} {step : GatheredLogs → α → Option GatheredLogs}
    {files : α → List SelectedFile} {warnings : α → List String}
    (hstep : ∀ gathered x gathered', step gathered x = some gathered' ↔
      (∀ f ∈ files x, f.file.Reads request.since) ∧
        gathered' = gathered.adding startup request (files x) (warnings x)) (xs : List α) :
    xs.foldlM step gathered = some gathered' ↔
      (∀ f ∈ xs.flatMap files, f.file.Reads request.since) ∧
        gathered' = gathered.adding startup request (xs.flatMap files) (xs.flatMap warnings) := by
  induction xs generalizing gathered with
  | nil =>
    rw [foldlM_nil, flatMap_nil, flatMap_nil, GatheredLogs.adding_nil]
    simp [eq_comm]
  | cons x xs ih =>
    rw [foldlM_cons, Option.bind_eq_bind, Option.bind_eq_some_iff, flatMap_cons,
      flatMap_cons, forall_mem_append]
    simp only [hstep, ih]
    constructor
    · rintro ⟨_, ⟨hfirst, rfl⟩, hrest, rfl⟩
      exact ⟨⟨hfirst, hrest⟩, GatheredLogs.adding_adding ..⟩
    · rintro ⟨⟨hfirst, hrest⟩, rfl⟩
      exact ⟨_, ⟨hfirst, rfl⟩, hrest, (GatheredLogs.adding_adding ..).symm⟩

theorem filesOf_eq_flatMap (role : String) (streams : List String) :
    filesOf folder role streams = streams.flatMap fun stream => filesOf folder role [stream] := by
  induction streams with
  | nil => rfl
  | cons stream streams ih =>
    rw [flatMap_cons, ← ih, ← singleton_append, filesOf, filterMap_append]
    rfl

theorem collectRole_eq_some_iff {role : String × Bool} :
    startup.collectRole folder request gathered role = some gathered' ↔
      (∀ f ∈ roleFiles request folder role, f.file.Reads request.since) ∧
        gathered' = gathered.adding startup request (roleFiles request folder role)
          (roleWarnings startup request folder role) := by
  unfold RunnerStartup.collectRole roleWarnings roleFiles
  split_ifs with havailable
  · have hstep : ∀ gathered stream gathered',
        startup.collectStream folder request role.1 gathered stream = some gathered' ↔ _ :=
      fun _ _ _ => collectStream_eq_some_iff
    rw [foldlM_eq_some_iff hstep, filesOf_eq_flatMap, flatMap_assoc]
  · simp [GatheredLogs.adding, eq_comm]

/-- All files are read, or the collection panics. -/
theorem gathered_eq_some_iff :
    (startup.roles request.role).foldlM (startup.collectRole folder request) {} = some gathered' ↔
      (∀ f ∈ selectedFiles startup request folder, f.file.Reads request.since) ∧
        gathered' = {
          entries := (selectedFiles startup request folder).flatMap fun f =>
            f.shown startup request
          warnings := snapshotWarnings startup request folder
          any_file_truncated := (selectedFiles startup request folder).any fun f =>
            f.isCut startup request } := by
  have hstep : ∀ gathered role gathered',
      startup.collectRole folder request gathered role = some gathered' ↔ _ :=
    fun _ _ _ => collectRole_eq_some_iff
  rw [foldlM_eq_some_iff hstep]
  simp [GatheredLogs.adding, selectedFiles, snapshotWarnings]

end

end Oxydra
