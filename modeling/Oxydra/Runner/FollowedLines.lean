import Oxydra.Library.Kept
import Oxydra.Runner.SnapshotFrames

/-!
# The lines that log following prints

`server_logs_follow` of `crates/runner/src/main.rs` prints a snapshot of the logs, and then of each
poll the entries that it has not seen. The hash of an entry is taken as the fields that are hashed.
What is printed to the standard error is left out.

It knows a line by its content, in a set that is emptied when it is large, and polls for the last
hundred entries of all files. So it prints each appended line once in runs where each poll has the
appended lines of every file behind lines that are in the set, and these are new in it
(`followRight_of_polls`).
-/

namespace Oxydra

open List Unseen

variable {before : LogFolder} {role stream : String}

/-! ## Following -/

/-- What `entry_hash` hashes of an entry. -/
structure EntryKey where
  timestamp : Option String
  role : String
  stream : String
  message : String
  deriving DecidableEq, Repr

/-- `entry_hash`, which is taken as injective. -/
def entryHash (entry : RunnerLogEntry) : EntryKey where
  timestamp := entry.timestamp
  role := entry.role
  stream := entry.stream
  message := entry.message

/-- What a poll comes to. -/
inductive PollResult where
  /-- There is no socket, or the connection is refused. -/
  | exited
  /-- The poll fails, or the response is not one of logs. -/
  | unanswered
  | logs (response : RunnerControlLogsResponse)
  deriving DecidableEq

/-- The hashes in `seen`, and the entries that were printed. -/
structure Follower where
  seen : List EntryKey := []
  printed : List RunnerLogEntry := []
  deriving DecidableEq

namespace Follower

variable (follower : Follower)

/-- `seen.insert` of an entry, which is printed in any case. -/
def printFirst (entry : RunnerLogEntry) : Follower where
  seen := if entryHash entry ∈ follower.seen then follower.seen
    else entryHash entry :: follower.seen
  printed := follower.printed ++ [entry]

/-- An entry is printed if its hash is new in `seen`. -/
def printUnseen (entry : RunnerLogEntry) : Follower :=
  if entryHash entry ∈ follower.seen then follower
  else ⟨entryHash entry :: follower.seen, follower.printed ++ [entry]⟩

/-- `seen` is cleared when it gets large. -/
def clearLarge : Follower :=
  if 10000 < follower.seen.length then { follower with seen := [] } else follower

/-- A pass through the poll loop with the response of a poll. -/
def poll (response : RunnerControlLogsResponse) : Follower :=
  (response.entries.foldl printUnseen follower).clearLarge

/-- The poll loop. -/
def pollLoop : Follower → List PollResult → Follower
  | follower, [] | follower, .exited :: _ => follower
  | follower, .unanswered :: rest => pollLoop follower rest
  | follower, .logs response :: rest => pollLoop (follower.poll response) rest

end Follower

/-- What is printed first, where the response is one of logs. -/
def followStart : Option RunnerControlLogsResponse → Follower
  | some logs => logs.entries.foldl Follower.printFirst {}
  | none => {}

/-- `poll_request`. -/
def RunnerControlLogsRequest.polling (request : RunnerControlLogsRequest) :
    RunnerControlLogsRequest :=
  { request with tail := some 100, since := none }

/-- `server_logs_follow` after some polls. -/
def serverLogsFollow (initial : Option RunnerControlLogsResponse) (polls : List PollResult) :
    Follower :=
  (followStart initial).pollLoop polls

/-! ## Runs -/

/-- The lines of a log file. -/
def fileLines (folder : LogFolder) (role stream : String) : List String :=
  match folder role stream with
  | some file => file.lines
  | none => []

/-- The entries of a log file among others. -/
def ofFile (role stream : String) (entries : List RunnerLogEntry) : List RunnerLogEntry :=
  entries.filter fun entry => entry.role = role ∧ entry.stream = stream

/-- A log file that is asked for. -/
def RunnerStartup.Selects (startup : RunnerStartup) (request : RunnerControlLogsRequest)
    (role stream : String) : Prop :=
  (role, true) ∈ startup.roles request.role ∧ stream ∈ RunnerStartup.streams request.stream

/-- A run of log following: the log files at the first request, and those at each poll that is
answered. -/
structure FollowRun where
  startup : RunnerStartup
  request : RunnerControlLogsRequest
  first : LogFolder
  polls : List (Option LogFolder)

namespace FollowRun

variable (run : FollowRun)

/-- The entries of the lines that are appended to a log file from one time to another. -/
def appended (before after : LogFolder) (role stream : String) : List RunnerLogEntry :=
  ((fileLines after role stream).drop (fileLines before role stream).length).map
    (run.startup.logEntry role stream)

/-- The result of a poll. -/
def result : Option LogFolder → PollResult
  | none => .unanswered
  | some folder =>
    match run.startup.collectLogsSnapshot folder run.request.polling with
    | some response => .logs response
    | none => .unanswered

/-- What is printed after some polls. -/
def follow (initial : RunnerControlLogsResponse) (polls : List (Option LogFolder)) : Follower :=
  serverLogsFollow (some initial) (polls.map run.result)

/-- The log files at the last answer. -/
def lastFolder (polls : List (Option LogFolder)) : LogFolder :=
  polls.foldl (fun folder poll => poll.getD folder) run.first

/-- After each poll, what is printed of a log file are the entries of the first snapshot and those
of the lines that are appended since then. -/
def FollowRight : Prop :=
  ∀ initial, run.startup.collectLogsSnapshot run.first run.request = some initial →
    ∀ polls, polls <+: run.polls → ∀ role stream, run.startup.Selects run.request role stream →
      ofFile role stream (run.follow initial polls).printed =
        ofFile role stream initial.entries ++
          run.appended run.first (run.lastFolder polls) role stream

/-- What a poll needs of a log file: it has grown by whole lines; what the snapshot has of it are
entries that were seen and then the appended ones; and these are not seen, nor equal. -/
structure FileRight (seen : List EntryKey) (before after : LogFolder) (role stream : String) :
    Prop where
  grows : fileLines before role stream <+: fileLines after role stream
  known : ∀ n, IsGreatest (fittingCounts (recentEntries run.startup run.request.polling after)) n →
    ∃ old, ofFile role stream ((recentEntries run.startup run.request.polling after).take n) =
      old ++ run.appended before after role stream ∧ ∀ entry ∈ old, entryHash entry ∈ seen
  fresh : ∀ entry ∈ run.appended before after role stream, entryHash entry ∉ seen
  differ : ((run.appended before after role stream).map entryHash).Nodup

/-- Each poll that is answered finds the log files right. -/
def PollsRight : Follower → LogFolder → List (Option LogFolder) → Prop
  | _, _, [] => True
  | follower, before, none :: rest => PollsRight follower before rest
  | follower, before, some after :: rest =>
    (∀ role stream, run.startup.Selects run.request role stream →
      run.FileRight follower.seen before after role stream) ∧
    PollsRight (follower.pollLoop [run.result (some after)]) after rest

end FollowRun

/-! ## What a poll prints -/

namespace Follower

theorem printed_foldl_printUnseen (follower : Follower) (entries : List RunnerLogEntry) :
    (entries.foldl printUnseen follower).printed =
      follower.printed ++ unseen entryHash follower.seen entries := by
  induction entries generalizing follower with
  | nil => exact (append_nil _).symm
  | cons entry entries ih =>
    rw [foldl_cons, ih, unseen, printUnseen]
    split_ifs
    · rfl
    · rw [append_assoc]
      rfl

theorem printed_clearLarge (follower : Follower) :
    follower.clearLarge.printed = follower.printed := by
  unfold clearLarge
  split_ifs <;> rfl

theorem printed_foldl_printFirst (follower : Follower) (entries : List RunnerLogEntry) :
    (entries.foldl printFirst follower).printed = follower.printed ++ entries := by
  induction entries generalizing follower with
  | nil => exact (append_nil _).symm
  | cons entry entries ih =>
    rw [foldl_cons, ih]
    exact append_assoc _ [entry] entries

end Follower

namespace FollowRun

variable (run : FollowRun)

/-- A poll that is answered has as many recent entries as fit. -/
theorem result_some (after : LogFolder) : ∃ response, run.result (some after) = .logs response ∧
    response.entries = (recentEntries run.startup run.request.polling after).take
      (payloadKeep 0 (recentEntries run.startup run.request.polling after)) := by
  have hreads : ∀ f ∈ selectedFiles run.startup run.request.polling after,
      f.file.Reads run.request.polling.since := fun _ _ _ _ _ => nofun
  obtain ⟨response, hsnapshot, hentries⟩ : ∃ response,
      run.startup.collectLogsSnapshot after run.request.polling = some response ∧
        response.entries = (recentEntries run.startup run.request.polling after).take
          (payloadKeep 0 (recentEntries run.startup run.request.polling after)) :=
    ⟨_, collectLogsSnapshot_eq hreads, rfl⟩
  refine ⟨response, ?_, hentries⟩
  unfold result
  dsimp only
  rw [hsnapshot]

variable {run}

/-- Growth from one time to another and on to a third. -/
theorem appended_trans {before between after : LogFolder}
    (h : fileLines before role stream <+: fileLines between role stream)
    (h' : fileLines between role stream <+: fileLines after role stream) :
    run.appended before after role stream =
      run.appended before between role stream ++ run.appended between after role stream := by
  obtain ⟨more, hmore⟩ := h
  obtain ⟨rest, hrest⟩ := h'
  unfold appended
  rw [← map_append, ← hrest, ← hmore, append_assoc, drop_left, drop_left,
    ← append_assoc, drop_left]

/-- A poll prints the appended lines of a file that is right for it. -/
theorem ofFile_poll {follower : Follower} {before after : LogFolder}
    (h : run.FileRight follower.seen before after role stream) :
    ofFile role stream (follower.pollLoop [run.result (some after)]).printed =
      ofFile role stream follower.printed ++ run.appended before after role stream := by
  obtain ⟨response, hresult, hentries⟩ := run.result_some after
  obtain ⟨old, hkept, hold⟩ := h.known _ (isGreatest_payloadKeep _)
  have hprinted : (follower.pollLoop [run.result (some after)]).printed =
      follower.printed ++ unseen entryHash follower.seen response.entries := by
    rw [hresult]
    exact (Follower.printed_clearLarge _).trans (Follower.printed_foldl_printUnseen _ _)
  have hlabels : ∀ x y : RunnerLogEntry, entryHash x = entryHash y →
      decide (x.role = role ∧ x.stream = stream) = decide (y.role = role ∧ y.stream = stream) := by
    intro x y hsame
    have hrole : x.role = y.role := congrArg EntryKey.role hsame
    have hstream : x.stream = y.stream := congrArg EntryKey.stream hsame
    rw [hrole, hstream]
  have hunseen : ofFile role stream (unseen entryHash follower.seen response.entries) =
      unseen entryHash follower.seen (ofFile role stream response.entries) :=
    filter_unseen hlabels _ _
  rw [hprinted, ofFile, filter_append]
  change _ ++ ofFile role stream _ = _
  rw [hunseen, hentries, hkept, unseen_append hold, unseen_of_fresh h.differ h.fresh]
  rfl

/-- In a run of polls that are right, what is appended from the first to the last answer is printed:
by induction on the polls. -/
theorem pollLoop_prints {follower : Follower} {polls : List (Option LogFolder)}
    (h : run.PollsRight follower before polls)
    (hselected : run.startup.Selects run.request role stream) :
    fileLines before role stream <+:
        fileLines (polls.foldl (fun folder poll => poll.getD folder) before) role stream ∧
      ofFile role stream (follower.pollLoop (polls.map run.result)).printed =
        ofFile role stream follower.printed ++ run.appended before
          (polls.foldl (fun folder poll => poll.getD folder) before) role stream := by
  induction polls generalizing follower before with
  | nil =>
    refine ⟨prefix_rfl, ?_⟩
    rw [foldl_nil, appended, drop_length]
    exact (append_nil _).symm
  | cons poll polls ih =>
    cases poll with
    | none => exact ih h
    | some after =>
      obtain ⟨hfiles, hrest⟩ := h
      have hfile := hfiles role stream hselected
      obtain ⟨hgrows, hprints⟩ := ih hrest
      rw [foldl_cons, Option.getD_some]
      refine ⟨hfile.grows.trans hgrows, ?_⟩
      obtain ⟨response, hresult, -⟩ := run.result_some after
      have hstep : follower.pollLoop ((some after :: polls).map run.result) =
          (follower.pollLoop [run.result (some after)]).pollLoop (polls.map run.result) := by
        rw [map_cons, hresult]
        rfl
      rw [hstep, hprints, ofFile_poll hfile, append_assoc, ← appended_trans hfile.grows hgrows]

theorem pollsRight_of_append {follower : Follower} {polls rest : List (Option LogFolder)}
    (h : run.PollsRight follower before (polls ++ rest)) :
    run.PollsRight follower before polls := by
  induction polls generalizing follower before with
  | nil => trivial
  | cons poll polls ih =>
    cases poll with
    | none => exact ih h
    | some after => exact ⟨h.1, ih h.2⟩

end FollowRun

/-- The log of a runtime with some lines. -/
def runtimeLog (lines : List String) : LogFolder := fun role stream =>
  if role = "oxydra-vm" ∧ stream = "stdout" then
    some ⟨.unixEpoch, .ok (lines.map .ok)⟩
  else none

/-- A runtime that has written some lines at the first request, and others at the polls that are
answered. -/
def writingRun (before : List String) (polls : List (Option (List String))) : FollowRun :=
  ⟨processStartup, {}, runtimeLog before, polls.map (·.map runtimeLog)⟩

/-- The first snapshot of a runtime that has written one line. -/
def oneLineSnapshot (line : String) : RunnerControlLogsResponse :=
  ⟨[processStartup.logEntry "oxydra-vm" "stdout" line], false, []⟩

namespace FollowRun

/-- In a run whose polls find the log files right, each appended line is printed once. -/
theorem followRight_of_polls (run : FollowRun)
    (h : ∀ initial, run.startup.collectLogsSnapshot run.first run.request = some initial →
      run.PollsRight (followStart (some initial)) run.first run.polls) : run.FollowRight := by
  rintro initial hinitial polls ⟨rest, hpolls⟩ role stream hselected
  have hright := h initial hinitial
  rw [← hpolls] at hright
  have hprints := (pollLoop_prints (pollsRight_of_append hright) hselected).2
  have hfirst : (followStart (some initial)).printed = initial.entries :=
    Follower.printed_foldl_printFirst {} initial.entries
  rw [hfirst] at hprints
  exact hprints

/-- As many entries as fit are a number that can be computed. -/
theorem fileRight_of_kept {run : FollowRun} {seen : List EntryKey} {after : LogFolder}
    (old : List RunnerLogEntry)
    (hgrows : fileLines before role stream <+: fileLines after role stream)
    (hkept : ofFile role stream ((recentEntries run.startup run.request.polling after).take
      (payloadKeep 0 (recentEntries run.startup run.request.polling after))) =
        old ++ run.appended before after role stream)
    (hold : ∀ entry ∈ old, entryHash entry ∈ seen)
    (hfresh : ∀ entry ∈ run.appended before after role stream, entryHash entry ∉ seen)
    (hdiffer : ((run.appended before after role stream).map entryHash).Nodup) :
    run.FileRight seen before after role stream := by
  refine ⟨hgrows, fun n hn => ?_, hfresh, hdiffer⟩
  obtain rfl := hn.unique (isGreatest_payloadKeep _)
  exact ⟨old, hkept, hold⟩

/-- Polls that each have the old lines and a new one, with an unanswered one between them. -/
theorem newLines_printed : (writingRun ["started"]
    [some ["started", "ready"], none, some ["started", "ready", "stopped"]]).FollowRight := by
  refine followRight_of_polls _ fun initial hinitial => ?_
  have hfirst : processStartup.collectLogsSnapshot (runtimeLog ["started"]) {} =
      some (oneLineSnapshot "started") := by decide +kernel
  obtain rfl : oneLineSnapshot "started" = initial := Option.some.inj (hfirst.symm.trans hinitial)
  have hfiles : ∀ {role stream : String}, processStartup.Selects {} role stream →
      role = "oxydra-vm" ∧ (stream = "stdout" ∨ stream = "stderr") := by
    rintro role stream ⟨hrole, hstream⟩
    exact ⟨by simpa [RunnerStartup.roles] using hrole,
      by simpa [RunnerStartup.streams] using hstream⟩
  let entry := processStartup.logEntry "oxydra-vm" "stdout"
  refine ⟨fun role stream hselected => ?_, fun role stream hselected => ?_, trivial⟩
  · obtain ⟨rfl, rfl | rfl⟩ := hfiles hselected
    · exact fileRight_of_kept [entry "started"] (by decide +kernel) (by decide +kernel)
        (by decide +kernel) (by decide +kernel) (by decide +kernel)
    · exact fileRight_of_kept [] (by decide +kernel) (by decide +kernel) (by decide +kernel)
        (by decide +kernel) (by decide +kernel)
  · obtain ⟨rfl, rfl | rfl⟩ := hfiles hselected
    · exact fileRight_of_kept [entry "started", entry "ready"] (by decide +kernel)
        (by decide +kernel) (by decide +kernel) (by decide +kernel) (by decide +kernel)
    · exact fileRight_of_kept [] (by decide +kernel) (by decide +kernel) (by decide +kernel)
        (by decide +kernel) (by decide +kernel)

/-- A line that is the same as one before is not printed. -/
theorem repeatedLine_lost :
    (∀ role stream, fileLines (runtimeLog ["tick"]) role stream <+:
      fileLines (runtimeLog ["tick", "tick"]) role stream) ∧
    ((writingRun [] []).appended (runtimeLog ["tick"]) (runtimeLog ["tick", "tick"])
      "oxydra-vm" "stdout").length < 100 ∧
    ¬(writingRun ["tick"] [some ["tick", "tick"]]).FollowRight := by
  refine ⟨fun role stream => ?_, by decide +kernel, fun h => ?_⟩
  · unfold fileLines runtimeLog
    split_ifs
    · exact ⟨["tick"], rfl⟩
    · exact prefix_rfl
  · have hfirst : processStartup.collectLogsSnapshot (runtimeLog ["tick"]) {} =
        some (oneLineSnapshot "tick") := by decide +kernel
    have hprinted := h _ hfirst _ prefix_rfl "oxydra-vm" "stdout"
      ⟨by decide, by decide⟩
    revert hprinted
    decide +kernel

end FollowRun

end Oxydra
