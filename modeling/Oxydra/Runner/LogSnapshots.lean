import Oxydra.Library.JsonText
import Oxydra.Runner.ControlServer
import Oxydra.Runner.LogFiles

/-!
# Snapshots of the logs

`RunnerStartup::collect_logs_snapshot` of `crates/runner/src/lib.rs`: the last lines of each
selected log file, of these the last entries over all files, and of those the first that fit a
payload by an estimate of their size. `responseText` is the response as `serde_json` writes it.
-/

namespace Oxydra

/-- `RunnerControlLogsRequest::effective_tail`, with `LOG_TAIL_DEFAULT` and `LOG_TAIL_MAX`. -/
def RunnerControlLogsRequest.effectiveTail (request : RunnerControlLogsRequest) : ℕ :=
  min (request.tail.getD 200) 1000

/-- A log file: the lines that are read of it, or the error of opening it, and the time of the clock
while it is read. -/
structure LogFile where
  now : SystemTime
  content : Except String (List (Except String String))
  deriving DecidableEq

/-- The log files of a folder, by the label of the role and the name of the stream. -/
abbrev LogFolder : Type := String → String → Option LogFile

/-- What is collected from file to file. -/
structure GatheredLogs where
  entries : List RunnerLogEntry := []
  warnings : List String := []
  any_file_truncated : Bool := false

namespace RunnerStartup

variable (startup : RunnerStartup)

/-- `log_source_for_role`. -/
def logSourceForRole (role_label : String) : LogSource :=
  let handle : Option Guest :=
    if role_label = "shell-vm" then startup.launch.sidecar else some startup.launch.runtime
  match handle with
  | some guest =>
    match guest.handle.lifecycle with
    | .dockerContainer _ => .dockerApi
    | _ => .processFile
  | none => .processFile

/-- The labels of the roles that a request asks for, and whether they are available. -/
def roles : LogRole → List (String × Bool)
  | .runtime => [("oxydra-vm", true)]
  | .sidecar => [("shell-vm", startup.launch.sidecar.isSome)]
  | .all => [("oxydra-vm", true), ("shell-vm", startup.launch.sidecar.isSome)]

/-- The names of the streams that a request asks for. -/
def streams : LogStream → List String
  | .stdout => ["stdout"]
  | .stderr => ["stderr"]
  | .both => ["stdout", "stderr"]

/-- The path of a log file. -/
def logPath (role_label stream_name : String) : String :=
  startup.log_dir ++ "/" ++ role_label ++ "." ++ stream_name ++ ".log"

/-- The entry of a line. -/
def logEntry (role_label stream_name line : String) : RunnerLogEntry where
  timestamp := extractTimestamp line
  source := startup.logSourceForRole role_label
  role := role_label
  stream := stream_name
  message := stripTimestamp line

/-- The inner loop of `collect_logs_snapshot`, or `none` where it panics. -/
def collectStream (folder : LogFolder) (request : RunnerControlLogsRequest) (role_label : String)
    (collected : GatheredLogs) (stream_name : String) : Option GatheredLogs :=
  match folder role_label stream_name with
  | none => some collected
  | some file => do
    match ← readLogFileTail file.now file.content request.effectiveTail request.since with
    | .ok (lines, file_truncated) =>
      return { collected with
        entries := collected.entries ++ lines.map (startup.logEntry role_label stream_name)
        any_file_truncated := collected.any_file_truncated || file_truncated }
    | .error e =>
      return { collected with
        warnings := collected.warnings ++
          ["failed to read " ++ startup.logPath role_label stream_name ++ ": " ++ e] }

/-- The outer loop of `collect_logs_snapshot`. -/
def collectRole (folder : LogFolder) (request : RunnerControlLogsRequest) (collected : GatheredLogs)
    (role : String × Bool) : Option GatheredLogs :=
  if role.2 then
    (streams request.stream).foldlM (startup.collectStream folder request role.1) collected
  else
    some { collected with
      warnings := collected.warnings ++ ["no " ++ role.1 ++ " guest is running; skipping"] }

end RunnerStartup

/-- The estimate of the bytes of an entry. -/
def RunnerLogEntry.estimatedBytes (entry : RunnerLogEntry) : ℕ :=
  entry.message.utf8ByteSize + entry.role.utf8ByteSize + entry.stream.utf8ByteSize + 128

/-- `MAX_PAYLOAD_BYTES`. -/
def maxPayloadBytes : ℕ := 120 * 1024

/-- How many entries fit the payload after the ones with an estimate of `total_bytes`. -/
def payloadKeep (total_bytes : ℕ) : List RunnerLogEntry → ℕ
  | [] => 0
  | entry :: rest =>
    if maxPayloadBytes < total_bytes + entry.estimatedBytes then 0
    else payloadKeep (total_bytes + entry.estimatedBytes) rest + 1

/-- `collect_logs_snapshot`, or `none` where it panics. -/
def RunnerStartup.collectLogsSnapshot (startup : RunnerStartup) (folder : LogFolder)
    (request : RunnerControlLogsRequest) : Option RunnerControlLogsResponse := do
  let tail := request.effectiveTail
  let collected ← (startup.roles request.role).foldlM (startup.collectRole folder request) {}
  let global_truncated := decide (tail < collected.entries.length)
  let entries := collected.entries.drop (collected.entries.length - tail)
  let keep := payloadKeep 0 entries
  let payload_truncated := decide (keep < entries.length)
  return {
    entries := entries.take keep
    truncated := collected.any_file_truncated || global_truncated || payload_truncated
    warnings := collected.warnings }

/-! ## The response as a text -/

/-- The name of a source. -/
def LogSource.name : LogSource → String
  | .processFile => "process_file"
  | .dockerApi => "docker_api"

/-- An entry as JSON; a missing timestamp is left out. -/
def RunnerLogEntry.text (entry : RunnerLogEntry) : List Char :=
  JsonSize.object ((entry.timestamp.map fun ts => ("timestamp", JsonSize.string ts)).toList ++
    [("source", JsonSize.string entry.source.name), ("role", JsonSize.string entry.role),
      ("stream", JsonSize.string entry.stream), ("message", JsonSize.string entry.message)])

/-- A truth value as JSON. -/
def boolText (b : Bool) : List Char := if b then "true".toList else "false".toList

/-- The response as JSON; no warnings are left out. -/
def RunnerControlLogsResponse.text (response : RunnerControlLogsResponse) : List Char :=
  JsonSize.object ([("entries", JsonSize.array (response.entries.map RunnerLogEntry.text)),
    ("truncated", boolText response.truncated)] ++
      if response.warnings = [] then []
      else [("warnings", JsonSize.array (response.warnings.map JsonSize.string))])

/-- The bytes of the response. -/
def RunnerControlLogsResponse.encodedBytes (response : RunnerControlLogsResponse) : ℕ :=
  (String.ofList response.text).utf8ByteSize

end Oxydra
