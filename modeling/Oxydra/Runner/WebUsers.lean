import Oxydra.Library.TextSearch
import Oxydra.Library.UnixPath
import Oxydra.Runner.ConfigMigration
import Oxydra.Runner.RegisteredUsers

/-!
# Web requests that create, rename, and delete users

`create_user`, `rename_user`, and `delete_user` of `crates/runner/src/web/config_write.rs`, with what
they use of `web/state.rs` and of `load_runner_global_config`. Each call to the operating system may
fail, and one that is made twice may fail the second time only: the calls are told apart by the step
of the request that makes them.

A path is read as its text is; a path that ends in `..` has that as the name of a file.
-/

namespace Oxydra

open Toml Effect

/-- A part of a path as it is written. -/
def partText : UnixPath.Part → String
  | .self => "."
  | .up => ".."
  | .name name => name

/-- The file at a path text; the root has no name. -/
def FilePath.ofText (text : String) : FilePath :=
  let path := UnixPath.parse text
  let parts := path.components.map partText
  ⟨(if path.absolute then "/" else "") ++ String.intercalate "/" parts.dropLast,
    parts.getLast?.getD ""⟩

/-- What a request calls the operating system for. -/
inductive WebStep where
  | migrate
  | load
  | target
  | directory
  | prepare
  | userFile
  | persist
  | undo
  deriving DecidableEq

/-- The readings of the clock of a request. -/
structure WebTimes where
  migration : MigrationTimes
  user_file : ℤ
  persist : PatchTimes

/-- `WebState`, and what the requests use besides. -/
structure WebServer where
  config_path : FilePath
  /-- The configuration from when the server was started. -/
  global_config : Datum
  toml : TomlCrate
  /-- `RunnerGlobalConfig::validate`. -/
  validate : Datum → Except String Unit
  host : WebStep → FileHost
  now : WebTimes

/-- What a request does to the files, if it is not answered with an error. -/
abbrev WebM := EStateM ErrorResponse ConfigFiles

/-- An early return with an error. -/
def refuseIf (c : Prop) [Decidable c] (error : ErrorResponse) : WebM Unit :=
  if c then throw error else pure ()

/-- `let _ = ...`. -/
def ignore (x : FileM Unit) : WebM Unit := (attempt x).adaptExcept configWriteFailed

/-- What is done where a computation fails, before its error is answered. -/
def compensated {α : Type} (x : WebM α) (undo : WebM Unit) : WebM α :=
  tryCatch x fun error => do
    undo
    throw error

/-- `RunnerError`, of loading. -/
inductive LoadError where
  | migration (error : MigrationError)
  | readConfig (path : FilePath) (source : String)
  | parseGlobalConfig (path : FilePath) (source : String)
  | invalid (message : String)

namespace WebServer

/-- `not_found`. -/
def notFound (message : String) : ErrorResponse := ⟨404, "not_found", message⟩

/-- `validate_user_id` of `config_write.rs`. -/
def validateUserId (user_id : String) : Except String String :=
  let trimmed := Text.trim user_id
  if trimmed = "" ∨ Text.contains "/" trimmed ∨ Text.contains "\\" trimmed ∨
      Text.contains ".." trimmed then
    .error (s!"invalid user_id `{trimmed}`: value must not be empty and cannot contain `/`, `\\`, " ++
      "or `..`")
  else .ok trimmed

/-- The registration of a user, or the error that there is none. -/
def registrationOf (config : Datum) (user_id : String) : Except ErrorResponse String :=
  match userConfigPath config user_id with
  | some config_path => .ok config_path
  | none => .error (notFound s!"User `{user_id}` is not registered")

variable (server : WebServer)

/-- `resolve_user_config_path`. -/
def resolveUserConfigPath (configured_path : String) : FilePath :=
  if (UnixPath.parse configured_path).absolute ∨ server.config_path.parent = "" then
    FilePath.ofText configured_path
  else FilePath.ofText (server.config_path.parent ++ "/" ++ configured_path)

/-- `load_runner_global_config`. -/
def loadRunnerGlobalConfig : EStateM LoadError ConfigFiles Datum := do
  let _ ← (migrateConfigFileIfNeeded (server.host .migrate) server.now.migration server.toml
    server.config_path .global).adaptExcept .migration
  let contents ← ((server.host .load).readToString server.config_path).adaptExcept
    (.readConfig server.config_path)
  let config ← Effect.ofExcept ((server.toml.fromStr runnerGlobalConfig.schema contents).mapError
    (.parseGlobalConfig server.config_path))
  Effect.ofExcept ((server.validate config).mapError .invalid)
  return config

/-- `latest_global_config_or_cached`. -/
def latestGlobalConfigOrCached : WebM Datum := fun files =>
  match server.loadRunnerGlobalConfig files with
  | .ok config files' => .ok config files'
  | .error _ files' => .ok server.global_config files'

/-- `Path::exists`, in a step. -/
def pathExists (step : WebStep) (path : FilePath) : WebM Bool :=
  ((server.host step).pathExists path).adaptExcept configWriteFailed

/-- The directory of a user configuration file is created. -/
def createUserDirectory (path : FilePath) : WebM Unit := do
  refuseIf (path.file_name = "")
    (configWriteFailed s!"cannot determine parent directory for `{path.display}`")
  ((server.host .directory).createDirAll path.parent).adaptExcept fun error =>
    configWriteFailed s!"failed to create user config directory `{path.parent}`: {error}"

/-- `prepare_patch`, of a `runner_patch`. -/
def prepareRunnerPatch (changes : List (String × Option String)) : WebM PreparedPatch :=
  preparePatchOf (server.host .prepare) server.config_path server.toml runnerGlobalConfig
    server.validate (usersPatch changes)

/-- `persist_patch`, of the runner configuration. -/
def persistRunnerPatch (prepared : PreparedPatch) : WebM (Option FilePath) :=
  persistPatch (server.host .persist) server.now.persist server.config_path prepared

end WebServer

/-! ## The requests -/

structure CreateUserRequest where
  user_id : String
  config_path : String

structure RenameUserRequest where
  old_user_id : String
  new_user_id : String
  new_config_path : String

structure CreateUserResponse where
  user_id : String
  config_path : String
  backup_path : Option String

structure RenameUserResponse where
  user_id : String
  config_path : String
  previous_user_id : String
  previous_config_path : String
  backup_path : Option String

structure DeleteUserResponse where
  user_id : String
  deleted_config_file : Bool
  backup_path : Option String

/-- The text of `RunnerUserConfig::default()`. -/
def defaultUserToml (toml : TomlCrate) : Except String String :=
  toml.pretty (nestedTable (runnerUserConfig.schema.write runnerUserConfig.default))

namespace WebServer

variable (server : WebServer)

/-- `create_user`, once the fields are checked. -/
def createUserAt (user_id config_path : String) : WebM CreateUserResponse := do
  let runner_snapshot ← server.latestGlobalConfigOrCached
  refuseIf (userConfigPath runner_snapshot user_id).isSome
    (invalidRequest s!"User `{user_id}` is already registered")
  let user_config_path := server.resolveUserConfigPath config_path
  let target_exists ← server.pathExists .target user_config_path
  refuseIf target_exists
    (invalidRequest s!"User config file already exists at `{user_config_path.display}`")
  server.createUserDirectory user_config_path
  let user_toml ← Effect.ofExcept ((defaultUserToml server.toml).mapError fun error =>
    configWriteFailed s!"failed to serialize default user config: {error}")
  (atomicWrite (server.host .userFile) server.now.user_file user_config_path
    user_toml).adaptExcept fun error =>
      configWriteFailed s!"failed to create user config `{user_config_path.display}`: {error}"
  let undo := ignore ((server.host .undo).removeFile user_config_path)
  let prepared_runner ← compensated
    (server.prepareRunnerPatch [(user_id, some config_path)]) undo
  let runner_backup ← compensated (server.persistRunnerPatch prepared_runner) undo
  return ⟨user_id, config_path, runner_backup.map FilePath.display⟩

/-- `create_user`. The payload is the request, or the error for one that cannot be read. -/
def createUser (payload : Except ErrorResponse CreateUserRequest) : WebM CreateUserResponse := do
  let request ← Effect.ofExcept payload
  let user_id ← Effect.ofExcept ((validateUserId request.user_id).mapError invalidRequest)
  let config_path := Text.trim request.config_path
  refuseIf (config_path = "") (invalidRequest "`config_path` must not be empty")
  server.createUserAt user_id config_path

/-- The file of a user is moved, if it is there and the paths differ. -/
def moveUserFile (old_user_config_path new_user_config_path : FilePath) : WebM Bool := do
  let old_exists ← server.pathExists .userFile old_user_config_path
  if old_exists ∧ old_user_config_path ≠ new_user_config_path then do
    ((server.host .userFile).rename old_user_config_path new_user_config_path).adaptExcept
      fun error => configWriteFailed (s!"failed to rename user config " ++
        s!"`{old_user_config_path.display}` to `{new_user_config_path.display}`: {error}")
    return true
  else return false

/-- The `runner_patch` of `rename_user`. -/
def renameChanges (old_user_id new_user_id new_config_path : String) :
    List (String × Option String) :=
  if old_user_id = new_user_id then [(old_user_id, some new_config_path)]
  else [(old_user_id, none), (new_user_id, some new_config_path)]

/-- `rename_user`, once the fields are checked. -/
def renameUserTo (old_user_id new_user_id new_config_path : String) :
    WebM RenameUserResponse := do
  let runner_snapshot ← server.latestGlobalConfigOrCached
  let previous_config_path ← Effect.ofExcept (registrationOf runner_snapshot old_user_id)
  refuseIf (old_user_id ≠ new_user_id ∧ (userConfigPath runner_snapshot new_user_id).isSome)
    (invalidRequest s!"User `{new_user_id}` is already registered")
  let old_user_config_path := server.resolveUserConfigPath previous_config_path
  let new_user_config_path := server.resolveUserConfigPath new_config_path
  let target_exists ← server.pathExists .target new_user_config_path
  refuseIf (old_user_config_path ≠ new_user_config_path ∧ target_exists)
    (invalidRequest s!"User config file already exists at `{new_user_config_path.display}`")
  let prepared_runner ← server.prepareRunnerPatch
    (renameChanges old_user_id new_user_id new_config_path)
  server.createUserDirectory new_user_config_path
  let moved_user_file ← server.moveUserFile old_user_config_path new_user_config_path
  let undo := if moved_user_file then
      ignore ((server.host .undo).rename new_user_config_path old_user_config_path)
    else pure ()
  let runner_backup ← compensated (server.persistRunnerPatch prepared_runner) undo
  return ⟨new_user_id, new_config_path, old_user_id, previous_config_path,
    runner_backup.map FilePath.display⟩

/-- `rename_user`. -/
def renameUser (payload : Except ErrorResponse RenameUserRequest) : WebM RenameUserResponse := do
  let request ← Effect.ofExcept payload
  let old_user_id ← Effect.ofExcept ((validateUserId request.old_user_id).mapError invalidRequest)
  let new_user_id ← Effect.ofExcept ((validateUserId request.new_user_id).mapError invalidRequest)
  let new_config_path := Text.trim request.new_config_path
  refuseIf (new_config_path = "") (invalidRequest "`new_config_path` must not be empty")
  server.renameUserTo old_user_id new_user_id new_config_path

/-- The file of a deleted user is removed, if it is there. Where it cannot be, the backup of the
runner configuration is copied back. -/
def removeUserFile (runner_backup : Option FilePath) (user_config_path : FilePath) : WebM Bool := do
  let file_exists ← server.pathExists .target user_config_path
  if file_exists then do
    let undo := match runner_backup with
      | some backup_path => ignore ((server.host .undo).copy backup_path server.config_path)
      | none => pure ()
    compensated (((server.host .userFile).removeFile user_config_path).adaptExcept fun error =>
      configWriteFailed s!"failed to remove user config `{user_config_path.display}`: {error}") undo
    return true
  else return false

/-- `delete_user`. -/
def deleteUser (user_id : String) (delete_config_file : Bool) : WebM DeleteUserResponse := do
  let runner_snapshot ← server.latestGlobalConfigOrCached
  let config_path ← Effect.ofExcept (registrationOf runner_snapshot user_id)
  let user_config_path := server.resolveUserConfigPath config_path
  let prepared_runner ← server.prepareRunnerPatch [(user_id, none)]
  let runner_backup ← server.persistRunnerPatch prepared_runner
  let deleted_config_file ←
    if delete_config_file then server.removeUserFile runner_backup user_config_path
    else pure false
  return ⟨user_id, deleted_config_file, runner_backup.map FilePath.display⟩

end WebServer

/-- A request for a user. -/
inductive WebUserRequest where
  | create (payload : Except ErrorResponse CreateUserRequest)
  | rename (payload : Except ErrorResponse RenameUserRequest)
  | delete (user_id : String) (delete_config_file : Bool)

/-- The answer to one that succeeds. -/
inductive WebUserResponse where
  | created (response : CreateUserResponse)
  | renamed (response : RenameUserResponse)
  | deleted (response : DeleteUserResponse)

/-- What is done with a request. -/
def WebUserRequest.handle (server : WebServer) : WebUserRequest → WebM WebUserResponse
  | .create payload => .created <$> server.createUser payload
  | .rename payload => .renamed <$> server.renameUser payload
  | .delete user_id delete_config_file =>
    .deleted <$> server.deleteUser user_id delete_config_file

end Oxydra
