import Oxydra.Library.Text
import Oxydra.Runner.ConfigFileCalls
import Oxydra.Scheduler.Schedules

/-!
# Migrations of configuration files

`migrate_config_file_if_needed` of `crates/runner/src/config_migration.rs`, which is run whenever a
configuration is loaded. Its backup and the file that it renames have names of one form, and differ
only by the readings of the clock in them.
-/

namespace Oxydra

open Toml Effect

/-- `DEFAULT_RUNNER_CONFIG_VERSION`. -/
def defaultRunnerConfigVersion : String := "1.0.1"

/-- `LEGACY_RUNNER_CONFIG_VERSION`. -/
def legacyRunnerConfigVersion : String := "1.0.0"

/-- `ConfigType` of `config_migration.rs`. -/
inductive ConfigKind where
  | global
  | user
  deriving DecidableEq

/-- `as_label`. -/
def ConfigKind.asLabel : ConfigKind → String
  | .global => "global"
  | .user => "user"

/-- `RunnerError`, of a migration. -/
inductive MigrationError where
  | readConfig (path : FilePath) (source : String)
  | parseConfigDocument (path : FilePath) (source : String)
  | configMigration (path : FilePath) (message : String)
  | configMigrationIo (path : FilePath) (operation source : String)

structure ConfigMigration where
  from_version : String
  to_version : String
  transform : Table → Except MigrationError Table

/-- `migrate_global_1_0_0_to_1_0_1`: no schema transformation is needed. -/
def migrateGlobal100To101 (document : Table) : Except MigrationError Table := .ok document

/-- `migrate_user_1_0_0_to_1_0_1`: no schema transformation is needed. -/
def migrateUser100To101 (document : Table) : Except MigrationError Table := .ok document

/-- `GLOBAL_MIGRATIONS` and `USER_MIGRATIONS`. -/
def ConfigKind.migrations : ConfigKind → List ConfigMigration
  | .global => [⟨legacyRunnerConfigVersion, defaultRunnerConfigVersion, migrateGlobal100To101⟩]
  | .user => [⟨legacyRunnerConfigVersion, defaultRunnerConfigVersion, migrateUser100To101⟩]

/-- `parse_version_segments`. -/
def parseVersionSegments (version : String) : Option (List ℕ) :=
  let trimmed := Text.trim version
  if trimmed = "" then none
  else (trimmed.toList.splitOn '.').mapM fun segment => parseU64 (String.ofList segment)

/-- `is_older_version`: a shorter version is padded with zeros. -/
def isOlderVersion (version target : String) : Option Bool := do
  let version_segments ← parseVersionSegments version
  let target_segments ← parseVersionSegments target
  let max_len := max version_segments.length target_segments.length
  let difference := (List.range max_len).findSome? fun idx =>
    let version_part := version_segments.getD idx 0
    let target_part := target_segments.getD idx 0
    if version_part < target_part then some true
    else if target_part < version_part then some false
    else none
  difference <|> some false

/-- The loop of the migrations, for as many rounds. -/
def applyMigrations (path : FilePath) (kind : ConfigKind) :
    ℕ → Table → String → Except MigrationError Table
  | rounds, document, current_version =>
    if current_version = defaultRunnerConfigVersion then .ok document
    else
      let migration := kind.migrations.find? fun migration =>
        migration.from_version = current_version
      match migration, rounds with
      | some migration, rounds + 1 => do
        let document ← migration.transform document
        applyMigrations path kind rounds
          (Fields.insert "config_version" (.string migration.to_version) document)
          migration.to_version
      | _, _ => .error (.configMigration path
          s!"no migration registered for {kind.asLabel} config version `{current_version}`")

/-- The text that a migration writes, if it writes one: what `migrate_config_file_if_needed` makes
of the content. -/
def migratedText (toml : TomlCrate) (path : FilePath) (kind : ConfigKind) (raw : String) :
    Except MigrationError (Option String) := do
  let document ← (toml.parse raw).mapError (.parseConfigDocument path)
  let current_version := match document.lookup "config_version" with
    | some (.string version) => version
    | _ => legacyRunnerConfigVersion
  if current_version = defaultRunnerConfigVersion then
    return none
  else if isOlderVersion current_version defaultRunnerConfigVersion = some true then
    return some (toml.edited raw (← applyMigrations path kind 1 document current_version))
  else
    -- the version is malformed, or not older
    return none

/-- The readings of the clock of a migration. -/
structure MigrationTimes where
  backup : ℤ
  temporary : ℤ

/-- `backup_path_for`: a time before the epoch counts from there, too. -/
def backupPathFor (host : FileHost) (now : ℤ) (path : FilePath) : FilePath :=
  path.sibling (backupEnding now.natAbs host.pid)

/-- `fs::write`. -/
def FileHost.write (host : FileHost) (path : FilePath) (content : String) : FileM Unit := do
  host.openTruncated path
  host.writeAll path content.toUTF8

/-- How `migrate_config_file_if_needed` writes a text: a backup is made first, and the path of the
temporary file has the form of that of a backup. -/
def rewriteConfigFile (host : FileHost) (now : MigrationTimes) (path : FilePath) (text : String) :
    EStateM MigrationError ConfigFiles (Option FilePath) := do
  let backup_path := backupPathFor host now.backup path
  (host.copy path backup_path).adaptExcept (.configMigrationIo backup_path "backup")
  let tmp_path := backupPathFor host now.temporary path
  (host.write tmp_path text).adaptExcept (.configMigrationIo tmp_path "write temp")
  (host.rename tmp_path path).adaptExcept (.configMigrationIo path "rename")
  return some backup_path

/-- `migrate_config_file_if_needed`. What it gives is the path of the backup, which it logs. -/
def migrateConfigFileIfNeeded (host : FileHost) (now : MigrationTimes) (toml : TomlCrate)
    (path : FilePath) (kind : ConfigKind) :
    EStateM MigrationError ConfigFiles (Option FilePath) := do
  let raw ← (host.readToString path).adaptExcept (.readConfig path)
  match ← Effect.ofExcept (migratedText toml path kind raw) with
  | none => return none
  | some text => rewriteConfigFile host now path text

/-! ## Calls that do not fail -/

/-- The text that a migration of a file writes, if it writes one. -/
def migrationOf (toml : TomlCrate) (path : FilePath) (kind : ConfigKind) (files : ConfigFiles) :
    Option String := do
  let raw ← textOf files path
  (← (migratedText toml path kind raw).toOption)

namespace FileHost.Reliable

variable {host : FileHost} (hhost : host.Reliable) {files : ConfigFiles} {now : MigrationTimes}
  {toml : TomlCrate} {path : FilePath} {kind : ConfigKind}

include hhost

/-- A migration that writes nothing leaves the files, and logs no backup. -/
theorem migrate_idle (h : migrationOf toml path kind files = none) :
    migrateConfigFileIfNeeded host now toml path kind files = .ok none files ∨
      ∃ error, migrateConfigFileIfNeeded host now toml path kind files = .error error files := by
  unfold migrateConfigFileIfNeeded
  cases hraw : textOf files path with
  | none =>
    obtain ⟨error, hread⟩ := hhost.readToString_error hraw
    have hadapt : (host.readToString path).adaptExcept (MigrationError.readConfig path) files =
        .error (.readConfig path error) files := by
      unfold EStateM.adaptExcept
      rw [hread]
    exact .inr ⟨_, bind_error hadapt⟩
  | some raw =>
    rw [bind_ok (adaptExcept_eq_ok.mpr (hhost.readToString_ok hraw))]
    rw [migrationOf, hraw] at h
    cases htext : migratedText toml path kind raw with
    | error error => exact .inr ⟨error, bind_error rfl⟩
    | ok text =>
      have hnone : text = none := by
        rw [Option.bind_eq_bind, Option.bind_some, htext] at h
        exact h
      rw [hnone]
      exact .inl rfl

/-- A migration that writes a text first copies the file. -/
theorem migrate_run {text : String} {before : ByteArray}
    (h : migrationOf toml path kind files = some text) (hbefore : files.lookup path = some before) :
    migrateConfigFileIfNeeded host now toml path kind files =
      .ok (some (backupPathFor host now.backup path))
        (written (backupPathFor host now.temporary path) path text
          (files.insert (backupPathFor host now.backup path) before)) := by
  obtain ⟨raw, hraw, h⟩ := Option.bind_eq_some_iff.mp h
  obtain ⟨some_text, htext, rfl⟩ := Option.bind_eq_some_iff.mp h
  have htext := mem_toOption.mp htext
  set backup_path := backupPathFor host now.backup path with hbackup_path
  set tmp_path := backupPathFor host now.temporary path with htmp_path
  have hwrite : host.write tmp_path text (files.insert backup_path before) =
      .ok () ((files.insert backup_path before).insert tmp_path text.toUTF8) := by
    unfold write
    rw [bind_ok (openTruncated_ok (hhost _))]
    exact writeAll_ok (hhost _)
  have hrename : host.rename tmp_path path
      ((files.insert backup_path before).insert tmp_path text.toUTF8) =
        .ok () (written tmp_path path text (files.insert backup_path before)) := by
    rw [written, rename_ok (hhost _) (AList.lookup_insert _), erase_insert]
  unfold migrateConfigFileIfNeeded
  rw [bind_ok (adaptExcept_eq_ok.mpr (hhost.readToString_ok hraw)),
    bind_ok (ofExcept_eq_ok.mpr ⟨htext, rfl⟩)]
  show rewriteConfigFile host now path text files = _
  unfold rewriteConfigFile
  rw [bind_ok (adaptExcept_eq_ok.mpr (copy_ok (hhost _) hbefore)),
    bind_ok (adaptExcept_eq_ok.mpr hwrite), bind_ok (adaptExcept_eq_ok.mpr hrename)]
  rfl

end FileHost.Reliable

end Oxydra
