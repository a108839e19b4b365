import Oxydra.Runner.WebUserOperations

/-!
# What operations on users rely on

`UserOperation.Printed` says what an operation relies on of `toml` and `toml_edit`, and
`PatchesFile` what the preparation of its patch relies on. Under them, `persist_patch` either
changes the users as asked or, where one of its calls fails, leaves them exactly under
`RestoresUsers`.
-/

namespace Oxydra

open AList Toml Effect

/-- What `toml` and `toml_edit` print for an operation is read as what it was printed from. -/
structure UserOperation.Printed (server : WebServer) (operation : UserOperation)
    (files : ConfigFiles) : Prop where
  map_table : MapsAreTables server.toml.coercions
  default : PrintsDefault server.toml
  version : ∀ text, textOf files server.config_path = some text → PrintsVersion server.toml text
  patch : ∀ file, PrintsUsers server.toml server.config_path.display file
    (usersPatch operation.changes)

namespace WebServer

variable (server : WebServer)

/-- The files once the runner configuration is loaded. -/
def loaded (files : ConfigFiles) : ConfigFiles :=
  match server.loadRunnerGlobalConfig files with
  | .ok _ files' | .error _ files' => files'

/-- The runner configuration that a request goes by: the one of the file or, where that cannot be
loaded, the one from when the server was started. -/
def snapshot (files : ConfigFiles) : Datum :=
  match server.loadRunnerGlobalConfig files with
  | .ok config _ => config
  | .error _ _ => server.global_config

/-- A file is seen in a step: it is there, and the call that looks for it does not fail. -/
def Sees (step : WebStep) (path : FilePath) (files : ConfigFiles) : Prop :=
  path ∈ files ∧ (server.host step).fails (.metadata path) = none

instance (step : WebStep) (path : FilePath) (files : ConfigFiles) :
    Decidable (server.Sees step path files) := inferInstanceAs (Decidable (_ ∧ _))

/-- A file that is there is seen. -/
def Shown (step : WebStep) (path : FilePath) (files : ConfigFiles) : Prop :=
  path ∈ files → (server.host step).fails (.metadata path) = none

/-- A patch is prepared from the runner configuration as it is in the file, and no config path in it
is the text that stands for an unchanged secret. -/
structure PatchesFile (changes : List (String × Option String)) (files : ConfigFiles) : Prop where
  shown : server.Shown .prepare server.config_path files
  unsecret : ∀ change ∈ changes, change.2 ≠ some secretSentinel

/-- What `prepare_patch` finds of the runner configuration. -/
def foundConfig (files : ConfigFiles) : ConfigFile :=
  if server.Sees .prepare server.config_path files then
    match (server.host .prepare).fails (.read server.config_path) with
    | some error => some (.error error)
    | none => configFileOf files server.config_path
  else none

end WebServer

/-- What `prepare_patch` makes of a patch of the users. -/
def WebServer.preparedPatch (server : WebServer) (changes : List (String × Option String))
    (files : ConfigFiles) : Except ErrorResponse PreparedPatch :=
  preparePatch server.toml runnerGlobalConfig server.validate server.config_path.display
    (server.foundConfig files) (usersPatch changes)

section Runs

variable {server : WebServer} {files : ConfigFiles} {step : WebStep} {path : FilePath}

/-- What is loaded, whichever calls fail. -/
theorem loadRunnerGlobalConfig_spec : wp server.loadRunnerGlobalConfig
    (fun config files' => Migrated server.toml server.config_path .global files files' ∧
      ∃ text, textOf files' server.config_path = some text ∧
        server.toml.fromStr runnerGlobalConfig.schema text = .ok config)
    (fun _ files' => Migrated server.toml server.config_path .global files files') files := by
  unfold WebServer.loadRunnerGlobalConfig
  simp only [wp_bind, wp_adaptExcept, wp_ofExcept, wp_pure]
  refine wp_migrateConfigFileIfNeeded.mono ?_ fun _ _ hfiles => hfiles
  intro _ files₁ hmigrated
  refine FileHost.wp_readToString.mono ?_ fun _ _ hfiles => hfiles ▸ hmigrated
  rintro text _ ⟨rfl, htext⟩
  refine ⟨fun config hconfig => ⟨fun _ _ => ?_, fun _ _ => hmigrated⟩, fun _ _ => hmigrated⟩
  exact ⟨hmigrated, text, htext, mapError_eq_ok.mp hconfig⟩

theorem latest_run : server.latestGlobalConfigOrCached files =
    .ok (server.snapshot files) (server.loaded files) := by
  unfold WebServer.latestGlobalConfigOrCached WebServer.snapshot WebServer.loaded
  cases server.loadRunnerGlobalConfig files <;> rfl

theorem migrated_loaded :
    Migrated server.toml server.config_path .global files (server.loaded files) := by
  unfold WebServer.loaded
  cases hload : server.loadRunnerGlobalConfig files with
  | ok config files₁ => exact (loadRunnerGlobalConfig_spec.ok hload).1
  | error error files₁ => exact loadRunnerGlobalConfig_spec.error hload

/-- A file that is not touched with the runner configuration is as before it was loaded. -/
theorem lookup_loaded (hpath : ¬Persisted server.config_path path) :
    (server.loaded files).lookup path = files.lookup path := migrated_loaded.1 path hpath

/-- A file is looked for. -/
theorem fileExists_run : (server.host step).pathExists path files =
    .ok (decide (server.Sees step path files)) files := by
  unfold FileHost.pathExists
  show EStateM.Result.ok _ files = _
  congr 1
  rw [Bool.eq_iff_iff, decide_eq_true_eq, Bool.and_eq_true, Option.isNone_iff_eq_none,
    lookup_isSome, and_comm]
  rfl

theorem pathExists_run : server.pathExists step path files =
    .ok (decide (server.Sees step path files)) files := adaptExcept_eq_ok.mpr fileExists_run

/-- A patch is prepared, and nothing changes. -/
theorem prepare_run (changes : List (String × Option String)) :
    server.prepareRunnerPatch changes files = match server.preparedPatch changes files with
      | .ok prepared => .ok prepared files
      | .error error => .error error files := by
  have hfile : (server.host .prepare).configFile server.config_path files =
      .ok (server.foundConfig files) files := by
    unfold FileHost.configFile WebServer.foundConfig
    rw [bind_ok fileExists_run]
    by_cases hsees : server.Sees .prepare server.config_path files
    swap
    · rw [decide_eq_false hsees, if_neg Bool.false_ne_true, if_neg hsees]
      rfl
    rw [decide_eq_true hsees, if_pos rfl, if_pos hsees]
    cases hread : (server.host .prepare).fails (.read server.config_path) with
    | some error =>
      have hrun : (server.host .prepare).readToString server.config_path files =
          .error error files := by
        unfold FileHost.readToString
        exact bind_error (FileHost.perform_error hread)
      exact tryCatch_error (bind_error hrun)
    | none =>
      obtain ⟨bytes, hbytes⟩ := Option.isSome_iff_exists.mp (lookup_isSome.mpr hsees.1)
      have hrun := FileHost.readToString_eq hread hbytes
      unfold configFileOf
      rw [hbytes, Option.map_some]
      cases htext : String.fromUTF8? bytes with
      | none =>
        rw [htext] at hrun
        exact tryCatch_error (bind_error hrun)
      | some text =>
        rw [htext] at hrun
        exact tryCatch_ok (bind_ok hrun)
  unfold WebServer.prepareRunnerPatch preparePatchOf WebServer.preparedPatch
  rw [bind_ok (adaptExcept_eq_ok.mpr hfile)]
  cases preparePatch server.toml runnerGlobalConfig server.validate server.config_path.display
    (server.foundConfig files) (usersPatch changes) <;> rfl

end Runs

/-- Loading changes nothing of the users. -/
theorem UserOperation.Printed.webUsers_loaded {server : WebServer} {operation : UserOperation}
    {files : ConfigFiles} (h : operation.Printed server files) :
    server.webUsers (server.loaded files) = server.webUsers files :=
  WebServer.webUsers_eq migrated_loaded.1 (migrated_loaded.users h.version)

/-- A request goes by the registrations of the file, or by the configuration from the start. -/
theorem UserOperation.Printed.snapshot_user {server : WebServer} {operation : UserOperation}
    {files : ConfigFiles} (h : operation.Printed server files) (user_id : String) :
    userConfigPath (server.snapshot files) user_id = (server.webUsers files).users user_id ∨
      server.snapshot files = server.global_config := by
  unfold WebServer.snapshot
  cases hload : server.loadRunnerGlobalConfig files with
  | error error files₁ => exact .inr rfl
  | ok config files₁ =>
    obtain ⟨hmigrated, text, htext, hconfig⟩ := loadRunnerGlobalConfig_spec.ok hload
    obtain ⟨document, hdocument, hread⟩ := fromStr_eq_ok.mp hconfig
    have husers : registeredUsers server.toml (files₁.lookup server.config_path) =
        documentUsers server.toml.coercions document := by
      rw [registeredUsers_of_textOf htext, textUsers_of_parse hdocument]
    refine .inl ?_
    rw [userConfigPath_of_read h.map_table hread, ← husers, hmigrated.users h.version]
    rfl

section Prepared

variable {server : WebServer} {files files' : ConfigFiles}
  {changes : List (String × Option String)} {prepared : PreparedPatch}

/-- A patch is prepared only from what is in the file. -/
theorem preparePatch_of_preparedPatch (hshown : server.Shown .prepare server.config_path files)
    (h : server.preparedPatch changes files = .ok prepared) :
    preparePatch server.toml runnerGlobalConfig server.validate server.config_path.display
      (configFileOf files server.config_path) (usersPatch changes) = .ok prepared := by
  unfold WebServer.preparedPatch WebServer.foundConfig at h
  split_ifs at h with hsees
  · cases hread : (server.host .prepare).fails (.read server.config_path) with
    | none =>
      rw [hread] at h
      exact h
    | some error =>
      rw [hread] at h
      obtain ⟨_, _, _, _, _, _, _, -, hexisting, -⟩ := preparePatch_eq_ok h
      cases hexisting
  · have hmem : server.config_path ∉ files := fun hmem => hsees ⟨hmem, hshown hmem⟩
    rwa [configFileOf, lookup_eq_none.mpr hmem]

/-- What is prepared depends on the runner configuration only. -/
theorem preparedPatch_congr
    (h : files'.lookup server.config_path = files.lookup server.config_path) :
    server.preparedPatch changes files' = server.preparedPatch changes files := by
  have hmem : server.config_path ∈ files' ↔ server.config_path ∈ files := by
    rw [← lookup_isSome, h, lookup_isSome]
  have hsees : server.Sees .prepare server.config_path files' ↔
      server.Sees .prepare server.config_path files := and_congr_left fun _ => hmem
  unfold WebServer.preparedPatch WebServer.foundConfig configFileOf
  rw [h, if_congr hsees rfl rfl]

theorem file_exists_of_preparedPatch (hshown : server.Shown .prepare server.config_path files)
    (h : server.preparedPatch changes files = .ok prepared) :
    prepared.file_exists = decide (server.config_path ∈ files) := by
  rw [file_exists_of_preparePatch (preparePatch_of_preparedPatch hshown h)]
  by_cases hmem : server.config_path ∈ files
  · rw [decide_eq_true hmem, isSome_configFileOf.mpr hmem]
  · rw [decide_eq_false hmem, Bool.eq_false_iff]
    exact fun hsome => hmem (isSome_configFileOf.mp hsome)

end Prepared

/-! ## The runner configuration -/

namespace WebServer

variable (server : WebServer) (changes : List (String × Option String)) (files : ConfigFiles)

/-- The users are as before where `persist_patch` fails: the backup cannot be made; or the new
content cannot be put in place, and what copying the backup back leaves has the same users; or the
patch changes none of them. -/
def RestoresUsers : Prop :=
  let host := server.host .persist
  let restore :=
    FileCall.copy (backupPath host server.now.persist.backup server.config_path) server.config_path
  let users := registeredUsers server.toml (files.lookup server.config_path)
  if BackupFails host server.now.persist server.config_path files then True
  else if WriteFails host server.now.persist.write server.config_path then
    server.config_path ∈ files ∧ (host.fails restore).isSome →
      registeredUsers server.toml
        ((host.leaves restore).or (files.lookup server.config_path)) = users
  else changeUsers changes users = users

/-- A call of `persist_patch` fails. -/
def PersistFailsFor (prepared : PreparedPatch) : Prop :=
  prepared.changed_fields ≠ [] ∧
    PersistFails (server.host .persist) server.now.persist server.config_path
      prepared.rendered_toml files

end WebServer

namespace UserOperation.Printed

variable {server : WebServer} {operation : UserOperation} {files files' : ConfigFiles}
  {prepared : PreparedPatch} (h : operation.Printed server files)
  (hfile : server.PatchesFile operation.changes files')
  (hprepared : server.preparedPatch operation.changes files' = .ok prepared)

include h hfile hprepared

/-- What a prepared patch would write has the users that the operation asks for. -/
theorem users_prepared :
    registeredUsers server.toml (some prepared.rendered_toml.toUTF8) =
        changeUsers operation.changes (server.webUsers files').users ∧
      (prepared.changed_fields = [] →
        changeUsers operation.changes (server.webUsers files').users =
          (server.webUsers files').users) :=
  registeredUsers_prepared h.map_table h.default (h.patch _) hfile.unsecret
    (preparePatch_of_preparedPatch hfile.shown hprepared)

/-- Where a call of `persist_patch` fails. -/
theorem persist_error (hfails : server.PersistFailsFor files' prepared) :
    ∃ error files'', server.persistRunnerPatch prepared files' = .error error files'' ∧
      SameOutside (Persisted server.config_path) files' files'' ∧
      ((server.webUsers files'').users = (server.webUsers files').users ↔
        server.RestoresUsers operation.changes files') := by
  obtain ⟨error, files'', hrun, hsame, hlookup⟩ := persistPatch_error hfails.1
    (file_exists_of_preparedPatch hfile.shown hprepared) hfails.2
  refine ⟨error, files'', hrun, hsame, ?_⟩
  have husers := (h.users_prepared hfile hprepared).1
  show registeredUsers server.toml (files''.lookup server.config_path) =
    registeredUsers server.toml (files'.lookup server.config_path) ↔ _
  rw [hlookup]
  unfold bytesAfterFailure WebServer.RestoresUsers
  dsimp only
  split_ifs with hbackup hwrite hrestore
  · exact iff_of_true rfl trivial
  · exact ⟨fun heq _ => heq, fun hleft => hleft hrestore⟩
  · exact iff_of_true rfl fun hrestore' => absurd hrestore' hrestore
  · rw [husers]
    rfl

/-- Where none does. -/
theorem persist_ok (hfails : ¬server.PersistFailsFor files' prepared) :
    ∃ backup files'', server.persistRunnerPatch prepared files' = .ok backup files'' ∧
      SameOutside (Persisted server.config_path) files' files'' ∧
      (server.webUsers files'').users =
        changeUsers operation.changes (server.webUsers files').users ∧
      (changeUsers operation.changes (server.webUsers files').users ≠
          (server.webUsers files').users → server.config_path ∈ files' →
        let backup_path :=
          backupPath (server.host .persist) server.now.persist.backup server.config_path
        backup = some backup_path ∧
          files''.lookup server.config_path = some prepared.rendered_toml.toUTF8 ∧
          files''.lookup backup_path =
            if IsStale server.config_path backupKeepCount (rewritten (server.host .persist)
              server.now.persist server.config_path prepared.rendered_toml files') backup_path
            then none else files'.lookup server.config_path) := by
  obtain ⟨husers, hnone⟩ := h.users_prepared hfile hprepared
  by_cases hchanged : prepared.changed_fields = []
  · refine ⟨none, files', ?_, .refl _ _, (hnone hchanged).symm, fun hne _ => ?_⟩
    · unfold WebServer.persistRunnerPatch persistPatch
      rw [if_pos hchanged]
      rfl
    · exact absurd (hnone hchanged) hne
  · have hexists := file_exists_of_preparedPatch hfile.shown hprepared
    obtain ⟨files'', hrun, hsame, hlookup, hbackup⟩ := persistPatch_run hchanged hexists
      fun hpersist => hfails ⟨hchanged, hpersist⟩
    refine ⟨_, files'', hrun, hsame, ?_, fun _ hpath => ?_⟩
    · show registeredUsers server.toml (files''.lookup server.config_path) = _
      rw [hlookup, husers]
    · exact ⟨if_pos hpath, hlookup, hbackup hpath⟩

end UserOperation.Printed

/-! ## Files of users -/

section Files

variable {server : WebServer} {files files' : ConfigFiles} {path : FilePath}

theorem webUsers_files_eq (h : SameOutside (Persisted server.config_path) files files') :
    (server.webUsers files').files = (server.webUsers files).files := by
  funext file
  show (if _ then _ else _) = if _ then _ else _
  split_ifs with hfile
  · rfl
  · exact h file hfile

theorem webUsers_files_of_not_persisted (h : ¬Persisted server.config_path path) :
    (server.webUsers files).files path = files.lookup path := if_neg h

/-- A file of a user is set or removed, and no other one. -/
theorem webUsers_update (h : ¬Persisted server.config_path path) {bytes : Option ByteArray}
    (hlookup : ∀ file, files'.lookup file = if file = path then bytes else files.lookup file) :
    server.webUsers files' = ⟨(server.webUsers files).users,
      Function.update (server.webUsers files).files path bytes⟩ := by
  have hconfig : files'.lookup server.config_path = files.lookup server.config_path := by
    rw [hlookup, if_neg fun heq => h (.inl heq)]
  refine WebUsers.ext (congrArg (registeredUsers server.toml) hconfig) (funext fun file => ?_)
  dsimp only
  by_cases hfile : file = path
  · rw [hfile, Function.update_self, webUsers_files_of_not_persisted h, hlookup, if_pos rfl]
  · rw [Function.update_of_ne hfile]
    show (if _ then _ else _) = if _ then _ else _
    rw [hlookup, if_neg hfile]

theorem lookup_fileInserted (bytes : ByteArray) (file : FilePath) :
    (files.insert path bytes).lookup file =
      if file = path then some bytes else files.lookup file := by
  split_ifs with hfile
  · rw [hfile, lookup_insert]
  · rw [lookup_insert_ne hfile]

theorem lookup_fileErased (file : FilePath) :
    (files.erase path).lookup file = if file = path then none else files.lookup file := by
  split_ifs with hfile
  · rw [hfile, lookup_erase]
  · rw [lookup_erase_ne hfile]

end Files

end Oxydra
