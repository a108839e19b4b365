import Mathlib
import Oxydra.Library.Lts
import Oxydra.Runner.ConfigMigration

/-!
# Backups that are kept

A configuration file is changed by migrations and by patches, one after the other. `backups` is what
each of them has kept of the file, the newest first; the program itself knows only the names.

The name of a backup is made of a reading of the clock, in nanoseconds for a migration and in
milliseconds for a patch, and a patch keeps the ten backups whose names come last as texts.
`backups_kept_iff` says that the newest ten are kept exactly in the runs in which the name of each
backup is a new one and comes late enough, and is not that of the file that a migration renames.
-/

namespace Oxydra

open AList Option List Toml Effect

/-- A change of a configuration file: the process that makes it, what it is asked for, and its
readings of the clock. -/
inductive ConfigChange where
  | migrate (pid : ℕ) (kind : ConfigKind) (now : MigrationTimes)
  | patch (pid : ℕ) (type : ConfigType) (validate : Datum → Except String Unit) (payload : Value)
    (now : PatchTimes)

namespace ConfigChange

/-- The readings of the clock, in their order. -/
def readings : ConfigChange → ℤ × ℤ
  | .migrate _ _ now => (now.backup, now.temporary)
  | .patch _ _ _ _ now => (now.backup, now.write)

/-- The backup that was made, and the files then. -/
def outcome {ε : Type} : EStateM.Result ε ConfigFiles (Option FilePath) →
    Option FilePath × ConfigFiles
  | .ok made files => (made, files)
  | .error _ files => (none, files)

variable (toml : TomlCrate) (path : FilePath)

/-- What a change does. -/
def run (change : ConfigChange) (files : ConfigFiles) : Option FilePath × ConfigFiles :=
  match change with
  | .migrate pid kind now =>
    outcome (migrateConfigFileIfNeeded (.reliable pid) now toml path kind files)
  | .patch pid type validate payload now =>
    outcome (patchConfigFile (.reliable pid) path now toml type validate payload files)

/-- A change writes to the file, which is there. -/
def Replaces (files : ConfigFiles) : ConfigChange → Prop
  | .migrate _ kind _ => (migrationOf toml path kind files).isSome
  | .patch _ type validate payload _ =>
    path ∈ files ∧ ∃ prepared, preparePatch toml type validate path.display
      (configFileOf files path) payload = .ok prepared ∧ prepared.changed_fields ≠ []

/-- What a change can have done. -/
inductive Did (files : ConfigFiles) : ConfigChange → Option FilePath × ConfigFiles → Prop
  | nothing {change : ConfigChange} (h : ¬Replaces toml path files change) :
    Did files change (none, files)
  | created {change : ConfigChange} {tmp_path : FilePath} (content : String)
      (h : ¬Replaces toml path files change) (hpath : path ∉ files)
      (htmp : ¬IsBackupOf path tmp_path) :
    Did files change (none, written tmp_path path content files)
  | migrated {pid : ℕ} {kind : ConfigKind} (now : MigrationTimes) {before : ByteArray}
      (content : String) (h : Replaces toml path files (.migrate pid kind now))
      (hbefore : files.lookup path = some before) :
    Did files (.migrate pid kind now)
      (some (backupPathFor (.reliable pid) now.backup path),
        written (backupPathFor (.reliable pid) now.temporary path) path content
          (files.insert (backupPathFor (.reliable pid) now.backup path) before))
  | patched {pid : ℕ} {type : ConfigType} {validate : Datum → Except String Unit} {payload : Value}
      (now : PatchTimes) {before : ByteArray} {tmp_path : FilePath} {content : String}
      {files' : ConfigFiles}
      (h : Replaces toml path files (.patch pid type validate payload now))
      (hbefore : files.lookup path = some before) (htmp : ¬IsBackupOf path tmp_path)
      (hfiles' : ∀ file, files'.lookup file =
        if IsStale path backupKeepCount (written tmp_path path content
            (files.insert (backupPath (.reliable pid) now.backup path) before)) file then none
        else (written tmp_path path content
          (files.insert (backupPath (.reliable pid) now.backup path) before)).lookup file) :
    Did files (.patch pid type validate payload now)
      (some (backupPath (.reliable pid) now.backup path), files')

theorem run_did (change : ConfigChange) (files : ConfigFiles) :
    Did toml path files change (change.run toml path files) := by
  cases change with
  | migrate pid kind now =>
    have hhost := FileHost.reliable_reliable pid
    show Did toml path files _ (outcome (migrateConfigFileIfNeeded _ now toml path kind files))
    cases hmigration : migrationOf toml path kind files with
    | none =>
      have hnot : ¬Replaces toml path files (.migrate pid kind now) := by
        simp [Replaces, hmigration]
      obtain hrun | ⟨error, hrun⟩ := hhost.migrate_idle hmigration <;>
        · rw [hrun]
          exact .nothing hnot
    | some text =>
      obtain ⟨raw, hraw, -⟩ := bind_eq_some_iff.mp hmigration
      obtain ⟨before, hbefore, -⟩ := bind_eq_some_iff.mp hraw
      rw [hhost.migrate_run hmigration hbefore]
      refine .migrated now text ?_ hbefore
      rw [Replaces, hmigration]
      rfl
  | patch pid type validate payload now =>
    have hhost := FileHost.reliable_reliable pid
    have hprepare := hhost.preparePatchOf_run toml type validate path payload files
    show Did toml path files _ (outcome ((preparePatchOf _ path toml type validate payload >>=
      persistPatch _ now path) files))
    cases hprepared : preparePatch toml type validate path.display (configFileOf files path)
      payload with
    | error error =>
      rw [hprepared] at hprepare
      rw [bind_error hprepare]
      refine .nothing fun h => ?_
      obtain ⟨-, prepared, hok, -⟩ := h
      cases hprepared.symm.trans hok
    | ok prepared =>
      rw [hprepared] at hprepare
      rw [bind_ok hprepare]
      have hexists := file_exists_of_preparePatch hprepared
      -- a patch without a changed field writes nothing
      by_cases hchanged : prepared.changed_fields = []
      · rw [persistPatch_unchanged hchanged]
        refine .nothing fun h => ?_
        obtain ⟨-, prepared', hok, hne⟩ := h
        obtain rfl := Except.ok.inj (hprepared.symm.trans hok)
        exact hne hchanged
      cases hbefore : files.lookup path with
      | none =>
        have hpath := lookup_eq_none.mp hbefore
        rw [configFileOf, hbefore] at hexists
        rw [hhost.persistPatch_new hchanged hexists]
        exact .created _ (fun h => hpath h.1) hpath (not_isBackupOf_temporaryPath _ _ _)
      | some before =>
        rw [configFileOf, hbefore] at hexists
        obtain ⟨files', hrun, hfiles'⟩ :=
          hhost.persistPatch_existing hchanged hexists now hbefore rfl
        rw [hrun]
        refine .patched now ⟨?_, prepared, hprepared, hchanged⟩ hbefore
          (not_isBackupOf_temporaryPath _ _ _) hfiles'
        exact lookup_isSome.mp (hbefore ▸ rfl)

end ConfigChange

/-- A configuration file that is changed. -/
structure BackedConfig where
  files : ConfigFiles
  /-- The last reading of the clock. -/
  clock : ℤ
  /-- The backups that were made, with the bytes of the file then, the newest first. -/
  backups : List (FilePath × ByteArray)
  /-- The bytes of the file before the last change, if it changed them. -/
  before : Option ByteArray

namespace BackedConfig

/-- A backup holds the bytes of the file before the last change, and the newest backups are
there. -/
structure Kept (path : FilePath) (s : BackedConfig) : Prop where
  before : ∀ bytes, s.before = some bytes →
    ∃ file, IsBackupOf path file ∧ s.files.lookup file = some bytes
  newest : ∀ backup ∈ s.backups.take backupKeepCount, s.files.lookup backup.1 = some backup.2

/-- The state after a change. -/
def after (path : FilePath) (s : BackedConfig) (change : ConfigChange) :
    Option FilePath × ConfigFiles → BackedConfig
  | (made, files) =>
    { files := files
      clock := change.readings.2
      backups := (made.bind fun file =>
        (s.files.lookup path).map fun bytes => (file, bytes)).toList ++ s.backups
      before := if files.lookup path = s.files.lookup path then none else s.files.lookup path }

/-- A change. The clock may stand still. -/
def step (toml : TomlCrate) (path : FilePath) (s : BackedConfig) (change : ConfigChange) :
    Option BackedConfig :=
  if s.clock ≤ change.readings.1 ∧ change.readings.1 ≤ change.readings.2 then
    some (s.after path change (change.run toml path s.files))
  else none

/-- A state in which a run may start: the backups that are known are there. -/
structure Starts (path : FilePath) (s : BackedConfig) : Prop where
  before : s.before = none
  named : ∀ backup ∈ s.backups, IsBackupOf path backup.1
  there : ∀ backup ∈ s.backups, s.files.lookup backup.1 = some backup.2

/-- What is asked of the backup that a change of the file makes, and of its temporary file. The nine
newest backups are to be kept: they are not written to, unless with the bytes that they hold. -/
def Spares (toml : TomlCrate) (path : FilePath) (s : BackedConfig) (change : ConfigChange) : Prop :=
  ConfigChange.Replaces toml path s.files change →
    match change with
    | .migrate pid _ now =>
      let backup_path := backupPathFor (.reliable pid) now.backup path
      let tmp_path := backupPathFor (.reliable pid) now.temporary path
      backup_path ≠ tmp_path ∧ ∀ kept ∈ s.backups.take (backupKeepCount - 1),
        kept.1 ≠ tmp_path ∧ (kept.1 = backup_path → s.files.lookup path = some kept.2)
    | .patch pid _ _ _ now =>
      let backup_path := backupPath (.reliable pid) now.backup path
      let files := s.files.insert backup_path ByteArray.empty
      ¬IsStale path backupKeepCount files backup_path ∧
        ∀ kept ∈ s.backups.take (backupKeepCount - 1), ¬IsStale path backupKeepCount files kept.1 ∧
          (kept.1 = backup_path → s.files.lookup path = some kept.2)

section

variable {toml : TomlCrate} {path : FilePath} {s t : BackedConfig} {change : ConfigChange}

/-- The backups have names of backups. -/
def Named (path : FilePath) (s : BackedConfig) : Prop :=
  ∀ backup ∈ s.backups, IsBackupOf path backup.1

/-- A file that was written keeps its backups, but for the temporary file. -/
theorem lookup_written_of_backup {tmp_path file : FilePath} {content : String}
    {files : ConfigFiles} (hfile : IsBackupOf path file) (htmp : file ≠ tmp_path) :
    (written tmp_path path content files).lookup file = files.lookup file := by
  have hpath : file ≠ path := fun h => not_isBackupOf_self path (h ▸ hfile)
  rw [lookup_written, if_neg hpath, if_neg htmp]

/-- The backups after a change that made one and lost some: they are kept exactly if that one and
the nine newest ones before it are not lost, and the new one has replaced none of these. -/
theorem kept_after_iff (change : ConfigChange) {backup_path : FilePath} {bytes : ByteArray}
    {files : ConfigFiles} {Lost : FilePath → Prop} [DecidablePred Lost] (hnamed : s.Named path)
    (hkept : s.Kept path)
    (hbackup : IsBackupOf path backup_path) (hbytes : s.files.lookup path = some bytes)
    (hlookup : ∀ file, IsBackupOf path file → files.lookup file =
      if Lost file then none else (s.files.insert backup_path bytes).lookup file) :
    (s.after path change (some backup_path, files)).Kept path ↔
      ¬Lost backup_path ∧ ∀ kept ∈ s.backups.take (backupKeepCount - 1),
        ¬Lost kept.1 ∧ (kept.1 = backup_path → s.files.lookup path = some kept.2) := by
  have htake : (s.after path change (some backup_path, files)).backups.take backupKeepCount =
      (backup_path, bytes) :: s.backups.take (backupKeepCount - 1) := by
    simp [after, hbytes, backupKeepCount]
  have hnew : files.lookup backup_path = some bytes ↔ ¬Lost backup_path := by
    rw [hlookup backup_path hbackup, lookup_insert]
    split_ifs with hlost <;> simp [hlost]
  have hold : ∀ kept ∈ s.backups.take (backupKeepCount - 1), files.lookup kept.1 = some kept.2 ↔
      ¬Lost kept.1 ∧ (kept.1 = backup_path → s.files.lookup path = some kept.2) := by
    intro kept hmem
    have hfewer : backupKeepCount - 1 ≤ backupKeepCount := by decide
    have hthere := hkept.newest kept ((take_sublist_take_left hfewer).subset hmem)
    rw [hlookup kept.1 (hnamed kept (mem_of_mem_take hmem)), hbytes]
    by_cases hlost : Lost kept.1
    · simp [hlost]
    by_cases hsame : kept.1 = backup_path
    · rw [if_neg hlost, hsame, lookup_insert]
      simp [hsame ▸ hlost]
    · rw [if_neg hlost, lookup_insert_ne hsame]
      simp [hlost, hsame, hthere]
  rw [← hnew, ← forall₂_congr hold]
  constructor
  · intro h
    have hnewest := h.newest
    rw [htake] at hnewest
    refine ⟨hnewest _ mem_cons_self, fun kept hmem => ?_⟩
    exact hnewest kept (mem_cons_of_mem _ hmem)
  · rintro ⟨hnew, hold⟩
    refine ⟨fun before h => ⟨backup_path, hbackup, ?_⟩, ?_⟩
    · simp only [after, hbytes] at h
      split_ifs at h
      exact h ▸ hnew
    · rw [htake]
      intro backup hmem
      obtain rfl | hmem := mem_cons.mp hmem
      · exact hnew
      · exact hold backup hmem

/-- A backup that was made is one of those that are named. -/
theorem named_after {backup_path : FilePath} {files : ConfigFiles} (hnamed : s.Named path)
    (hbackup : IsBackupOf path backup_path) :
    (s.after path change (some backup_path, files)).Named path := by
  intro backup hmem
  obtain hmade | hmem := mem_append.mp hmem
  · obtain ⟨bytes, -, rfl⟩ := map_eq_some_iff.mp (mem_toList.mp hmade)
    exact hbackup
  · exact hnamed backup hmem

/-- A change keeps the newest backups exactly if it spares them. -/
theorem kept_step (hnamed : s.Named path) (hkept : s.Kept path)
    (hstep : step toml path s change = some t) :
    t.Named path ∧ (t.Kept path ↔ s.Spares toml path change) := by
  have ht : t = s.after path change (change.run toml path s.files) := by
    unfold step at hstep
    split_ifs at hstep
    exact (some.inj hstep).symm
  have hdid := ConfigChange.run_did toml path change s.files
  generalize change.run toml path s.files = result at hdid ht
  subst ht
  cases hdid with
  | nothing hnot =>
    refine ⟨hnamed, iff_of_true ⟨?_, hkept.newest⟩ fun h => absurd h hnot⟩
    intro bytes hbytes
    simp [after] at hbytes
  | created content hnot hpath htmp =>
    refine ⟨hnamed, iff_of_true ⟨?_, ?_⟩ fun h => absurd h hnot⟩
    · intro bytes hbytes
      simp [after, lookup_eq_none.mpr hpath] at hbytes
    · intro backup hbackup
      have hfile := hnamed backup (mem_of_mem_take hbackup)
      rw [← hkept.newest backup hbackup]
      exact lookup_written_of_backup hfile fun h => htmp (h ▸ hfile)
  | @migrated pid kind now before content hreplaces hbefore =>
    have hbackup : IsBackupOf path (backupPathFor (.reliable pid) now.backup path) :=
      isBackupOf_backupEnding path _ _
    refine ⟨named_after hnamed hbackup, ?_⟩
    have hlookup : ∀ file, IsBackupOf path file →
        (written (backupPathFor (.reliable pid) now.temporary path) path content
          (s.files.insert (backupPathFor (.reliable pid) now.backup path) before)).lookup file =
          if file = backupPathFor (.reliable pid) now.temporary path then none
          else (s.files.insert (backupPathFor (.reliable pid) now.backup path) before).lookup
            file := by
      intro file hfile
      have hpath : file ≠ path := fun h => not_isBackupOf_self path (h ▸ hfile)
      rw [lookup_written, if_neg hpath]
    have hiff := kept_after_iff (.migrate pid kind now) hnamed hkept hbackup hbefore hlookup
    exact hiff.trans ⟨fun h _ => h, fun h => h hreplaces⟩
  | @patched pid type validate payload now before tmp_path content files' hreplaces hbefore htmp
      hfiles' =>
    have hbackup : IsBackupOf path (backupPath (.reliable pid) now.backup path) :=
      isBackupOf_backupEnding path _ _
    refine ⟨named_after hnamed hbackup, ?_⟩
    -- neither the file nor its temporary file counts among the backups
    have hstale : ∀ file, IsStale path backupKeepCount (written tmp_path path content
        (s.files.insert (backupPath (.reliable pid) now.backup path) before)) file ↔
        IsStale path backupKeepCount
          (s.files.insert (backupPath (.reliable pid) now.backup path) ByteArray.empty) file := by
      refine isStale_congr fun file hfile => ?_
      have hpath : file ≠ path := fun h => not_isBackupOf_self path (h ▸ hfile)
      have htmp : file ≠ tmp_path := fun h => htmp (h ▸ hfile)
      rw [mem_written, mem_insert, mem_insert]
      exact ⟨fun h => (h.resolve_left hpath).2, fun h => .inr ⟨htmp, h⟩⟩
    have hlookup : ∀ file, IsBackupOf path file → files'.lookup file =
        if IsStale path backupKeepCount (s.files.insert
          (backupPath (.reliable pid) now.backup path) ByteArray.empty) file then none
        else (s.files.insert (backupPath (.reliable pid) now.backup path) before).lookup file := by
      intro file hfile
      have htmp : file ≠ tmp_path := fun h => htmp (h ▸ hfile)
      rw [hfiles', lookup_written_of_backup hfile htmp]
      exact if_congr (hstale file) rfl rfl
    have hiff := kept_after_iff (.patch pid type validate payload now) hnamed hkept hbackup
      hbefore hlookup
    exact hiff.trans ⟨fun h _ => h, fun h => h hreplaces⟩

/-- In a run of changes, the bytes that a change replaces and the newest ten backups are kept in
every state exactly if every change spares the backups. -/
theorem backups_kept_iff (hstart : s.Starts path) (changes : List ConfigChange) :
    Lts.Throughout (step toml path) (Kept path) s changes ↔
      Lts.Meets (step toml path) (Spares toml path) s changes := by
  refine Lts.throughout_iff_meets (N := Named path) (fun s l t => kept_step) hstart.named ?_ changes
  refine ⟨fun bytes hbytes => ?_, fun backup hmem => ?_⟩
  · rw [hstart.before] at hbytes
    cases hbytes
  · exact hstart.there backup (mem_of_mem_take hmem)

end

section Examples

def runnerTomlPath : FilePath := ⟨"/etc/oxydra", "runner.toml"⟩

def legacyText : String := "config_version = \"1.0.0\"\n"
def currentText : String := "config_version = \"1.0.1\"\n"
def processText : String := "default_tier = \"process\"\n"

/-- What `toml_edit` reads and prints where a file of the legacy version is migrated, and then gets a
tier. -/
def legacyToml : TomlCrate where
  parse text :=
    if text = legacyText then .ok [("config_version", .string "1.0.0")]
    else if text = currentText then .ok [("config_version", .string "1.0.1")]
    else if text = currentText ++ processText then
      .ok [("config_version", .string "1.0.1"), ("default_tier", .string "process")]
    else .error "not read here"
  pretty _ := .error "not printed here"
  edited _ table :=
    if (table.lookup "default_tier").isSome then currentText ++ processText else currentText
  coercions := ⟨fun _ _ => none, fun _ _ => none⟩
  mismatch _ _ := "not read here"

/-- A file of the legacy version, without backups. -/
def legacyConfig : BackedConfig where
  files := AList.singleton runnerTomlPath legacyText.toUTF8
  clock := 0
  backups := []
  before := none

theorem legacyConfig_starts : legacyConfig.Starts runnerTomlPath :=
  ⟨rfl, fun _ hmem => absurd hmem not_mem_nil, fun _ hmem => absurd hmem not_mem_nil⟩

theorem migrationOf_legacyConfig :
    migrationOf legacyToml runnerTomlPath .global legacyConfig.files = some currentText := by
  have htext : textOf legacyConfig.files runnerTomlPath = some legacyText := by
    have hbytes : legacyConfig.files.lookup runnerTomlPath = some legacyText.toUTF8 := rfl
    rw [textOf, hbytes, bind_some, fromUTF8?_toUTF8]
  have hmigrated : (migratedText legacyToml runnerTomlPath .global legacyText).toOption.bind
      (fun text => text) = some currentText := by
    decide +kernel
  unfold migrationOf
  rw [htext]
  exact hmigrated

theorem legacyConfig_migrates :
    (migrationOf legacyToml runnerTomlPath .global legacyConfig.files).isSome :=
  migrationOf_legacyConfig ▸ rfl

/-- The migration of the file. -/
def legacyMigration : ConfigChange := .migrate 42 .global ⟨1700000000000000000, 1700000000000000001⟩

/-- Its backup. -/
def legacyBackup : FilePath := backupPathFor (.reliable 42) 1700000000000000000 runnerTomlPath

/-- A patch of it, five minutes later. -/
def tierPatch : ConfigChange :=
  .patch 43 runnerGlobalConfig (fun _ => .ok ()) (.object [("default_tier", .string "process")])
    ⟨1700000300000000000, 1700000300000000001⟩

/-- What the migration leaves. -/
theorem step_legacyMigration {t : BackedConfig}
    (h : step legacyToml runnerTomlPath legacyConfig legacyMigration = some t) :
    t.backups = [(legacyBackup, legacyText.toUTF8)] ∧
      ∃ tmp_path, t.files = written tmp_path runnerTomlPath currentText
        (legacyConfig.files.insert legacyBackup legacyText.toUTF8) := by
  have hrun : migrateConfigFileIfNeeded (.reliable 42)
      ⟨1700000000000000000, 1700000000000000001⟩ legacyToml runnerTomlPath .global
      legacyConfig.files = _ :=
    (FileHost.reliable_reliable 42).migrate_run migrationOf_legacyConfig rfl
  unfold step at h
  split_ifs at h
  cases h
  rw [legacyMigration, ConfigChange.run, hrun]
  exact ⟨rfl, _, rfl⟩

/-- The patch then changes the file. -/
theorem tierPatch_replaces {t : BackedConfig}
    (h : step legacyToml runnerTomlPath legacyConfig legacyMigration = some t) :
    tierPatch.Replaces legacyToml runnerTomlPath t.files := by
  obtain ⟨-, tmp_path, hfiles⟩ := step_legacyMigration h
  have hlookup : t.files.lookup runnerTomlPath = some currentText.toUTF8 := by
    rw [hfiles, lookup_written, if_pos rfl]
  have hchanges : ((preparePatch legacyToml runnerGlobalConfig (fun _ => .ok ())
      runnerTomlPath.display (some (.ok currentText))
      (.object [("default_tier", .string "process")])).toOption.map fun prepared =>
        prepared.changed_fields.isEmpty) = some false := by
    decide +kernel
  obtain ⟨prepared, hprepared, hchanged⟩ := map_eq_some_iff.mp hchanges
  refine ⟨lookup_isSome.mp (by rw [hlookup]; rfl), prepared, ?_, ?_⟩
  · rw [configFileOf, hlookup, map_some, fromUTF8?_toUTF8]
    exact mem_toOption.mp hprepared
  · rw [Ne, ← List.isEmpty_iff, hchanged]
    decide

/-- Where there are few backups, none is stale. -/
theorem not_isStale_of_few {path file : FilePath} {keep : ℕ} {files : ConfigFiles}
    {names : List String} (hnames : ∀ name ∈ backupNames path files, name ∈ names)
    (hfew : names.length < keep) : ¬IsStale path keep files file := by
  rintro ⟨-, hstale⟩
  have hle := ((nodup_backupNames path files).subperm hnames).length_le
  exact absurd hfew (not_lt.mpr ((hstale.trans countP_le_length).trans hle))

/-- With readings that differ, the migration keeps the file that it replaces, and a later patch what
the migration has written and its backup. -/
theorem changes_keep_backups :
    Lts.Throughout (step legacyToml runnerTomlPath) (Kept runnerTomlPath) legacyConfig
        [legacyMigration, tierPatch] ∧
      ∀ t, step legacyToml runnerTomlPath legacyConfig legacyMigration = some t →
        tierPatch.Replaces legacyToml runnerTomlPath t.files := by
  refine ⟨(backups_kept_iff legacyConfig_starts _).mpr fun t ht =>
    ⟨fun _ => ⟨?_, ?_⟩, fun u _ => ⟨fun _ => ?_, trivial⟩⟩, fun t ht => tierPatch_replaces ht⟩
  · exact fun h => absurd (FilePath.sibling_injective h) (by decide)
  · exact fun kept hmem => absurd hmem not_mem_nil
  · obtain ⟨hbackups, tmp_path, hfiles⟩ := step_legacyMigration ht
    set backup_path := backupPath (.reliable 43) 1700000300000000000 runnerTomlPath
    -- the two backups are all there are
    have hnames : ∀ name ∈ backupNames runnerTomlPath (t.files.insert backup_path ByteArray.empty),
        name ∈ [backup_path.file_name, legacyBackup.file_name] := by
      intro name hname
      obtain ⟨hbackup, hmem⟩ := mem_backupNames.mp hname
      have hnot : (⟨runnerTomlPath.parent, name⟩ : FilePath) ≠ runnerTomlPath := by
        intro h
        have hname : name = runnerTomlPath.file_name := congrArg FilePath.file_name h
        exact not_isBackupOf_self runnerTomlPath ⟨rfl, hname ▸ hbackup⟩
      rw [mem_insert, hfiles, mem_written, mem_insert] at hmem
      obtain hnew | hpath | ⟨-, hlegacy | hpath⟩ := hmem
      · exact mem_cons.mpr (.inl (congrArg FilePath.file_name hnew))
      · exact absurd hpath hnot
      · exact mem_cons_of_mem _ (mem_singleton.mpr (congrArg FilePath.file_name hlegacy))
      · exact absurd (mem_singleton.mp hpath) hnot
    have hfew : ∀ file, ¬IsStale runnerTomlPath backupKeepCount
        (t.files.insert backup_path ByteArray.empty) file :=
      fun file => not_isStale_of_few hnames (by simp [backupKeepCount])
    refine ⟨hfew _, fun kept hkept => ⟨hfew _, fun hsame => ?_⟩⟩
    obtain rfl : kept = (legacyBackup, legacyText.toUTF8) := by
      rw [hbackups] at hkept
      exact mem_singleton.mp (mem_of_mem_take hkept)
    exact absurd (FilePath.sibling_injective hsame) (by decide)

/-- With two readings that are the same, the migration renames its own backup. -/
theorem equal_readings_lose_backup :
    legacyConfig.Starts runnerTomlPath ∧
      ¬Lts.Throughout (step legacyToml runnerTomlPath) (Kept runnerTomlPath) legacyConfig
        [.migrate 42 .global ⟨1700000000000000000, 1700000000000000000⟩] := by
  refine ⟨legacyConfig_starts, ?_⟩
  rintro ⟨hkept, hrun⟩
  have hstep : ∃ t, step legacyToml runnerTomlPath legacyConfig
      (.migrate 42 .global ⟨1700000000000000000, 1700000000000000000⟩) = some t :=
    ⟨_, if_pos (by decide)⟩
  obtain ⟨t, hstep⟩ := hstep
  have hspares := (kept_step legacyConfig_starts.named hkept hstep).2.mp (hrun t hstep)
  exact (hspares legacyConfig_migrates).1 rfl

end Examples

end BackedConfig

end Oxydra
