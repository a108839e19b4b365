import Oxydra.Runner.FileFaults
import Oxydra.Runner.WebUsers

/-!
# Web requests for users whose calls fail

`WebUsers` is what the requests are about: the registered users with their config paths, and the
files but for the runner configuration and what is made next to it.
-/

namespace Oxydra

open Option Toml Effect

/-- The registered users with their config paths, and the user configuration files. -/
@[ext]
structure WebUsers where
  users : String → Option String
  files : FilePath → Option ByteArray

namespace WebServer

variable (server : WebServer)

/-- What there is of the users. -/
def webUsers (files : ConfigFiles) : WebUsers where
  users := registeredUsers server.toml (files.lookup server.config_path)
  files file := if Persisted server.config_path file then none else files.lookup file

variable {server} {files files' : ConfigFiles}

/-- Without a change of the runner configuration, the users are the same; without one of other files,
these are. -/
theorem webUsers_eq (hsame : SameOutside (Persisted server.config_path) files files')
    (husers : registeredUsers server.toml (files'.lookup server.config_path) =
      registeredUsers server.toml (files.lookup server.config_path)) :
    server.webUsers files' = server.webUsers files := by
  refine WebUsers.ext husers (funext fun file => ?_)
  show (if _ then _ else _) = if _ then _ else _
  split_ifs with hfile
  · rfl
  · exact hsame file hfile

end WebServer

/-! ## Loading -/

section Loading

variable {host : FileHost} {files : ConfigFiles} {path : FilePath} {kind : ConfigKind}
  {toml : TomlCrate} {now : MigrationTimes}

/-- A migration has put what it writes into the file, or has left it. -/
def Migrated (toml : TomlCrate) (path : FilePath) (kind : ConfigKind)
    (files files' : ConfigFiles) : Prop :=
  SameOutside (Persisted path) files files' ∧
    (files'.lookup path = files.lookup path ∨
      ∃ text, migrationOf toml path kind files = some text ∧
        files'.lookup path = some text.toUTF8)

theorem Migrated.refl : Migrated toml path kind files files := ⟨.refl _ _, .inl rfl⟩

theorem persisted_backupPathFor (now : ℤ) : Persisted path (backupPathFor host now path) :=
  .inr (.inl (isBackupOf_backupEnding _ _ _))

theorem backupPathFor_ne (now : ℤ) : backupPathFor host now path ≠ path := by
  intro heq
  have hbackup : IsBackupOf path (backupPathFor host now path) := isBackupOf_backupEnding _ _ _
  rw [heq] at hbackup
  exact not_isBackupOf_self path hbackup

theorem migrated_of_sameOutside {backup_path : FilePath} {files' files'' : ConfigFiles}
    (hbackup : backup_path ≠ path) (hpersisted : Persisted path backup_path)
    (h : Migrated toml path kind files files') (hsame : SameOutside (backup_path = ·) files' files'') :
    Migrated toml path kind files files'' := by
  obtain ⟨htouched, hlookup⟩ := h
  refine ⟨htouched.trans (hsame.mono fun file hfile => hfile ▸ hpersisted), ?_⟩
  rwa [hsame path hbackup]

/-- A migration, whichever of its calls fail. -/
theorem wp_rewriteConfigFile {text : String} (h : migrationOf toml path kind files = some text) :
    wp (rewriteConfigFile host now path text) (fun _ => Migrated toml path kind files)
      (fun _ => Migrated toml path kind files) files := by
  unfold rewriteConfigFile FileHost.write
  simp only [wp_bind, wp_adaptExcept, wp_pure]
  have hbackup : ∀ files₁, SameOutside (backupPathFor host now.backup path = ·) files files₁ →
      Migrated toml path kind files files₁ := fun files₁ hsame =>
    migrated_of_sameOutside (backupPathFor_ne _) (persisted_backupPathFor _) .refl hsame
  refine FileHost.wp_copy.mono ?_ fun _ => hbackup
  intro _ files₁ hcopied
  have hwritten : ∀ files₂, SameOutside (backupPathFor host now.temporary path = ·) files₁ files₂ →
      Migrated toml path kind files files₂ := fun files₂ hsame =>
    migrated_of_sameOutside (backupPathFor_ne _) (persisted_backupPathFor _) (hbackup _ hcopied)
      hsame
  refine FileHost.wp_openTruncated.mono ?_ fun _ _ hfiles => hfiles ▸ hbackup _ hcopied
  intro _ files₂ hopened
  have hopen : SameOutside (backupPathFor host now.temporary path = ·) files₁ files₂ :=
    hopened ▸ sameOutside_insert rfl _ _
  refine FileHost.wp_writeAll.mono ?_ fun _ files₃ hsame => hwritten _ (hopen.trans hsame)
  intro _ files₃ hfiles₃
  have hwrite : SameOutside (backupPathFor host now.temporary path = ·) files₁ files₃ :=
    hfiles₃ ▸ hopen.trans (sameOutside_insert rfl _ _)
  refine FileHost.wp_rename.mono ?_ fun _ _ hfiles => hfiles ▸ hwritten _ hwrite
  rintro _ _ ⟨bytes, hbytes, rfl⟩
  obtain rfl : text.toUTF8 = bytes := by
    rw [hfiles₃, AList.lookup_insert] at hbytes
    exact some.inj hbytes
  refine ⟨?_, .inr ⟨text, h, AList.lookup_insert _⟩⟩
  refine (hwritten _ hwrite).1.trans ?_
  exact (sameOutside_erase (persisted_backupPathFor _) _).trans (sameOutside_insert (.inl rfl) _ _)

theorem wp_migrateConfigFileIfNeeded : wp (migrateConfigFileIfNeeded host now toml path kind)
    (fun _ => Migrated toml path kind files) (fun _ => Migrated toml path kind files) files := by
  unfold migrateConfigFileIfNeeded
  simp only [wp_bind, wp_adaptExcept, wp_ofExcept]
  refine FileHost.wp_readToString.mono ?_ fun _ _ hfiles => hfiles ▸ .refl
  rintro raw _ ⟨rfl, hraw⟩
  refine ⟨fun written hwritten => ?_, fun _ _ => .refl⟩
  cases written with
  | none => exact .refl
  | some text =>
    refine wp_rewriteConfigFile ?_
    rw [migrationOf, hraw, bind_eq_bind, bind_some, hwritten]
    rfl

/-- A migration changes the version only. -/
theorem applyMigrations_eq_ok {current_version : String} {document migrated : Table}
    (hversion : current_version ≠ defaultRunnerConfigVersion)
    (h : applyMigrations path kind 1 document current_version = .ok migrated) :
    migrated = Fields.insert "config_version" (.string defaultRunnerConfigVersion) document := by
  unfold applyMigrations at h
  rw [if_neg hversion] at h
  cases hfind : kind.migrations.find? fun migration =>
    migration.from_version = current_version with
  | none =>
    rw [hfind] at h
    cases h
  | some migration =>
    rw [hfind] at h
    have hmem := List.mem_of_find?_eq_some hfind
    have hmigration : migration.transform document = .ok document ∧
        migration.to_version = defaultRunnerConfigVersion := by
      cases kind <;> exact List.mem_singleton.mp hmem ▸ ⟨rfl, rfl⟩
    dsimp only at h
    rw [hmigration.1, hmigration.2, except_ok_bind, applyMigrations, if_pos rfl] at h
    exact (Except.ok.inj h).symm

/-- `toml_edit` prints a text with the version of a migration so that it is read as such. -/
def PrintsVersion (toml : TomlCrate) (text : String) : Prop :=
  ∀ document, toml.parse text = .ok document →
    let migrated := Fields.insert "config_version" (.string defaultRunnerConfigVersion) document
    toml.parse (toml.edited text migrated) = .ok migrated

/-- A migration changes no user. -/
theorem Migrated.users {files' : ConfigFiles} (h : Migrated toml path kind files files')
    (hprint : ∀ text, textOf files path = some text → PrintsVersion toml text) :
    registeredUsers toml (files'.lookup path) = registeredUsers toml (files.lookup path) := by
  obtain ⟨-, hsame | ⟨text, htext, hlookup⟩⟩ := h
  · rw [hsame]
  obtain ⟨raw, hraw, htext⟩ := bind_eq_some_iff.mp htext
  obtain ⟨some_text, hmigrated, rfl⟩ := bind_eq_some_iff.mp htext
  obtain ⟨document, hdocument, hmigrated⟩ := except_bind_eq_ok.mp (mem_toOption.mp hmigrated)
  have hdocument := mapError_eq_ok.mp hdocument
  rw [hlookup, registeredUsers_toUTF8, registeredUsers_of_textOf hraw,
    textUsers_of_parse hdocument]
  dsimp only at hmigrated
  split_ifs at hmigrated with hversion holder
  · cases hmigrated
  swap
  · cases hmigrated
  obtain ⟨migrated, happly, hmigrated⟩ := except_bind_eq_ok.mp hmigrated
  cases hmigrated
  obtain rfl := applyMigrations_eq_ok hversion happly
  rw [textUsers_of_parse (hprint raw hraw document hdocument), documentUsers, documentUsers,
    Fields.lookup_insert, if_neg (by decide)]

end Loading

end Oxydra
