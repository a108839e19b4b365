import Mathlib.Data.List.AList
import Oxydra.Library.Effect
import Oxydra.Runner.ConfigPatch

/-!
# Configuration files and their backups

`backup_file`, `prune_backups`, `atomic_write`, and `persist_patch` of
`crates/runner/src/web/config_write.rs`, over the files and what the operating system does with the
calls: each of them may fail, and one that fails while it writes may leave a part of what it wrote.

A reading of the clock is in nanoseconds since the epoch.
-/

namespace Oxydra

open List Toml Effect

variable {ending name : String}

/-- The path of a file: its directory, and its name there. -/
structure FilePath where
  parent : String
  file_name : String
  deriving DecidableEq

namespace FilePath

/-- The file of this directory whose name is the name of this one with an ending. -/
def sibling (path : FilePath) (ending : String) : FilePath :=
  ⟨path.parent, path.file_name ++ ending⟩

/-- `Path::display`. -/
def display (path : FilePath) : String := path.parent ++ "/" ++ path.file_name

/-- Different endings, different files. -/
theorem sibling_injective {path : FilePath} {ending ending' : String}
    (h : path.sibling ending = path.sibling ending') : ending = ending' := by
  have hname : path.file_name ++ ending = path.file_name ++ ending' := (FilePath.mk.inj h).2
  exact String.append_right_inj _ |>.mp hname

/-- A sibling is another file. -/
theorem sibling_ne {path : FilePath} (h : ending ≠ "") :
    path.sibling ending ≠ path := by
  intro hpath
  have hname : path.file_name ++ ending = path.file_name := (FilePath.mk.inj hpath).2
  have hlen := congrArg String.length hname
  rw [String.length_append] at hlen
  exact h (String.length_eq_zero_iff.mp (by omega))

end FilePath

/-- The files, with their bytes. -/
abbrev ConfigFiles := AList fun _ : FilePath => ByteArray

/-- The calls to the operating system. -/
inductive FileCall where
  | metadata (path : FilePath)
  | read (path : FilePath)
  | createDirAll (parent : String)
  | openTruncated (path : FilePath)
  | writeAll (path : FilePath)
  | syncAll (path : FilePath)
  | rename (source target : FilePath)
  | removeFile (path : FilePath)
  | copy (source target : FilePath)
  | readDir (parent : String)
  deriving DecidableEq

/-- What the operating system does with the calls of a process. -/
structure FileHost where
  /-- The error that a call fails with. -/
  fails : FileCall → Option String
  /-- The bytes that a call that failed has left in the file that it writes, if it touched it. -/
  leaves : FileCall → Option ByteArray
  /-- The error for a file that is not there. -/
  not_found : String
  /-- `std::process::id`. -/
  pid : ℕ

/-- No call fails. -/
def FileHost.Reliable (host : FileHost) : Prop := ∀ call, host.fails call = none

/-- A computation over the files that may fail with an `io::Error`. -/
abbrev FileM := EStateM String ConfigFiles

/-- `let _ = ...`: that a computation failed is not looked at. -/
def attempt (x : FileM Unit) : FileM Unit := tryCatch x fun _ => pure ()

/-- The names of the files of a directory. -/
def fileNames (parent : String) (files : ConfigFiles) : List String :=
  (files.keys.filter fun file => file.parent = parent).map FilePath.file_name

namespace FileHost

variable (host : FileHost)

/-- A call that fails without an effect. -/
def perform (call : FileCall) : FileM Unit :=
  match host.fails call with
  | some error => throw error
  | none => pure ()

/-- A call that writes to a file. -/
def performOn (call : FileCall) (target : FilePath) : FileM Unit :=
  match host.fails call with
  | some error => do
    match host.leaves call with
    | some bytes => modify (AList.insert target bytes)
    | none => pure ()
    throw error
  | none => pure ()

/-- The bytes of a file. -/
def bytesOf (path : FilePath) : FileM ByteArray := do
  match (← get).lookup path with
  | some bytes => return bytes
  | none => throw host.not_found

/-- `Path::exists`: where it cannot be told, the answer is no. -/
def pathExists (path : FilePath) : FileM Bool := do
  return (host.fails (.metadata path)).isNone && ((← get).lookup path).isSome

/-- `fs::read_to_string`. -/
def readToString (path : FilePath) : FileM String := do
  host.perform (.read path)
  match String.fromUTF8? (← host.bytesOf path) with
  | some text => return text
  | none => throw "stream did not contain valid UTF-8"

/-- `fs::create_dir_all`. -/
def createDirAll (parent : String) : FileM Unit := host.perform (.createDirAll parent)

/-- `fs::copy`. -/
def copy (source target : FilePath) : FileM Unit := do
  host.performOn (.copy source target) target
  let bytes ← host.bytesOf source
  modify (AList.insert target bytes)

/-- `OpenOptions::open`, with `create`, `truncate`, and `write`. -/
def openTruncated (path : FilePath) : FileM Unit := do
  host.perform (.openTruncated path)
  modify (AList.insert path ByteArray.empty)

/-- `File::write_all`, into a file that was just opened. -/
def writeAll (path : FilePath) (bytes : ByteArray) : FileM Unit := do
  host.performOn (.writeAll path) path
  modify (AList.insert path bytes)

/-- `File::sync_all`. -/
def syncAll (path : FilePath) : FileM Unit := host.perform (.syncAll path)

/-- `fs::rename`. -/
def rename (source target : FilePath) : FileM Unit := do
  host.perform (.rename source target)
  let bytes ← host.bytesOf source
  modify fun files => (files.erase source).insert target bytes

/-- `fs::remove_file`. -/
def removeFile (path : FilePath) : FileM Unit := do
  host.perform (.removeFile path)
  let _ ← host.bytesOf path
  modify (AList.erase path)

/-- `fs::read_dir`. -/
def readDir (parent : String) : FileM (List String) := do
  host.perform (.readDir parent)
  return fileNames parent (← get)

end FileHost

/-! ## `config_write.rs` -/

/-- `BACKUP_KEEP_COUNT`. -/
def backupKeepCount : ℕ := 10

/-- `as_millis`, of a time before the epoch zero. -/
def asMillis (now : ℤ) : ℕ := now.toNat / 1000000

/-- What the name of a backup adds to that of the file. -/
def backupEnding (timestamp pid : ℕ) : String :=
  ".bak." ++ (toString timestamp ++ "." ++ toString pid)

/-- The path of the backup that `backup_file` makes. -/
def backupPath (host : FileHost) (now : ℤ) (path : FilePath) : FilePath :=
  path.sibling (backupEnding (asMillis now) host.pid)

/-- `backup_file`. -/
def backupFile (host : FileHost) (now : ℤ) (path : FilePath) : FileM FilePath := do
  host.copy path (backupPath host now path)
  return backupPath host now path

/-- A name begins as those of the backups of a file do. -/
def isBackupName (path : FilePath) (name : String) : Bool :=
  (path.file_name ++ ".bak.").toList.isPrefixOf name.toList

/-- A file next to another one, with the name of a backup of it. -/
def IsBackupOf (path file : FilePath) : Prop :=
  file.parent = path.parent ∧ isBackupName path file.file_name

instance (path : FilePath) : DecidablePred (IsBackupOf path) :=
  fun _ => inferInstanceAs (Decidable (_ ∧ _))

/-- The backups but the latest `keep`, by their names. -/
def staleBackups (path : FilePath) (keep : ℕ) (names : List String) : List String :=
  ((names.filter (isBackupName path)).mergeSort fun a b => decide (b ≤ a)).drop keep

/-- `prune_backups`. -/
def pruneBackups (host : FileHost) (path : FilePath) (keep : ℕ) : FileM Unit := do
  let names ← host.readDir path.parent
  (staleBackups path keep names).forM fun name => host.removeFile ⟨path.parent, name⟩

/-- The path of the file that `atomic_write` renames. -/
def temporaryPath (host : FileHost) (now : ℤ) (path : FilePath) : FilePath :=
  path.sibling (".tmp." ++ (toString host.pid ++ "." ++ toString now.toNat))

/-- `atomic_write`. That the directory cannot be synchronized is not looked at. -/
def atomicWrite (host : FileHost) (now : ℤ) (path : FilePath) (content : String) :
    FileM Unit := do
  host.createDirAll path.parent
  let tmp_path := temporaryPath host now path
  host.openTruncated tmp_path
  host.writeAll tmp_path content.toUTF8
  host.syncAll tmp_path
  tryCatch (host.rename tmp_path path) fun error => do
    attempt (host.removeFile tmp_path)
    throw error

/-- The readings of the clock of `persist_patch`. -/
structure PatchTimes where
  backup : ℤ
  write : ℤ

/-- The backup that `persist_patch` makes, of a file that was there. -/
def backupExisting (host : FileHost) (now : ℤ) (path : FilePath) (file_exists : Bool) :
    FileM (Option FilePath) :=
  if file_exists then some <$> backupFile host now path else pure none

/-- How `persist_patch` writes: where that fails, the backup is copied back. -/
def writeOrRestore (host : FileHost) (now : ℤ) (path : FilePath) (content : String)
    (backup : Option FilePath) : FileM Unit :=
  tryCatch (atomicWrite host now path content) fun error => do
    if let some backup_path := backup then
      attempt (host.copy backup_path path)
    throw error

/-- What `persist_patch` does at the end. -/
def pruneIfBackedUp (host : FileHost) (path : FilePath) (backup : Option FilePath) : FileM Unit :=
  if backup.isSome then pruneBackups host path backupKeepCount else pure ()

/-- `persist_patch`. -/
def persistPatch (host : FileHost) (now : PatchTimes) (path : FilePath)
    (prepared : PreparedPatch) : EStateM ErrorResponse ConfigFiles (Option FilePath) :=
  if prepared.changed_fields = [] then pure none
  else do
    let backup ← (backupExisting host now.backup path prepared.file_exists).adaptExcept fun error =>
      configWriteFailed s!"failed to create backup for `{path.display}`: {error}"
    (writeOrRestore host now.write path prepared.rendered_toml backup).adaptExcept fun error =>
      configWriteFailed s!"failed to write config `{path.display}`: {error}"
    (pruneIfBackedUp host path backup).adaptExcept fun error =>
      configWriteFailed s!"failed to prune backups for `{path.display}`: {error}"
    return backup

/-! ## A patch -/

section Patch

variable (host : FileHost) (path : FilePath)

/-- What `prepare_patch` finds of the file. -/
def FileHost.configFile : FileM ConfigFile := do
  if ← host.pathExists path then
    tryCatch (do return some (.ok (← host.readToString path))) fun error =>
      return some (.error error)
  else return none

/-- `prepare_patch`. -/
def preparePatchOf (toml : TomlCrate) (type : ConfigType) (validate : Datum → Except String Unit)
    (patch : Value) : EStateM ErrorResponse ConfigFiles PreparedPatch := do
  let file ← (host.configFile path).adaptExcept configWriteFailed
  Effect.ofExcept (preparePatch toml type validate path.display file patch)

/-- What `patch_runner_config` does with the file, and the handlers for the other ones. -/
def patchConfigFile (now : PatchTimes) (toml : TomlCrate) (type : ConfigType)
    (validate : Datum → Except String Unit) (patch : Value) :
    EStateM ErrorResponse ConfigFiles (Option FilePath) := do
  let prepared ← preparePatchOf host path toml type validate patch
  persistPatch host now path prepared

end Patch

/-- A patch is prepared for a file that is there exactly if one is there. -/
theorem file_exists_of_preparePatch {toml : TomlCrate} {type : ConfigType}
    {validate : Datum → Except String Unit} {path : String} {file : ConfigFile} {patch : Value}
    {prepared : PreparedPatch}
    (h : preparePatch toml type validate path file patch = .ok prepared) :
    prepared.file_exists = file.isSome := by
  cases patch with
  | object patch_obj =>
    unfold preparePatch at h
    obtain ⟨⟨existing_toml, file_exists⟩, hexisting, h⟩ := except_bind_eq_ok.mp h
    obtain ⟨before, -, h⟩ := except_bind_eq_ok.mp h
    obtain ⟨document, -, h⟩ := except_bind_eq_ok.mp h
    obtain ⟨patched, -, h⟩ := except_bind_eq_ok.mp h
    obtain ⟨after, -, h⟩ := except_bind_eq_ok.mp h
    obtain ⟨-, -, h⟩ := except_bind_eq_ok.mp h
    cases h
    match file with
    | some (.ok content) => exact (Prod.mk.inj (Except.ok.inj hexisting)).2.symm
    | some (.error error) => cases hexisting
    | none =>
      obtain ⟨default_toml, -, hexisting⟩ := except_bind_eq_ok.mp hexisting
      exact (Prod.mk.inj (Except.ok.inj hexisting)).2.symm
  | _ => cases h

/-- A file that was written and removed is as one that was removed. -/
theorem erase_insert (file : FilePath) (bytes : ByteArray) (files : ConfigFiles) :
    (files.insert file bytes).erase file = files.erase file := by
  apply AList.ext
  show List.kerase file (List.kinsert file bytes files.entries) = List.kerase file files.entries
  exact kerase_cons_eq (s := (⟨file, bytes⟩ : Sigma fun _ : FilePath => ByteArray)) rfl

/-! ## The stale backups -/

/-- Of a list in descending order, what comes after the first `keep` has at least as many elements
above it. -/
theorem mem_drop_iff_le_countP {α : Type*} [LinearOrder α] {l : List α}
    (h : l.Pairwise (· > ·)) {x : α} (hx : x ∈ l) (keep : ℕ) :
    x ∈ l.drop keep ↔ keep ≤ l.countP (x < ·) := by
  have hsplit := take_append_drop keep l
  have hcount : l.countP (x < ·) = (l.take keep).countP (x < ·) + (l.drop keep).countP (x < ·) := by
    rw [← countP_append, hsplit]
  have hsorted := h
  rw [← hsplit] at hsorted hx
  obtain ⟨-, hrest, hcross⟩ := pairwise_append.mp hsorted
  constructor
  · intro hdrop
    have hall : (l.take keep).countP (x < ·) = (l.take keep).length := by
      rw [countP_eq_length]
      intro y hy
      simpa using hcross y hy x hdrop
    have hlt : keep < l.length := by
      by_contra hle
      rw [drop_eq_nil_of_le (by omega)] at hdrop
      simp at hdrop
    rw [hcount, hall, length_take]
    omega
  · intro hle
    obtain htake | hdrop := mem_append.mp hx
    · -- an element of the first part is above the rest, and not above itself
      have hnone : (l.drop keep).countP (x < ·) = 0 := by
        rw [countP_eq_zero]
        intro y hy
        simpa using (hcross x htake y hy).le
      have hfewer : (l.take keep).countP (x < ·) < (l.take keep).length := by
        refine lt_of_le_of_ne countP_le_length fun heq => ?_
        have hself := countP_eq_length.mp heq x htake
        simp at hself
      rw [length_take] at hfewer
      omega
    · exact hdrop

/-- The names of a directory that are names of backups. -/
def backupNames (path : FilePath) (files : ConfigFiles) : List String :=
  (fileNames path.parent files).filter (isBackupName path)

/-- No backup is named twice. -/
theorem nodup_backupNames (path : FilePath) (files : ConfigFiles) :
    (backupNames path files).Nodup := by
  unfold backupNames fileNames
  refine List.Nodup.filter _ (List.Nodup.map_on ?_ (files.keys_nodup.filter _))
  intro a ha b hb hname
  have hparent : a.parent = path.parent := by simpa using (mem_filter.mp ha).2
  have hparent' : b.parent = path.parent := by simpa using (mem_filter.mp hb).2
  cases a
  cases b
  simp_all

/-- A backup is a file with such a name. -/
theorem mem_backupNames {path : FilePath} {files : ConfigFiles} :
    name ∈ backupNames path files ↔ isBackupName path name ∧ ⟨path.parent, name⟩ ∈ files := by
  unfold backupNames fileNames
  rw [mem_filter, and_comm]
  refine and_congr_right fun _ => ?_
  rw [AList.mem_keys, mem_map]
  constructor
  · rintro ⟨⟨parent, file_name⟩, hmem, rfl⟩
    obtain ⟨hmem, hparent⟩ := mem_filter.mp hmem
    have hparent : parent = path.parent := by simpa using hparent
    exact hparent ▸ hmem
  · intro hmem
    exact ⟨⟨path.parent, name⟩, mem_filter.mpr ⟨hmem, by simp⟩, rfl⟩

/-! ## The names of backups -/

/-- The name of a backup. -/
theorem isBackupName_iff {path : FilePath} :
    isBackupName path name ↔ ∃ ending, name = path.file_name ++ (".bak." ++ ending) := by
  unfold isBackupName
  rw [List.isPrefixOf_iff_prefix]
  constructor
  · rintro ⟨rest, hrest⟩
    refine ⟨String.ofList rest, String.toList_injective ?_⟩
    rw [← hrest]
    simp
  · rintro ⟨ending, rfl⟩
    refine ⟨ending.toList, ?_⟩
    simp

/-- What a backup adds to the name begins with `.bak.`. -/
theorem isBackupOf_sibling {path : FilePath} :
    IsBackupOf path (path.sibling ending) ↔ ∃ rest, ending = ".bak." ++ rest := by
  unfold IsBackupOf
  rw [isBackupName_iff]
  refine (and_iff_right rfl).trans (exists_congr fun rest => ?_)
  exact String.append_right_inj path.file_name

/-- `backup_path` is a backup. -/
theorem isBackupOf_backupEnding (path : FilePath) (timestamp pid : ℕ) :
    IsBackupOf path (path.sibling (backupEnding timestamp pid)) :=
  isBackupOf_sibling.mpr ⟨_, rfl⟩

/-- A file is no backup of itself. -/
theorem not_isBackupOf_self (path : FilePath) : ¬IsBackupOf path path := by
  rintro ⟨-, hname⟩
  obtain ⟨ending, hname⟩ := isBackupName_iff.mp hname
  have hlen := congrArg String.length hname
  simp only [String.length_append] at hlen
  have hbak : ".bak.".length = 5 := rfl
  omega

/-- Nor is its temporary file. -/
theorem not_isBackupOf_temporaryPath (host : FileHost) (now : ℤ) (path : FilePath) :
    ¬IsBackupOf path (temporaryPath host now path) := by
  unfold temporaryPath
  rw [isBackupOf_sibling]
  rintro ⟨rest, hrest⟩
  have hlist := congrArg String.toList hrest
  simp at hlist

/-- A backup of a file of which there are `keep` later ones, by their names. -/
def IsStale (path : FilePath) (keep : ℕ) (files : ConfigFiles) (file : FilePath) : Prop :=
  IsBackupOf path file ∧ keep ≤ (backupNames path files).countP (file.file_name < ·)

instance (path : FilePath) (keep : ℕ) (files : ConfigFiles) :
    DecidablePred (IsStale path keep files) :=
  fun _ => inferInstanceAs (Decidable (_ ∧ _))

/-- Which backups are stale depends on which ones there are. -/
theorem isStale_congr {path : FilePath} {keep : ℕ} {files files' : ConfigFiles}
    (h : ∀ file, IsBackupOf path file → (file ∈ files ↔ file ∈ files')) (file : FilePath) :
    IsStale path keep files file ↔ IsStale path keep files' file := by
  have hperm : (backupNames path files).Perm (backupNames path files') := by
    rw [perm_ext_iff_of_nodup (nodup_backupNames _ _) (nodup_backupNames _ _)]
    intro name
    rw [mem_backupNames, mem_backupNames]
    exact and_congr_right fun hname => h _ ⟨rfl, hname⟩
  unfold IsStale
  rw [hperm.countP_eq]

/-- A backup with so many later ones. -/
theorem mem_staleBackups {path : FilePath} {keep : ℕ} {names : List String}
    (h : (names.filter (isBackupName path)).Nodup) :
    name ∈ staleBackups path keep names ↔ name ∈ names.filter (isBackupName path) ∧
      keep ≤ (names.filter (isBackupName path)).countP (name < ·) := by
  unfold staleBackups
  have hperm := mergeSort_perm (names.filter (isBackupName path)) fun a b => decide (b ≤ a)
  have hsorted : ((names.filter (isBackupName path)).mergeSort fun a b => decide (b ≤ a)).Pairwise
      (· > ·) := by
    have hge := pairwise_mergeSort' (· ≥ ·) (names.filter (isBackupName path))
    have hne := hperm.nodup_iff.mpr h
    exact (hge.and hne).imp fun hab => lt_of_le_of_ne hab.1 hab.2.symm
  rw [← hperm.countP_eq, ← hperm.mem_iff]
  constructor
  · intro hdrop
    have hmem := mem_of_mem_drop hdrop
    exact ⟨hmem, (mem_drop_iff_le_countP hsorted hmem keep).mp hdrop⟩
  · rintro ⟨hmem, hle⟩
    exact (mem_drop_iff_le_countP hsorted hmem keep).mpr hle

end Oxydra
