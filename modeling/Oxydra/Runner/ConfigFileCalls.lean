import Oxydra.Runner.ConfigFiles

/-!
# What the calls on configuration files do

Each call either fails or has its effect. The functions of `config_write.rs` are specified by the
calls that they make: first where none of the calls in question fails, and then for a process whose
calls never fail.
-/

namespace Oxydra

open AList List Toml Effect

variable {bytes : ByteArray} {call : FileCall} {path target : FilePath} {prepared : PreparedPatch}

/-! ## Single calls -/

namespace FileHost

variable {host : FileHost} {files : ConfigFiles}

/-- A call that does not fail. -/
theorem perform_ok (h : host.fails call = none) :
    host.perform call files = .ok () files := by
  unfold perform
  rw [h]
  rfl

/-- A call that fails. -/
theorem perform_error {error : String} (h : host.fails call = some error) :
    host.perform call files = .error error files := by
  unfold perform
  rw [h]
  rfl

/-- A call on a file that does not fail. -/
theorem performOn_ok (h : host.fails call = none) :
    host.performOn call target files = .ok () files := by
  unfold performOn
  rw [h]
  rfl

/-- The files after a call that failed. -/
def left (host : FileHost) (call : FileCall) (target : FilePath) (files : ConfigFiles) :
    ConfigFiles :=
  match host.leaves call with
  | some bytes => files.insert target bytes
  | none => files

/-- A call on a file that fails. -/
theorem performOn_error {error : String} (h : host.fails call = some error) :
    host.performOn call target files = .error error (host.left call target files) := by
  unfold performOn left
  rw [h]
  cases host.leaves call <;> rfl

/-- A file that is there is read. -/
theorem bytesOf_run (h : files.lookup path = some bytes) :
    host.bytesOf path files = .ok bytes files := by
  show (match files.lookup path with
    | some bytes => pure bytes
    | none => throw host.not_found : FileM ByteArray) files = _
  rw [h]
  rfl

/-- A file that is not there. -/
theorem bytesOf_missing (h : files.lookup path = none) :
    host.bytesOf path files = .error host.not_found files := by
  show (match files.lookup path with
    | some bytes => pure bytes
    | none => throw host.not_found : FileM ByteArray) files = _
  rw [h]
  rfl

/-- A copy that does not fail. -/
theorem copy_ok {source target : FilePath} (hcall : host.fails (.copy source target) = none)
    (h : files.lookup source = some bytes) :
    host.copy source target files = .ok () (files.insert target bytes) := by
  unfold copy
  rw [bind_ok (performOn_ok hcall), bind_ok (bytesOf_run h)]
  rfl

/-- An opened file is empty. -/
theorem openTruncated_ok (hcall : host.fails (.openTruncated path) = none) :
    host.openTruncated path files = .ok () (files.insert path ByteArray.empty) := by
  unfold openTruncated
  rw [bind_ok (perform_ok hcall)]
  rfl

/-- What was written to a file that was just opened is all that is in it. -/
theorem writeAll_ok (hcall : host.fails (.writeAll path) = none) :
    host.writeAll path bytes (files.insert path ByteArray.empty) =
      .ok () (files.insert path bytes) := by
  unfold writeAll
  rw [bind_ok (performOn_ok hcall)]
  show EStateM.Result.ok () ((files.insert _ _).insert _ _) = _
  rw [insert_insert]

/-- A rename that does not fail. -/
theorem rename_ok {source target : FilePath} (hcall : host.fails (.rename source target) = none)
    (h : files.lookup source = some bytes) :
    host.rename source target files = .ok () ((files.erase source).insert target bytes) := by
  unfold rename
  rw [bind_ok (perform_ok hcall), bind_ok (bytesOf_run h)]
  rfl

/-- A removal that does not fail. -/
theorem removeFile_ok (hcall : host.fails (.removeFile path) = none) (h : path ∈ files) :
    host.removeFile path files = .ok () (files.erase path) := by
  obtain ⟨bytes, hbytes⟩ := Option.isSome_iff_exists.mp (lookup_isSome.mpr h)
  unfold removeFile
  rw [bind_ok (perform_ok hcall), bind_ok (bytesOf_run hbytes)]
  rfl

end FileHost

/-! ## Calls that do not fail -/

/-- A process whose calls do not fail. -/
def FileHost.reliable (pid : ℕ) : FileHost where
  fails _ := none
  leaves _ := none
  not_found := "No such file or directory (os error 2)"
  pid := pid

/-- No call of the reliable host fails. -/
theorem FileHost.reliable_reliable (pid : ℕ) : (FileHost.reliable pid).Reliable := fun _ => rfl

/-- The files after a temporary file with the content was renamed. -/
def written (tmp_path path : FilePath) (content : String) (files : ConfigFiles) : ConfigFiles :=
  (files.erase tmp_path).insert path content.toUTF8

/-- What is read after a write. -/
theorem lookup_written {tmp_path path file : FilePath} {content : String} {files : ConfigFiles} :
    (written tmp_path path content files).lookup file =
      if file = path then some content.toUTF8 else if file = tmp_path then none
      else files.lookup file := by
  unfold written
  split_ifs with hpath htmp
  · rw [hpath, lookup_insert]
  · rw [lookup_insert_ne hpath, htmp, lookup_erase]
  · rw [lookup_insert_ne hpath, lookup_erase_ne htmp]

/-- The files after a write. -/
theorem mem_written {tmp_path path file : FilePath} {content : String} {files : ConfigFiles} :
    file ∈ written tmp_path path content files ↔ file = path ∨ file ≠ tmp_path ∧ file ∈ files := by
  unfold written
  rw [mem_insert, mem_erase]

/-- A text is read as it was written. -/
theorem fromUTF8?_toUTF8 (text : String) : String.fromUTF8? text.toUTF8 = some text := by
  unfold String.fromUTF8?
  exact dif_pos text.isValidUTF8

/-- A file is read where the call does not fail. -/
theorem FileHost.readToString_eq {host : FileHost} {files : ConfigFiles}
    (hcall : host.fails (.read path) = none) (h : files.lookup path = some bytes) :
    host.readToString path files = match String.fromUTF8? bytes with
      | some text => .ok text files
      | none => .error "stream did not contain valid UTF-8" files := by
  unfold FileHost.readToString
  rw [bind_ok (FileHost.perform_ok hcall), bind_ok (FileHost.bytesOf_run h)]
  cases String.fromUTF8? bytes <;> rfl

/-- The text of a file, if it is there and is UTF-8. -/
def textOf (files : ConfigFiles) (path : FilePath) : Option String :=
  (files.lookup path).bind String.fromUTF8?

/-- What is found of a file. -/
def configFileOf (files : ConfigFiles) (path : FilePath) : ConfigFile :=
  (files.lookup path).map fun bytes =>
    match String.fromUTF8? bytes with
    | some text => .ok text
    | none => .error "stream did not contain valid UTF-8"

/-- A configuration file is there. -/
theorem isSome_configFileOf {files : ConfigFiles} :
    (configFileOf files path).isSome ↔ path ∈ files := by
  rw [configFileOf, Option.isSome_map, lookup_isSome]

/-! ## Calls one after the other -/

section Calls

variable {host : FileHost} {files : ConfigFiles}

/-- The calls of `atomic_write`. -/
def writeCalls (host : FileHost) (now : ℤ) (path : FilePath) : List FileCall :=
  let tmp_path := temporaryPath host now path
  [.createDirAll path.parent, .openTruncated tmp_path, .writeAll tmp_path, .syncAll tmp_path,
    .rename tmp_path path]

/-- Without a call that fails, the file has the new content, and the others are as they were. -/
theorem atomicWrite_ok {now : ℤ} (content : String)
    (h : ∀ call ∈ writeCalls host now path, host.fails call = none) :
    atomicWrite host now path content files =
      .ok () (written (temporaryPath host now path) path content files) := by
  unfold writeCalls at h
  set tmp_path := temporaryPath host now path with htmp
  simp only [forall_mem_cons] at h
  obtain ⟨hdir, hopen, hwrite, hsync, hrename, -⟩ := h
  have hrun : host.rename tmp_path path (files.insert tmp_path content.toUTF8) =
      .ok () (written tmp_path path content files) := by
    rw [written, FileHost.rename_ok hrename (lookup_insert files), erase_insert]
  unfold atomicWrite
  rw [← htmp, FileHost.createDirAll, bind_ok (FileHost.perform_ok hdir),
    bind_ok (FileHost.openTruncated_ok hopen), bind_ok (FileHost.writeAll_ok hwrite),
    FileHost.syncAll, bind_ok (FileHost.perform_ok hsync)]
  exact tryCatch_ok hrun

/-- The files with these names are removed, and no others. -/
theorem removeAll_ok {parent : String} {names : List String} (hnodup : names.Nodup)
    (hfiles : ∀ name ∈ names, ⟨parent, name⟩ ∈ files)
    (hcalls : ∀ name ∈ names, host.fails (.removeFile ⟨parent, name⟩) = none) :
    ∃ files', (names.forM fun name => host.removeFile ⟨parent, name⟩) files = .ok () files' ∧
      ∀ file, files'.lookup file =
        if file.parent = parent ∧ file.file_name ∈ names then none else files.lookup file := by
  induction names generalizing files with
  | nil => exact ⟨files, rfl, fun file => by simp⟩
  | cons name names ih =>
    obtain ⟨hnot, hnodup⟩ := nodup_cons.mp hnodup
    have hrest : ∀ other ∈ names, (⟨parent, other⟩ : FilePath) ∈ files.erase ⟨parent, name⟩ := by
      intro other hother
      rw [mem_erase]
      refine ⟨fun heq => hnot ((FilePath.mk.inj heq).2 ▸ hother), ?_⟩
      exact hfiles other (mem_cons_of_mem _ hother)
    obtain ⟨files', hrun, hlookup⟩ := ih hnodup hrest fun other hother =>
      hcalls other (mem_cons_of_mem _ hother)
    have hfirst := FileHost.removeFile_ok (hcalls name mem_cons_self)
      (hfiles name mem_cons_self)
    refine ⟨files', ?_, fun file => ?_⟩
    · show (host.removeFile ⟨parent, name⟩ >>= fun _ =>
        names.forM fun name => host.removeFile ⟨parent, name⟩) files = _
      rw [bind_ok hfirst]
      exact hrun
    · rw [hlookup]
      by_cases hfile : file = ⟨parent, name⟩
      · subst hfile
        simp
      · have hname : ¬(file.parent = parent ∧ file.file_name = name) := fun h =>
          hfile (by rw [← h.1, ← h.2])
        rw [lookup_erase_ne hfile]
        simp only [mem_cons]
        grind

/-- A directory that can be read. -/
theorem readDir_ok {parent : String} (h : host.fails (.readDir parent) = none) :
    host.readDir parent files = .ok (fileNames parent files) files := by
  unfold FileHost.readDir
  rw [bind_ok (FileHost.perform_ok h)]
  rfl

/-- The stale backups among the files. -/
theorem mem_staleBackups_files {keep : ℕ} {name : String} :
    name ∈ staleBackups path keep (fileNames path.parent files) ↔
      ⟨path.parent, name⟩ ∈ files ∧ IsStale path keep files ⟨path.parent, name⟩ := by
  refine (mem_staleBackups (nodup_backupNames path files)).trans ?_
  show name ∈ backupNames path files ∧ _ ↔ _
  rw [mem_backupNames]
  constructor
  · rintro ⟨⟨hname, hmem⟩, hle⟩
    exact ⟨hmem, ⟨rfl, hname⟩, hle⟩
  · rintro ⟨hmem, ⟨-, hname⟩, hle⟩
    exact ⟨⟨hname, hmem⟩, hle⟩

/-- No backup is named twice. -/
theorem nodup_staleBackups (path : FilePath) (keep : ℕ) (files : ConfigFiles) :
    (staleBackups path keep (fileNames path.parent files)).Nodup :=
  ((mergeSort_perm _ _).nodup_iff.mpr (nodup_backupNames path files)).sublist
    (drop_sublist _ _)

/-- Without a call that fails, the stale backups are removed, and no other files. -/
theorem pruneBackups_ok {keep : ℕ} (hread : host.fails (.readDir path.parent) = none)
    (hcalls : ∀ file ∈ files, IsStale path keep files file → host.fails (.removeFile file) = none) :
    ∃ files', pruneBackups host path keep files = .ok () files' ∧
      ∀ file, files'.lookup file =
        if IsStale path keep files file then none else files.lookup file := by
  obtain ⟨files', hrun, hlookup⟩ := removeAll_ok (nodup_staleBackups path keep files)
    (fun name hname => (mem_staleBackups_files.mp hname).1)
    fun name hname => hcalls _ (mem_staleBackups_files.mp hname).1
      (mem_staleBackups_files.mp hname).2
  refine ⟨files', ?_, fun file => ?_⟩
  · unfold pruneBackups
    rw [bind_ok (readDir_ok hread)]
    exact hrun
  · by_cases hfile : file ∈ files
    · refine (hlookup file).trans (if_congr ?_ rfl rfl)
      rw [mem_staleBackups_files]
      constructor
      · rintro ⟨hparent, -, hstale⟩
        rwa [← hparent] at hstale
      · intro hstale
        have hparent := hstale.1.1
        rw [← hparent]
        exact ⟨rfl, hfile, hstale⟩
    · rw [hlookup, lookup_eq_none.mpr hfile, ite_self, ite_self]

/-- The parts of `persist_patch`, one after the other. -/
theorem persistPatch_ok {now : PatchTimes} {backup : Option FilePath}
    {files₁ files₂ files₃ : ConfigFiles} (hchanged : prepared.changed_fields ≠ [])
    (hbackup : backupExisting host now.backup path prepared.file_exists files = .ok backup files₁)
    (hwrite : writeOrRestore host now.write path prepared.rendered_toml backup files₁ =
      .ok () files₂) (hprune : pruneIfBackedUp host path backup files₂ = .ok () files₃) :
    persistPatch host now path prepared files = .ok backup files₃ := by
  unfold persistPatch
  rw [if_neg hchanged, bind_ok (adaptExcept_eq_ok.mpr hbackup),
    bind_ok (adaptExcept_eq_ok.mpr hwrite), bind_ok (adaptExcept_eq_ok.mpr hprune)]
  rfl

/-- A patch that changes nothing writes nothing. -/
theorem persistPatch_unchanged (h : prepared.changed_fields = []) (now : PatchTimes)
    (path : FilePath) :
    persistPatch host now path prepared files = .ok none files := by
  unfold persistPatch
  rw [if_pos h]
  rfl

/-- A backup that does not fail. -/
theorem backupExisting_ok {now : ℤ} {before : ByteArray}
    (hcopy : host.fails (.copy path (backupPath host now path)) = none)
    (hbefore : files.lookup path = some before) :
    backupExisting host now path true files =
      .ok (some (backupPath host now path)) (files.insert (backupPath host now path) before) := by
  unfold backupExisting backupFile
  rw [if_pos rfl, ← bind_pure_comp, bind_assoc, bind_ok (FileHost.copy_ok hcopy hbefore)]
  rfl

end Calls

/-! ## No call fails -/

namespace FileHost.Reliable

variable {host : FileHost} (hhost : host.Reliable) {files : ConfigFiles}

include hhost

/-- What is there is read, if it is UTF-8. -/
theorem readToString_run (h : files.lookup path = some bytes) :
    host.readToString path files = match String.fromUTF8? bytes with
      | some text => .ok text files
      | none => .error "stream did not contain valid UTF-8" files := by
  exact FileHost.readToString_eq (hhost _) h

/-- A file with a text is read. -/
theorem readToString_ok {text : String} (h : textOf files path = some text) :
    host.readToString path files = .ok text files := by
  obtain ⟨bytes, hbytes, htext⟩ := Option.bind_eq_some_iff.mp h
  rw [hhost.readToString_run hbytes, htext]

/-- A file without one is not. -/
theorem readToString_error (h : textOf files path = none) :
    ∃ error, host.readToString path files = .error error files := by
  cases hbytes : files.lookup path with
  | none =>
    unfold readToString
    rw [bind_ok (perform_ok (hhost _))]
    exact ⟨_, bind_error (bytesOf_missing hbytes)⟩
  | some bytes =>
    rw [textOf, hbytes] at h
    rw [hhost.readToString_run hbytes, show String.fromUTF8? bytes = none from h]
    exact ⟨_, rfl⟩

/-- The backup of `persist_patch` leaves the file. -/
theorem backupExisting_run (now : ℤ) (path : FilePath) (file_exists : Bool) :
    (∃ backup files', backupExisting host now path file_exists files = .ok backup files' ∧
      files'.lookup path = files.lookup path) ∨
      path ∉ files ∧ ∃ error, backupExisting host now path file_exists files =
        .error error files := by
  cases file_exists with
  | false => exact .inl ⟨none, files, rfl, rfl⟩
  | true =>
    unfold backupExisting backupFile
    rw [if_pos rfl, ← bind_pure_comp, bind_assoc]
    cases hbytes : files.lookup path with
    | none =>
      have hcopy : host.copy path (backupPath host now path) files =
          .error host.not_found files := by
        unfold copy
        rw [bind_ok (performOn_ok (hhost _))]
        exact bind_error (bytesOf_missing hbytes)
      exact .inr ⟨lookup_eq_none.mp hbytes, _, bind_error hcopy⟩
    | some bytes =>
      refine .inl ⟨_, _, bind_ok (copy_ok (hhost _) hbytes), ?_⟩
      have hne : path ≠ backupPath host now path := by
        intro heq
        have hbackup := isBackupOf_backupEnding path (asMillis now) host.pid
        rw [show path.sibling (backupEnding (asMillis now) host.pid) = path from heq.symm]
          at hbackup
        exact not_isBackupOf_self path hbackup
      rw [lookup_insert_ne hne, hbytes]

/-- The file, or that there is none. -/
theorem configFile_run (path : FilePath) :
    host.configFile path files = .ok (configFileOf files path) files := by
  unfold configFile configFileOf
  have hexists : host.pathExists path files = .ok (files.lookup path).isSome files := by
    unfold pathExists
    rw [hhost]
    rfl
  rw [bind_ok hexists]
  cases hbytes : files.lookup path with
  | none => rfl
  | some bytes =>
    have hread := hhost.readToString_run hbytes
    cases htext : String.fromUTF8? bytes with
    | none =>
      rw [htext] at hread
      show EStateM.tryCatch _ _ files = _
      unfold EStateM.tryCatch
      rw [bind_error hread]
      simp only [Option.map_some, htext]
      rfl
    | some text =>
      rw [htext] at hread
      simp only [Option.map_some, htext]
      exact tryCatch_ok (bind_ok hread)

/-- A patch is prepared from the file that is there. -/
theorem preparePatchOf_run (toml : TomlCrate) (type : ConfigType)
    (validate : Datum → Except String Unit) (path : FilePath) (patch : Value)
    (files : ConfigFiles) :
    preparePatchOf host path toml type validate patch files =
      match preparePatch toml type validate path.display (configFileOf files path) patch with
      | .ok prepared => .ok prepared files
      | .error error => .error error files := by
  unfold preparePatchOf
  rw [bind_ok (adaptExcept_eq_ok.mpr (hhost.configFile_run path))]
  cases preparePatch toml type validate path.display (configFileOf files path) patch <;> rfl

/-- A write that needs no restoring. -/
theorem writeOrRestore_run (now : ℤ) (path : FilePath) (content : String)
    (backup : Option FilePath) (files : ConfigFiles) :
    writeOrRestore host now path content backup files =
      .ok () (written (temporaryPath host now path) path content files) :=
  tryCatch_ok (atomicWrite_ok content fun _ _ => hhost _)

/-- The removal of the stale backups leaves the file. -/
theorem pruneIfBackedUp_run (path : FilePath) (backup : Option FilePath) :
    ∃ files', pruneIfBackedUp host path backup files = .ok () files' ∧
      files'.lookup path = files.lookup path := by
  cases backup with
  | none => exact ⟨files, rfl, rfl⟩
  | some backup =>
    obtain ⟨files', hprune, hlookup⟩ := pruneBackups_ok (hhost _) fun _ _ _ => hhost _
    refine ⟨files', hprune, ?_⟩
    rw [hlookup, if_neg fun hstale => not_isBackupOf_self path hstale.1]

/-- A file that was not there is written, without a backup. -/
theorem persistPatch_new (hchanged : prepared.changed_fields ≠ [])
    (hexists : prepared.file_exists = false) (now : PatchTimes) (path : FilePath) :
    persistPatch host now path prepared files =
      .ok none (written (temporaryPath host now.write path) path prepared.rendered_toml files) := by
  have hwrite := hhost.writeOrRestore_run now.write path prepared.rendered_toml none files
  refine persistPatch_ok hchanged ?_ hwrite rfl
  rw [hexists]
  rfl

/-- A file that was there is kept as a backup, and the stale backups are removed. -/
theorem persistPatch_existing (hchanged : prepared.changed_fields ≠ [])
    (hexists : prepared.file_exists = true) (now : PatchTimes) {before : ByteArray}
    (hbefore : files.lookup path = some before) {files₁ : ConfigFiles}
    (hfiles₁ : files₁ = written (temporaryPath host now.write path) path prepared.rendered_toml
      (files.insert (backupPath host now.backup path) before)) :
    ∃ files', persistPatch host now path prepared files =
        .ok (some (backupPath host now.backup path)) files' ∧
      ∀ file, files'.lookup file =
        if IsStale path backupKeepCount files₁ file then none else files₁.lookup file := by
  have hbackup := backupExisting_ok (hhost (.copy path (backupPath host now.backup path))) hbefore
  have hwrite := hhost.writeOrRestore_run now.write path prepared.rendered_toml
    (some (backupPath host now.backup path))
    (files.insert (backupPath host now.backup path) before)
  obtain ⟨files', hprune, hlookup⟩ := pruneBackups_ok (hhost _) fun _ _ _ => hhost _
  refine ⟨files', persistPatch_ok hchanged ?_ (hfiles₁ ▸ hwrite) hprune, hlookup⟩
  rw [hexists]
  exact hbackup

end FileHost.Reliable

end Oxydra
