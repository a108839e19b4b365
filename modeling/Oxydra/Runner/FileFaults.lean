import Oxydra.Library.TextSearch
import Oxydra.Runner.ConfigFileCalls

/-!
# Calls on configuration files that fail

What `atomic_write`, `prune_backups`, and `persist_patch` leave behind when a call fails. The file
itself is as it was if the backup cannot be made, and also if the new content cannot be put in place,
unless copying the backup back fails halfway; it has the new content if the stale backups cannot be
removed.
-/

namespace Oxydra

open AList List Toml Effect

/-! ## What a computation can have changed -/

/-- The files outside of a set are as they were. -/
def SameOutside (touched : FilePath → Prop) (files files' : ConfigFiles) : Prop :=
  ∀ file, ¬touched file → files'.lookup file = files.lookup file

section Same

variable {touched touched' : FilePath → Prop} {files files₁ files₂ : ConfigFiles}

/-- Nothing was written. -/
theorem SameOutside.refl (touched : FilePath → Prop) (files : ConfigFiles) :
    SameOutside touched files files := fun _ _ => rfl

/-- One change after the other. -/
theorem SameOutside.trans (h : SameOutside touched files files₁)
    (h' : SameOutside touched files₁ files₂) : SameOutside touched files files₂ :=
  fun file hfile => (h' file hfile).trans (h file hfile)

/-- More files may be touched. -/
theorem SameOutside.mono (h : SameOutside touched files files₁)
    (hle : ∀ file, touched file → touched' file) : SameOutside touched' files files₁ :=
  fun file hfile => h file fun htouched => hfile (hle file htouched)

/-- Only the file that is written changes. -/
theorem sameOutside_insert {path : FilePath} (hpath : touched path) (bytes : ByteArray)
    (files : ConfigFiles) : SameOutside touched files (files.insert path bytes) := by
  intro file hfile
  exact lookup_insert_ne fun heq => hfile (heq ▸ hpath)

/-- Only the file that is removed changes. -/
theorem sameOutside_erase {path : FilePath} (hpath : touched path) (files : ConfigFiles) :
    SameOutside touched files (files.erase path) := by
  intro file hfile
  exact lookup_erase_ne fun heq => hfile (heq ▸ hpath)

/-- A failed call changes its own file only. -/
theorem sameOutside_left {path : FilePath} (hpath : touched path) (host : FileHost)
    (call : FileCall) (files : ConfigFiles) :
    SameOutside touched files (host.left call path files) := by
  unfold FileHost.left
  cases host.leaves call with
  | none => exact .refl _ _
  | some bytes => exact sameOutside_insert hpath bytes files

/-- The temporary file and its target change. -/
theorem sameOutside_written {tmp_path path : FilePath} (htmp : touched tmp_path)
    (hpath : touched path) (content : String) (files : ConfigFiles) :
    SameOutside touched files (written tmp_path path content files) :=
  (sameOutside_erase htmp files).trans (sameOutside_insert hpath _ _)

end Same

/-! ## Single calls -/

namespace FileHost

variable {host : FileHost} {files : ConfigFiles} {path source target : FilePath} {error : String}

/-- A copy that fails. -/
theorem copy_error (h : host.fails (.copy source target) = some error) :
    host.copy source target files =
      .error error (host.left (.copy source target) target files) := by
  unfold copy
  exact bind_error (performOn_error h)

/-- A failed rename moves nothing. -/
theorem rename_error (h : host.fails (.rename source target) = some error) :
    host.rename source target files = .error error files := by
  unfold rename
  exact bind_error (perform_error h)

/-- A failed removal removes nothing. -/
theorem removeFile_error (h : host.fails (.removeFile path) = some error) :
    host.removeFile path files = .error error files := by
  unfold removeFile
  exact bind_error (perform_error h)

/-- An attempt that succeeds. -/
theorem attempt_ok {x : FileM Unit} {files' : ConfigFiles} (h : x files = .ok () files') :
    attempt x files = .ok () files' := tryCatch_ok h

/-- The error of an attempt is dropped. -/
theorem attempt_error {x : FileM Unit} {files' : ConfigFiles} (h : x files = .error error files') :
    attempt x files = .ok () files' := tryCatch_error h

/-- The removal of a file leaves the others, whether or not it succeeds. -/
theorem attempt_removeFile (host : FileHost) (path : FilePath) (files : ConfigFiles) :
    ∃ files', attempt (host.removeFile path) files = .ok () files' ∧
      SameOutside (path = ·) files files' := by
  cases hcall : host.fails (.removeFile path) with
  | some error => exact ⟨files, attempt_error (removeFile_error hcall), .refl _ _⟩
  | none =>
    by_cases hpath : path ∈ files
    · exact ⟨_, attempt_ok (removeFile_ok hcall hpath), sameOutside_erase rfl files⟩
    · have hmissing : host.removeFile path files = .error host.not_found files := by
        unfold removeFile
        rw [bind_ok (perform_ok hcall)]
        exact bind_error (bytesOf_missing (lookup_eq_none.mpr hpath))
      exact ⟨files, attempt_error hmissing, .refl _ _⟩

end FileHost

/-! ## Single calls, whether or not they fail -/

namespace FileHost

variable {host : FileHost} {files : ConfigFiles} {path : FilePath}

/-- A call on no file changes none. -/
theorem wp_perform {call : FileCall} : wp (host.perform call) (fun _ files' => files' = files)
    (fun _ files' => files' = files) files := by
  unfold wp
  cases hcall : host.fails call with
  | none => rw [perform_ok hcall]
  | some error => rw [perform_error hcall]

/-- A call on a file leaves the others. -/
theorem wp_performOn {call : FileCall} : wp (host.performOn call path)
    (fun _ files' => files' = files) (fun _ files' => SameOutside (path = ·) files files')
    files := by
  unfold wp
  cases hcall : host.fails call with
  | none => rw [performOn_ok hcall]
  | some error =>
    rw [performOn_error hcall]
    exact sameOutside_left rfl host call files

/-- Reading changes nothing. -/
theorem wp_bytesOf : wp (host.bytesOf path)
    (fun bytes files' => files' = files ∧ files.lookup path = some bytes)
    (fun _ files' => files' = files) files := by
  unfold wp
  cases hbytes : files.lookup path with
  | none => rw [bytesOf_missing hbytes]
  | some bytes =>
    rw [bytesOf_run hbytes]
    exact ⟨rfl, rfl⟩

/-- A file is read as it is. -/
theorem wp_readToString : wp (host.readToString path)
    (fun text files' => files' = files ∧ textOf files path = some text)
    (fun _ files' => files' = files) files := by
  unfold readToString
  rw [wp_bind]
  refine wp_perform.mono ?_ fun _ _ h => h
  rintro - _ rfl
  rw [wp_bind]
  refine wp_bytesOf.mono ?_ fun _ _ h => h
  rintro bytes _ ⟨rfl, hbytes⟩
  unfold textOf
  rw [hbytes, Option.bind_some]
  cases String.fromUTF8? bytes with
  | none => exact rfl
  | some text => exact ⟨rfl, rfl⟩

/-- A copy touches its target only. -/
theorem wp_copy {source : FilePath} : wp (host.copy source path)
    (fun _ files' => SameOutside (path = ·) files files')
    (fun _ files' => SameOutside (path = ·) files files') files := by
  unfold copy
  rw [wp_bind]
  refine wp_performOn.mono ?_ fun _ _ h => h
  rintro - _ rfl
  rw [wp_bind]
  refine wp_bytesOf.mono ?_ fun _ _ h => h ▸ .refl _ _
  rintro bytes _ ⟨rfl, -⟩
  exact sameOutside_insert rfl bytes _

/-- To open a file empties it, or fails. -/
theorem wp_openTruncated : wp (host.openTruncated path)
    (fun _ files' => files' = files.insert path ByteArray.empty)
    (fun _ files' => files' = files) files := by
  unfold openTruncated
  rw [wp_bind]
  refine wp_perform.mono ?_ fun _ _ h => h
  rintro - _ rfl
  exact rfl

/-- A write that fails may leave a part. -/
theorem wp_writeAll {bytes : ByteArray} : wp (host.writeAll path bytes)
    (fun _ files' => files' = files.insert path bytes)
    (fun _ files' => SameOutside (path = ·) files files') files := by
  unfold writeAll
  rw [wp_bind]
  refine wp_performOn.mono ?_ fun _ _ h => h
  rintro - _ rfl
  exact rfl

/-- A rename moves the bytes, or nothing. -/
theorem wp_rename {source : FilePath} : wp (host.rename source path)
    (fun _ files' => ∃ bytes, files.lookup source = some bytes ∧
      files' = (files.erase source).insert path bytes)
    (fun _ files' => files' = files) files := by
  unfold rename
  rw [wp_bind]
  refine wp_perform.mono ?_ fun _ _ h => h
  rintro - _ rfl
  rw [wp_bind]
  refine wp_bytesOf.mono ?_ fun _ _ h => h
  rintro bytes _ ⟨rfl, hbytes⟩
  exact ⟨bytes, hbytes, rfl⟩

end FileHost

/-! ## `atomic_write` -/

section Faults

variable {host : FileHost} {files : ConfigFiles} {path : FilePath}

/-- One of the calls of `atomic_write` fails. -/
def WriteFails (host : FileHost) (now : ℤ) (path : FilePath) : Prop :=
  ∃ call ∈ writeCalls host now path, (host.fails call).isSome

instance (host : FileHost) (now : ℤ) (path : FilePath) : Decidable (WriteFails host now path) :=
  inferInstanceAs (Decidable (∃ call ∈ writeCalls host now path, (host.fails call).isSome))

/-- A write none of whose calls fails. -/
theorem atomicWrite_run {now : ℤ} (h : ¬WriteFails host now path) (content : String) :
    atomicWrite host now path content files =
      .ok () (written (temporaryPath host now path) path content files) := by
  refine atomicWrite_ok content fun call hcall => ?_
  by_contra hfails
  exact h ⟨call, hcall, Option.isSome_iff_ne_none.mpr hfails⟩

/-- With a call that fails, all files but the temporary one are as they were. -/
theorem atomicWrite_error {now : ℤ} (h : WriteFails host now path) (content : String) :
    ∃ error files', atomicWrite host now path content files = .error error files' ∧
      SameOutside (temporaryPath host now path = ·) files files' := by
  unfold atomicWrite FileHost.createDirAll FileHost.syncAll
  unfold WriteFails writeCalls at h
  set tmp_path := temporaryPath host now path with htmp
  simp only [exists_mem_cons_iff] at h
  cases hdir : host.fails (.createDirAll path.parent) with
  | some error => exact ⟨error, files, bind_error (FileHost.perform_error hdir), .refl _ _⟩
  | none =>
  rw [bind_ok (FileHost.perform_ok hdir)]
  cases hopen : host.fails (.openTruncated tmp_path) with
  | some error =>
    refine ⟨error, files, bind_error ?_, .refl _ _⟩
    exact bind_error (FileHost.perform_error hopen)
  | none =>
  rw [bind_ok (FileHost.openTruncated_ok hopen)]
  have hopened : SameOutside (tmp_path = ·) files (files.insert tmp_path ByteArray.empty) :=
    sameOutside_insert rfl _ files
  cases hwrite : host.fails (.writeAll tmp_path) with
  | some error =>
    refine ⟨error, _, bind_error (bind_error (FileHost.performOn_error hwrite)), ?_⟩
    exact hopened.trans (sameOutside_left rfl host _ _)
  | none =>
  rw [bind_ok (FileHost.writeAll_ok hwrite)]
  have hwritten : SameOutside (tmp_path = ·) files (files.insert tmp_path content.toUTF8) :=
    sameOutside_insert rfl _ files
  cases hsync : host.fails (.syncAll tmp_path) with
  | some error => exact ⟨error, _, bind_error (FileHost.perform_error hsync), hwritten⟩
  | none =>
  rw [bind_ok (FileHost.perform_ok hsync)]
  -- what is left is the call that renames, whose failure removes the temporary file
  obtain ⟨error, hrename⟩ : ∃ error, host.fails (.rename tmp_path path) = some error := by
    simpa [hdir, hopen, hwrite, hsync, Option.isSome_iff_exists] using h
  obtain ⟨files', hremove, hsame⟩ := FileHost.attempt_removeFile host tmp_path
    (files.insert tmp_path content.toUTF8)
  refine ⟨error, files', ?_, hwritten.trans hsame⟩
  rw [tryCatch_error (FileHost.rename_error hrename), bind_ok hremove]
  rfl

/-! ## `prune_backups` -/

/-- A call that removes a stale backup fails, or the one that looks for them does. -/
def PruneFails (host : FileHost) (path : FilePath) (files : ConfigFiles) : Prop :=
  (host.fails (.readDir path.parent)).isSome ∨
    ∃ file ∈ files, IsStale path backupKeepCount files file ∧
      (host.fails (.removeFile file)).isSome

/-- The removal of files ends at the first one that fails. -/
theorem removeAll_error {parent : String} {names : List String} (hnodup : names.Nodup)
    (hfiles : ∀ name ∈ names, ⟨parent, name⟩ ∈ files)
    (h : ∃ name ∈ names, (host.fails (.removeFile ⟨parent, name⟩)).isSome) :
    ∃ error files', (names.forM fun name => host.removeFile ⟨parent, name⟩) files =
        .error error files' ∧
      SameOutside (fun file => file.parent = parent ∧ file.file_name ∈ names) files files' := by
  induction names generalizing files with
  | nil => simp at h
  | cons name names ih =>
    obtain ⟨hnot, hnodup⟩ := nodup_cons.mp hnodup
    show ∃ error files', (host.removeFile ⟨parent, name⟩ >>= fun _ =>
      names.forM fun name => host.removeFile ⟨parent, name⟩) files = .error error files' ∧ _
    cases hcall : host.fails (.removeFile ⟨parent, name⟩) with
    | some error =>
      exact ⟨error, files, bind_error (FileHost.removeFile_error hcall), .refl _ _⟩
    | none =>
      rw [bind_ok (FileHost.removeFile_ok hcall (hfiles name mem_cons_self))]
      have hrest : ∀ other ∈ names, (⟨parent, other⟩ : FilePath) ∈ files.erase ⟨parent, name⟩ := by
        intro other hother
        rw [mem_erase]
        refine ⟨fun heq => hnot ((FilePath.mk.inj heq).2 ▸ hother), ?_⟩
        exact hfiles other (mem_cons_of_mem _ hother)
      have hlater : ∃ name ∈ names, (host.fails (.removeFile ⟨parent, name⟩)).isSome := by
        obtain ⟨other, hother, hfails⟩ := h
        obtain rfl | hother := mem_cons.mp hother
        · rw [hcall] at hfails
          cases hfails
        · exact ⟨other, hother, hfails⟩
      obtain ⟨error, files', hrun, hsame⟩ := ih hnodup hrest hlater
      refine ⟨error, files', hrun, ?_⟩
      have herase : SameOutside (fun file => file.parent = parent ∧ file.file_name ∈ name :: names)
          files (files.erase ⟨parent, name⟩) := sameOutside_erase ⟨rfl, mem_cons_self⟩ files
      exact herase.trans (hsame.mono fun file hfile => ⟨hfile.1, mem_cons_of_mem _ hfile.2⟩)

/-- A pruning that fails touches backups only. -/
theorem pruneBackups_error (h : PruneFails host path files) :
    ∃ error files', pruneBackups host path backupKeepCount files = .error error files' ∧
      SameOutside (IsBackupOf path) files files' := by
  unfold pruneBackups
  cases hread : host.fails (.readDir path.parent) with
  | some error =>
    refine ⟨error, files, bind_error ?_, .refl _ _⟩
    exact bind_error (FileHost.perform_error hread)
  | none =>
    rw [bind_ok (readDir_ok hread)]
    have hremove : ∃ name ∈ staleBackups path backupKeepCount (fileNames path.parent files),
        (host.fails (.removeFile ⟨path.parent, name⟩)).isSome := by
      obtain hdir | ⟨file, hfile, hstale, hfails⟩ := h
      · rw [hread] at hdir
        cases hdir
      · have hparent := hstale.1.1
        refine ⟨file.file_name, mem_staleBackups_files.mpr ?_, ?_⟩
        · rw [← hparent]
          exact ⟨hfile, hstale⟩
        · rwa [← hparent]
    obtain ⟨error, files', hrun, hsame⟩ := removeAll_error (nodup_staleBackups _ _ _)
      (fun name hname => (mem_staleBackups_files.mp hname).1) hremove
    refine ⟨error, files', hrun, hsame.mono ?_⟩
    rintro ⟨parent, name⟩ ⟨rfl, hname⟩
    exact (mem_staleBackups_files.mp hname).2.1

/-- A pruning removes the stale backups. -/
theorem pruneBackups_run (h : ¬PruneFails host path files) :
    ∃ files', pruneBackups host path backupKeepCount files = .ok () files' ∧
      ∀ file, files'.lookup file =
        if IsStale path backupKeepCount files file then none else files.lookup file := by
  obtain ⟨hread, hcalls⟩ := not_or.mp h
  refine pruneBackups_ok (Option.not_isSome_iff_eq_none.mp hread) fun file hfile hstale => ?_
  rw [← Option.not_isSome_iff_eq_none]
  exact fun hfails => hcalls ⟨file, hfile, hstale, hfails⟩

end Faults

/-! ## `persist_patch` -/

/-- The names of temporary files have this in them. -/
def isTemporaryName (name : String) : Bool := Text.contains ".tmp." name

/-- A file that is made next to a configuration file. -/
def IsWorkFile (path file : FilePath) : Prop :=
  IsBackupOf path file ∨ isTemporaryName file.file_name

instance (path : FilePath) : DecidablePred (IsWorkFile path) :=
  fun _ => inferInstanceAs (Decidable (_ ∨ _))

/-- `tmp_path` is a temporary name. -/
theorem isTemporaryName_temporaryPath (host : FileHost) (now : ℤ) (path : FilePath) :
    isTemporaryName (temporaryPath host now path).file_name := by
  unfold isTemporaryName Text.contains temporaryPath
  rw [decide_eq_true_eq]
  exact ⟨path.file_name.toList, (toString host.pid ++ "." ++ toString now.toNat).toList, by
    simp [FilePath.sibling]⟩

section Persist

variable (host : FileHost) (now : PatchTimes) (path : FilePath) (content : String)
  (files : ConfigFiles)

/-- The backup of a file that is there cannot be made. -/
def BackupFails : Prop :=
  path ∈ files ∧ (host.fails (.copy path (backupPath host now.backup path))).isSome

/-- The files with the backup of a file that is there. -/
def backedUp : ConfigFiles :=
  match files.lookup path with
  | some before => files.insert (backupPath host now.backup path) before
  | none => files

/-- The files with the backup and the new content. -/
def rewritten : ConfigFiles :=
  written (temporaryPath host now.write path) path content (backedUp host now path files)

/-- A call of `persist_patch` fails. -/
def PersistFails : Prop :=
  BackupFails host now path files ∨ WriteFails host now.write path ∨
    path ∈ files ∧ PruneFails host path (rewritten host now path content files)

instance : Decidable (BackupFails host now path files) :=
  inferInstanceAs (Decidable (_ ∧ _))

/-- The bytes of the file after `persist_patch` has failed. -/
def bytesAfterFailure : Option ByteArray :=
  let restore := FileCall.copy (backupPath host now.backup path) path
  if BackupFails host now path files then files.lookup path
  else if WriteFails host now.write path then
    if path ∈ files ∧ (host.fails restore).isSome then
      (host.leaves restore).or (files.lookup path)
    else files.lookup path
  else some content.toUTF8

variable {host now path content files}

/-- A backup is another file. -/
theorem backupPath_ne (now : ℤ) : backupPath host now path ≠ path := by
  intro heq
  have hbackup : IsBackupOf path (backupPath host now path) := isBackupOf_backupEnding _ _ _
  rw [heq] at hbackup
  exact not_isBackupOf_self path hbackup

/-- So is the temporary file. -/
theorem temporaryPath_ne (now : ℤ) : temporaryPath host now path ≠ path := by
  refine FilePath.sibling_ne fun hempty => ?_
  have hlist := congrArg String.toList hempty
  simp at hlist

/-- And these two are not one. -/
theorem backupPath_ne_temporaryPath (now now' : ℤ) :
    backupPath host now path ≠ temporaryPath host now' path := by
  intro heq
  have hbackup : IsBackupOf path (backupPath host now path) := isBackupOf_backupEnding _ _ _
  rw [heq] at hbackup
  exact not_isBackupOf_temporaryPath host now' path hbackup

/-- What `persist_patch` touches. -/
abbrev Persisted (path file : FilePath) : Prop := path = file ∨ IsWorkFile path file

/-- The backup is a file that persisting writes. -/
theorem persisted_backupPath (now : ℤ) : Persisted path (backupPath host now path) :=
  .inr (.inl (isBackupOf_backupEnding _ _ _))

/-- So is the temporary file. -/
theorem persisted_temporaryPath (now : ℤ) : Persisted path (temporaryPath host now path) :=
  .inr (.inr (isTemporaryName_temporaryPath _ _ _))

/-- A backup leaves what is not persisted to. -/
theorem sameOutside_backedUp : SameOutside (Persisted path) files (backedUp host now path files) := by
  unfold backedUp
  split
  · exact sameOutside_insert (persisted_backupPath _) _ _
  · exact .refl _ _

/-- And the file itself. -/
theorem lookup_backedUp : (backedUp host now path files).lookup path = files.lookup path := by
  unfold backedUp
  split
  · rw [lookup_insert_ne (backupPath_ne _).symm]
  · rfl

/-- So does the whole rewriting. -/
theorem sameOutside_rewritten :
    SameOutside (Persisted path) files (rewritten host now path content files) :=
  sameOutside_backedUp.trans (sameOutside_written (persisted_temporaryPath _) (.inl rfl) _ _)

/-- What a failed call leaves of a file. -/
theorem lookup_left (call : FileCall) (target : FilePath) :
    (host.left call target files).lookup target = (host.leaves call).or (files.lookup target) := by
  unfold FileHost.left
  cases host.leaves call with
  | none => rfl
  | some bytes => exact lookup_insert files

/-- What the backup of `persist_patch` does, where it can be made. -/
theorem backupExisting_backedUp (h : ¬BackupFails host now path files) :
    backupExisting host now.backup path (decide (path ∈ files)) files =
      .ok (if path ∈ files then some (backupPath host now.backup path) else none)
        (backedUp host now path files) := by
  unfold backedUp
  by_cases hpath : path ∈ files
  · obtain ⟨before, hbefore⟩ := Option.isSome_iff_exists.mp (lookup_isSome.mpr hpath)
    have hcall := Option.not_isSome_iff_eq_none.mp fun hfails => h ⟨hpath, hfails⟩
    rw [decide_eq_true hpath, backupExisting_ok hcall hbefore, if_pos hpath, hbefore]
  · rw [decide_eq_false hpath, if_neg hpath, lookup_eq_none.mpr hpath]
    rfl

/-- A backup that fails touches itself only. -/
theorem backupExisting_error (h : BackupFails host now path files) :
    ∃ error files', backupExisting host now.backup path (decide (path ∈ files)) files =
        .error error files' ∧
      SameOutside (backupPath host now.backup path = ·) files files' := by
  obtain ⟨hpath, hfails⟩ := h
  obtain ⟨error, hcall⟩ := Option.isSome_iff_exists.mp hfails
  set backup_path := backupPath host now.backup path with hbackup_path
  refine ⟨error, host.left (.copy path backup_path) backup_path files, ?_,
    sameOutside_left rfl host _ files⟩
  unfold backupExisting backupFile
  rw [decide_eq_true hpath, if_pos rfl, ← bind_pure_comp, bind_assoc]
  exact bind_error (FileHost.copy_error hcall)

/-- Where the new content cannot be put in place, the file is as it was, unless copying the backup
back fails and leaves something else. -/
theorem writeOrRestore_error (h : WriteFails host now.write path) :
    ∃ error files', writeOrRestore host now.write path content
        (if path ∈ files then some (backupPath host now.backup path) else none)
        (backedUp host now path files) = .error error files' ∧
      SameOutside (Persisted path) files files' ∧
      files'.lookup path =
        if path ∈ files ∧ (host.fails (.copy (backupPath host now.backup path) path)).isSome then
          (host.leaves (.copy (backupPath host now.backup path) path)).or (files.lookup path)
        else files.lookup path := by
  obtain ⟨error, files₁, hwrite, hsame⟩ :=
    @atomicWrite_error host (backedUp host now path files) path now.write h content
  have htouched : SameOutside (Persisted path) files files₁ :=
    sameOutside_backedUp.trans (hsame.mono fun file hfile => hfile ▸ persisted_temporaryPath _)
  have hlookup : files₁.lookup path = files.lookup path := by
    rw [hsame path (temporaryPath_ne _), lookup_backedUp]
  unfold writeOrRestore
  rw [tryCatch_error hwrite]
  by_cases hpath : path ∈ files
  · simp only [hpath, true_and, if_true]
    set backup_path := backupPath host now.backup path with hbackup_path
    cases hcall : host.fails (.copy backup_path path) with
    | some restore_error =>
      refine ⟨error, host.left (.copy backup_path path) path files₁, ?_,
        htouched.trans (sameOutside_left (.inl rfl) host _ files₁), ?_⟩
      · show (attempt (host.copy backup_path path) >>= fun _ => throw error) files₁ = _
        rw [bind_ok (FileHost.attempt_error (FileHost.copy_error hcall))]
        rfl
      · rw [lookup_left, hlookup]
        rfl
    | none =>
      -- the backup is there, and has what was in the file
      obtain ⟨before, hbefore⟩ := Option.isSome_iff_exists.mp (lookup_isSome.mpr hpath)
      have hkept : files₁.lookup backup_path = some before := by
        rw [hsame _ (backupPath_ne_temporaryPath _ _).symm, backedUp, hbefore]
        exact lookup_insert files
      refine ⟨error, files₁.insert path before, ?_,
        htouched.trans (sameOutside_insert (.inl rfl) _ _), ?_⟩
      · show (attempt (host.copy backup_path path) >>= fun _ => throw error) files₁ = _
        rw [bind_ok (FileHost.attempt_ok (FileHost.copy_ok hcall hkept))]
        rfl
      · rw [lookup_insert, hbefore]
        rfl
  · simp only [hpath, false_and, if_false]
    exact ⟨error, files₁, rfl, htouched, hlookup⟩

variable {prepared : PreparedPatch}

/-- After a failure, the file has the bytes that `bytesAfterFailure` says. -/
theorem persistPatch_error (hchanged : prepared.changed_fields ≠ [])
    (hexists : prepared.file_exists = decide (path ∈ files))
    (h : PersistFails host now path prepared.rendered_toml files) :
    ∃ error files', persistPatch host now path prepared files = .error error files' ∧
      SameOutside (Persisted path) files files' ∧
      files'.lookup path = bytesAfterFailure host now path prepared.rendered_toml files := by
  unfold persistPatch bytesAfterFailure
  rw [if_neg hchanged, hexists]
  by_cases hbackup : BackupFails host now path files
  · obtain ⟨error, files', hrun, hsame⟩ := backupExisting_error hbackup
    refine ⟨_, files', bind_error (adaptExcept_error hrun),
      hsame.mono fun file hfile => hfile ▸ persisted_backupPath _, ?_⟩
    rw [if_pos hbackup, hsame path (backupPath_ne _)]
  rw [bind_ok (adaptExcept_eq_ok.mpr (backupExisting_backedUp hbackup)), if_neg hbackup]
  by_cases hwrite : WriteFails host now.write path
  · obtain ⟨error, files', hrun, hsame, hlookup⟩ :=
      @writeOrRestore_error host now path prepared.rendered_toml files hwrite
    refine ⟨_, files', bind_error (adaptExcept_error hrun), hsame, ?_⟩
    rw [if_pos hwrite, hlookup]
  have hwritten : writeOrRestore host now.write path prepared.rendered_toml
      (if path ∈ files then some (backupPath host now.backup path) else none)
      (backedUp host now path files) =
        .ok () (rewritten host now path prepared.rendered_toml files) :=
    tryCatch_ok (atomicWrite_run hwrite _)
  obtain ⟨hpath, hprune⟩ := (h.resolve_left hbackup).resolve_left hwrite
  rw [bind_ok (adaptExcept_eq_ok.mpr hwritten), if_neg hwrite, if_pos hpath]
  obtain ⟨error, files', hrun, hsame⟩ := pruneBackups_error hprune
  refine ⟨_, files', bind_error (adaptExcept_error hrun),
    sameOutside_rewritten.trans (hsame.mono fun file hfile => .inr (.inl hfile)), ?_⟩
  rw [hsame path (not_isBackupOf_self path), rewritten, lookup_written, if_pos rfl]

/-- After a success, the file has the new content, and the backup what was in the file before, unless
it was removed with the stale ones. -/
theorem persistPatch_run (hchanged : prepared.changed_fields ≠ [])
    (hexists : prepared.file_exists = decide (path ∈ files))
    (h : ¬PersistFails host now path prepared.rendered_toml files) :
    ∃ files', persistPatch host now path prepared files =
        .ok (if path ∈ files then some (backupPath host now.backup path) else none) files' ∧
      SameOutside (Persisted path) files files' ∧
      files'.lookup path = some prepared.rendered_toml.toUTF8 ∧
      (path ∈ files → files'.lookup (backupPath host now.backup path) =
        if IsStale path backupKeepCount (rewritten host now path prepared.rendered_toml files)
          (backupPath host now.backup path) then none else files.lookup path) := by
  obtain ⟨hbackup, hwrite, hprune⟩ : ¬BackupFails host now path files ∧
      ¬WriteFails host now.write path ∧
      ¬(path ∈ files ∧ PruneFails host path
        (rewritten host now path prepared.rendered_toml files)) := by
    unfold PersistFails at h
    rwa [not_or, not_or] at h
  have hwritten : writeOrRestore host now.write path prepared.rendered_toml
      (if path ∈ files then some (backupPath host now.backup path) else none)
      (backedUp host now path files) =
        .ok () (rewritten host now path prepared.rendered_toml files) :=
    tryCatch_ok (atomicWrite_run hwrite _)
  have hcontent : (rewritten host now path prepared.rendered_toml files).lookup path =
      some prepared.rendered_toml.toUTF8 := by
    rw [rewritten, lookup_written, if_pos rfl]
  have hrun := backupExisting_backedUp hbackup
  rw [← hexists] at hrun
  by_cases hpath : path ∈ files
  · obtain ⟨files', hremove, hlookup⟩ := pruneBackups_run fun hfails => hprune ⟨hpath, hfails⟩
    refine ⟨files', persistPatch_ok hchanged hrun hwritten ?_, ?_, ?_, fun _ => ?_⟩
    · rw [if_pos hpath]
      exact hremove
    · intro file hfile
      have hsame : (rewritten host now path prepared.rendered_toml files).lookup file =
          files.lookup file := sameOutside_rewritten file hfile
      rw [← hsame, hlookup, if_neg fun hstale => hfile (.inr (.inl hstale.1))]
    · rw [hlookup, if_neg fun hstale => not_isBackupOf_self path hstale.1, hcontent]
    · have hkept : (rewritten host now path prepared.rendered_toml files).lookup
          (backupPath host now.backup path) = files.lookup path := by
        obtain ⟨before, hbefore⟩ := Option.isSome_iff_exists.mp (lookup_isSome.mpr hpath)
        rw [rewritten, lookup_written, if_neg (backupPath_ne _),
          if_neg (backupPath_ne_temporaryPath _ _), backedUp, hbefore]
        exact lookup_insert files
      rw [hlookup, hkept]
  · refine ⟨_, persistPatch_ok hchanged hrun hwritten ?_, sameOutside_rewritten, hcontent,
      fun hmem => absurd hmem hpath⟩
    rw [if_neg hpath]
    rfl

end Persist

end Oxydra
