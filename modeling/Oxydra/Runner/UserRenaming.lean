import Oxydra.Runner.WebUserEnvironment

/-!
# The renaming of a user

`rename_user` moves the file of the user first and changes the registration then. Where that fails,
the file is moved back.
-/

namespace Oxydra

open AList Option Toml Effect

/-- The files with one of them moved, if it is there. -/
def movedFile (source target : FilePath) (files : ConfigFiles) : ConfigFiles :=
  match files.lookup source with
  | some bytes => if source = target then files else (files.erase source).insert target bytes
  | none => files

section Moves

variable {server : WebServer} {files files₂ : ConfigFiles} {source target : FilePath}

theorem movedFile_ne {bytes : ByteArray} (hbytes : files.lookup source = some bytes)
    (hne : source ≠ target) :
    movedFile source target files = (files.erase source).insert target bytes := by
  unfold movedFile
  rw [hbytes]
  exact if_neg hne

theorem movedFile_eq (h : ¬(source ∈ files ∧ source ≠ target)) :
    movedFile source target files = files := by
  unfold movedFile
  cases hbytes : files.lookup source with
  | none => rfl
  | some bytes =>
    have hmem : source ∈ files := lookup_isSome.mp (by rw [hbytes]; rfl)
    exact if_pos (not_not.mp fun hne => h ⟨hmem, hne⟩)

theorem lookup_movedFile {file : FilePath} (hsource : file ≠ source) (htarget : file ≠ target) :
    (movedFile source target files).lookup file = files.lookup file := by
  by_cases hmoved : source ∈ files ∧ source ≠ target
  · obtain ⟨bytes, hbytes⟩ := isSome_iff_exists.mp (lookup_isSome.mpr hmoved.1)
    rw [movedFile_ne hbytes hmoved.2, lookup_fileInserted, if_neg htarget, lookup_fileErased,
      if_neg hsource]
  · rw [movedFile_eq hmoved]

theorem mem_movedFile (hsource : source ∈ files) (hne : source ≠ target) :
    target ∈ movedFile source target files := by
  obtain ⟨bytes, hbytes⟩ := isSome_iff_exists.mp (lookup_isSome.mpr hsource)
  rw [movedFile_ne hbytes hne, mem_insert]
  exact .inl rfl

/-- A file is moved among the files of users, if it is one of them. -/
theorem webUsers_movedFile (hplaced : source ∈ files → source ≠ target →
      ¬Persisted server.config_path source ∧ ¬Persisted server.config_path target) :
    server.webUsers (movedFile source target files) = ⟨(server.webUsers files).users,
      UserOperation.moveFile source target (server.webUsers files).files⟩ := by
  unfold UserOperation.moveFile
  by_cases hmoved : source ∈ files ∧ source ≠ target
  · obtain ⟨hsource, htarget⟩ := hplaced hmoved.1 hmoved.2
    obtain ⟨bytes, hbytes⟩ := isSome_iff_exists.mp (lookup_isSome.mpr hmoved.1)
    rw [webUsers_files_of_not_persisted hsource, hbytes, movedFile_ne hbytes hmoved.2,
      webUsers_update htarget (lookup_fileInserted bytes), webUsers_update hsource lookup_fileErased]
    dsimp only
    rw [if_neg hmoved.2]
  · rw [movedFile_eq hmoved]
    cases hbytes : (server.webUsers files).files source with
    | none => rfl
    | some bytes =>
      have hmem : source ∈ files := by
        have hfile : (if Persisted server.config_path source then none else files.lookup source) =
            some bytes := hbytes
        rw [← lookup_isSome]
        split_ifs at hfile
        rw [hfile]
        rfl
      dsimp only
      rw [if_pos (not_not.mp fun hne => hmoved ⟨hmem, hne⟩)]

/-- The file of a user is moved, unless the call fails. -/
theorem moveUserFile_run (hshown : source ≠ target → server.Shown .userFile source files) :
    if source ∈ files ∧ source ≠ target ∧
        ((server.host .userFile).fails (.rename source target)).isSome then
      ∃ error, server.moveUserFile source target files = .error error files
    else server.moveUserFile source target files =
      .ok (decide (source ∈ files ∧ source ≠ target)) (movedFile source target files) := by
  have hseen : source ∈ files → source ≠ target →
      decide (server.Sees .userFile source files) = true ∧ source ≠ target :=
    fun hmem hne => ⟨decide_eq_true ⟨hmem, hshown hne hmem⟩, hne⟩
  split_ifs with hfails
  · obtain ⟨hmem, hne, hcall⟩ := hfails
    obtain ⟨error, hcall⟩ := isSome_iff_exists.mp hcall
    unfold WebServer.moveUserFile
    rw [bind_ok pathExists_run, if_pos (hseen hmem hne)]
    exact ⟨_, bind_error (adaptExcept_error (FileHost.rename_error hcall))⟩
  · unfold WebServer.moveUserFile
    rw [bind_ok pathExists_run]
    by_cases hmoves : source ∈ files ∧ source ≠ target
    · obtain ⟨hmem, hne⟩ := hmoves
      obtain ⟨bytes, hbytes⟩ := isSome_iff_exists.mp (lookup_isSome.mpr hmem)
      have hcall : (server.host .userFile).fails (.rename source target) = none :=
        not_isSome_iff_eq_none.mp fun hsome => hfails ⟨hmem, hne, hsome⟩
      rw [if_pos (hseen hmem hne), movedFile_ne hbytes hne,
        bind_ok (adaptExcept_eq_ok.mpr (FileHost.rename_ok hcall hbytes)),
        decide_eq_true ⟨hmem, hne⟩]
      rfl
    · have hstays : ¬(decide (server.Sees .userFile source files) = true ∧ source ≠ target) :=
        fun hmoves' => hmoves ⟨(of_decide_eq_true hmoves'.1).1, hmoves'.2⟩
      rw [if_neg hstays, movedFile_eq hmoves, decide_eq_false hmoves]
      rfl

/-- A file that was moved is moved back, if the call does not fail. -/
theorem ignore_rename {host : FileHost} (hsource : source ∈ files) (hne : source ≠ target) :
    ignore (host.rename source target) files = .ok ()
      (if (host.fails (.rename source target)).isSome then files
        else movedFile source target files) := by
  refine adaptExcept_eq_ok.mpr ?_
  obtain ⟨bytes, hbytes⟩ := isSome_iff_exists.mp (lookup_isSome.mpr hsource)
  cases hcall : host.fails (.rename source target) with
  | some error => exact FileHost.attempt_error (FileHost.rename_error hcall)
  | none =>
    rw [movedFile_ne hbytes hne]
    exact FileHost.attempt_ok (FileHost.rename_ok hcall hbytes)

/-- A file that is moved to where none was and back again is where it was. -/
theorem moveFile_moveFile {files : FilePath → Option ByteArray} (hne : source ≠ target)
    (htarget : files target = none) :
    UserOperation.moveFile target source (UserOperation.moveFile source target files) = files := by
  unfold UserOperation.moveFile
  cases hbytes : files source with
  | none =>
    dsimp only
    rw [htarget]
  | some bytes =>
    dsimp only
    rw [if_neg hne, Function.update_self]
    dsimp only
    rw [if_neg hne.symm, Function.update_idem, Function.update_comm hne, Function.update_idem,
      ← hbytes]
    funext file
    simp only [Function.update_apply]
    grind

end Moves

namespace WebServer

variable (server : WebServer)
  (old_user_id new_user_id previous_config_path new_config_path : String) (files : ConfigFiles)

/-- `rename_user` ends with an error before it looks for the file of the user. -/
def RenameRefused : Prop :=
  let source := server.resolveUserConfigPath previous_config_path
  let target := server.resolveUserConfigPath new_config_path
  old_user_id ≠ new_user_id ∧ (userConfigPath (server.snapshot files) new_user_id).isSome ∨
    source ≠ target ∧ server.Sees .target target (server.loaded files) ∨
    target.file_name = "" ∨
    ((server.host .directory).fails (.createDirAll target.parent)).isSome

/-- It comes to the file of the user, which was registered at this path, with this patch. -/
def ComesToMove (prepared : PreparedPatch) : Prop :=
  userConfigPath (server.snapshot files) old_user_id = some previous_config_path ∧
    ¬server.RenameRefused old_user_id new_user_id previous_config_path new_config_path files ∧
    server.preparedPatch (renameChanges old_user_id new_user_id new_config_path)
      (server.loaded files) = .ok prepared

/-- The file of the user cannot be moved. -/
def MoveFails : Prop :=
  let source := server.resolveUserConfigPath previous_config_path
  let target := server.resolveUserConfigPath new_config_path
  source ∈ server.loaded files ∧ source ≠ target ∧
    ((server.host .userFile).fails (.rename source target)).isSome

/-- The files once the file of the user is moved. -/
def userFileMoved : ConfigFiles :=
  movedFile (server.resolveUserConfigPath previous_config_path)
    (server.resolveUserConfigPath new_config_path) (server.loaded files)

/-- What `rename_user` relies on, as far as it comes. -/
structure RenamingSound (old_user_id new_user_id new_config_path : String) (files : ConfigFiles) :
    Prop where
  shown : ∀ previous_config_path prepared,
    server.ComesToMove old_user_id new_user_id previous_config_path new_config_path files prepared →
      let source := server.resolveUserConfigPath previous_config_path
      source ≠ server.resolveUserConfigPath new_config_path →
        server.Shown .userFile source (server.loaded files)
  /-- Where it comes to the registration, the runner configuration is patched as it is in its file. -/
  patches : ∀ previous_config_path prepared,
    server.ComesToMove old_user_id new_user_id previous_config_path new_config_path files prepared →
      ¬server.MoveFails previous_config_path new_config_path files →
        server.PatchesFile (renameChanges old_user_id new_user_id new_config_path)
          (server.loaded files)
  /-- A file is moved to where none is, and is not the runner configuration nor made next to it. -/
  moved : ∀ previous_config_path prepared,
    server.ComesToMove old_user_id new_user_id previous_config_path new_config_path files prepared →
      ¬server.MoveFails previous_config_path new_config_path files →
        let source := server.resolveUserConfigPath previous_config_path
        let target := server.resolveUserConfigPath new_config_path
        source ∈ server.loaded files → source ≠ target → target ∉ server.loaded files ∧
          ¬Persisted server.config_path source ∧ ¬Persisted server.config_path target
  /-- A user who is registered anew was registered at the path that the request goes by. -/
  registered : ∀ previous_config_path prepared,
    server.ComesToMove old_user_id new_user_id previous_config_path new_config_path files prepared →
      ¬server.MoveFails previous_config_path new_config_path files →
        ¬server.PersistFailsFor (server.userFileMoved previous_config_path new_config_path files)
            prepared →
          (server.webUsers files).users old_user_id = some previous_config_path

/-- What `rename_user` does from then on. -/
def registerRenamed (prepared_runner : PreparedPatch) (moved_user_file : Bool) :
    WebM RenameUserResponse := do
  let undo := if moved_user_file then
      ignore ((server.host .undo).rename (server.resolveUserConfigPath new_config_path)
        (server.resolveUserConfigPath previous_config_path))
    else pure ()
  let runner_backup ← compensated (server.persistRunnerPatch prepared_runner) undo
  return ⟨new_user_id, new_config_path, old_user_id, previous_config_path,
    runner_backup.map FilePath.display⟩

/-- The file of the user is moved back, and the runner configuration restored, wherever that is
needed. -/
def RenamingCompensated : Prop :=
  let target := server.resolveUserConfigPath new_config_path
  ∀ previous_config_path prepared,
    server.ComesToMove old_user_id new_user_id previous_config_path new_config_path files prepared →
      ¬server.MoveFails previous_config_path new_config_path files →
        let source := server.resolveUserConfigPath previous_config_path
        let moved := server.userFileMoved previous_config_path new_config_path files
        server.PersistFailsFor moved prepared →
          (source ∈ server.loaded files → source ≠ target →
            (server.host .undo).fails (.rename target source) = none) ∧
          server.RestoresUsers (renameChanges old_user_id new_user_id new_config_path) moved

end WebServer

namespace UserOperation.Printed

variable {server : WebServer} {files : ConfigFiles}
  {old_user_id new_user_id previous_config_path new_config_path : String}
  {prepared : PreparedPatch}
  (h : (rename old_user_id new_user_id new_config_path).Printed server files)
  (hsound : server.RenamingSound old_user_id new_user_id new_config_path files)

include h hsound

/-- Before the file of the user is moved, nothing changes. -/
theorem renameUserTo_run
    (hprevious : userConfigPath (server.snapshot files) old_user_id = some previous_config_path) :
    let source := server.resolveUserConfigPath previous_config_path
    let target := server.resolveUserConfigPath new_config_path
    let comes := server.ComesToMove old_user_id new_user_id previous_config_path new_config_path
      files
    let fails := server.MoveFails previous_config_path new_config_path files
    (∃ prepared, comes prepared ∧ ¬fails ∧
      server.renameUserTo old_user_id new_user_id new_config_path files =
        server.registerRenamed old_user_id new_user_id previous_config_path new_config_path prepared
          (decide (source ∈ server.loaded files ∧ source ≠ target))
          (server.userFileMoved previous_config_path new_config_path files)) ∨
    ((∀ prepared, comes prepared → fails) ∧
      ∃ error files', server.renameUserTo old_user_id new_user_id new_config_path files =
        .error error files' ∧ server.webUsers files' = server.webUsers files) := by
  have hloaded := h.webUsers_loaded
  have hshown := hsound.shown previous_config_path
  have hregistered : WebServer.registrationOf (server.snapshot files) old_user_id =
      .ok previous_config_path := by
    rw [WebServer.registrationOf, hprevious]
  unfold WebServer.renameUserTo WebServer.userFileMoved WebServer.MoveFails
  unfold WebServer.ComesToMove WebServer.RenameRefused at hshown ⊢
  dsimp only at hshown ⊢
  set loaded := server.loaded files with hL
  set source := server.resolveUserConfigPath previous_config_path with hsource
  set target := server.resolveUserConfigPath new_config_path with htarget
  rw [bind_ok latest_run, bind_ok (ofExcept_ok hregistered)]
  -- the checks, in the order of the code: each refusal changes no user
  by_cases hnew : old_user_id ≠ new_user_id ∧
      (userConfigPath (server.snapshot files) new_user_id).isSome
  · exact .inr ⟨fun _ hcomes => absurd (.inl hnew) hcomes.2.1, _, loaded,
      bind_error (refuseIf_error hnew _), hloaded⟩
  rw [bind_ok (refuseIf_ok hnew _), ← hsource, bind_ok pathExists_run]
  by_cases hexists : source ≠ target ∧ server.Sees .target target loaded
  · have hrefused : source ≠ target ∧ decide (server.Sees .target target loaded) = true :=
      ⟨hexists.1, decide_eq_true hexists.2⟩
    exact .inr ⟨fun _ hcomes => absurd (.inr (.inl hexists)) hcomes.2.1, _, loaded,
      bind_error (refuseIf_error hrefused _), hloaded⟩
  rw [bind_ok (refuseIf_ok (by rwa [decide_eq_true_eq]) _)]
  have hprepare := @prepare_run server loaded
    (WebServer.renameChanges old_user_id new_user_id new_config_path)
  cases hprepared : server.preparedPatch
    (WebServer.renameChanges old_user_id new_user_id new_config_path) loaded with
  | error error =>
    rw [hprepared] at hprepare
    exact .inr ⟨fun _ hcomes => (by cases hcomes.2.2), error, loaded, bind_error hprepare,
      hloaded⟩
  | ok prepared =>
  rw [hprepared] at hprepare
  rw [bind_ok hprepare]
  by_cases hdirectory : target.file_name = "" ∨
      ((server.host .directory).fails (.createDirAll target.parent)).isSome
  · obtain ⟨error, hrun⟩ := @createUserDirectory_error _ server loaded hdirectory
    exact .inr ⟨fun _ hcomes => absurd (.inr (.inr hdirectory)) hcomes.2.1, error, loaded,
      bind_error hrun, hloaded⟩
  obtain ⟨hname, hcall⟩ := not_or.mp hdirectory
  rw [bind_ok (createUserDirectory_ok hname hcall)]
  have hpasses : ¬(old_user_id ≠ new_user_id ∧
        (userConfigPath (server.snapshot files) new_user_id).isSome ∨
      source ≠ target ∧ server.Sees .target target loaded ∨ target.file_name = "" ∨
      ((server.host .directory).fails (.createDirAll target.parent)).isSome) := by
    rintro (hbad | hbad | hbad)
    · exact hnew hbad
    · exact hexists hbad
    · exact hdirectory hbad
  -- from here on only the move can fail
  have hmove := @moveUserFile_run server loaded source target
    (hshown prepared ⟨hprevious, hpasses, hprepared⟩)
  by_cases hfails : source ∈ loaded ∧ source ≠ target ∧
      ((server.host .userFile).fails (.rename source target)).isSome
  · rw [if_pos hfails] at hmove
    obtain ⟨error, hrun⟩ := hmove
    exact .inr ⟨fun _ _ => hfails, error, loaded, bind_error hrun, hloaded⟩
  · rw [if_neg hfails] at hmove
    rw [bind_ok hmove]
    exact .inl ⟨prepared, ⟨hprevious, hpasses, rfl⟩, hfails, hsource ▸ rfl⟩

omit hsound in
/-- Where a file was moved, the users are as before when it is moved back and the registrations are
as before. -/
theorem webUsers_movedBack (files₂ : ConfigFiles)
    (hsource : server.resolveUserConfigPath previous_config_path ∈ server.loaded files)
    (hne : server.resolveUserConfigPath previous_config_path ≠
      server.resolveUserConfigPath new_config_path)
    (hmoved : server.resolveUserConfigPath new_config_path ∉ server.loaded files ∧
      ¬Persisted server.config_path (server.resolveUserConfigPath previous_config_path) ∧
      ¬Persisted server.config_path (server.resolveUserConfigPath new_config_path))
    (hsame : SameOutside (Persisted server.config_path)
      (server.userFileMoved previous_config_path new_config_path files) files₂) :
    let source := server.resolveUserConfigPath previous_config_path
    let target := server.resolveUserConfigPath new_config_path
    let fails := (server.host .undo).fails (.rename target source)
    server.webUsers (if fails.isSome then files₂ else movedFile target source files₂) =
        server.webUsers files ↔
      fails = none ∧ (server.webUsers files₂).users = (server.webUsers files).users := by
  obtain ⟨hnew, hplaced_source, hplaced_target⟩ := hmoved
  have hfiles := webUsers_files_eq hsame
  rw [WebServer.userFileMoved, webUsers_movedFile fun _ _ => ⟨hplaced_source, hplaced_target⟩,
    h.webUsers_loaded] at hfiles
  unfold WebServer.userFileMoved at hsame
  dsimp only
  set source := server.resolveUserConfigPath previous_config_path
  set target := server.resolveUserConfigPath new_config_path
  have hnone : (server.webUsers files).files target = none := by
    rw [webUsers_files_of_not_persisted hplaced_target, ← lookup_loaded hplaced_target,
      lookup_eq_none.mpr hnew]
  cases (server.host .undo).fails (.rename target source) with
  | some error =>
    -- the file of the user is still at the new path
    rw [isSome_some, if_pos rfl]
    refine iff_of_false (fun heq => ?_) nofun
    have hfile : (server.webUsers files₂).files target = none := by rw [heq, hnone]
    rw [webUsers_files_of_not_persisted hplaced_target, hsame _ hplaced_target] at hfile
    exact lookup_eq_none.mp hfile (mem_movedFile hsource hne)
  | none =>
    rw [isSome_none, if_neg Bool.false_ne_true,
      webUsers_movedFile fun _ _ => ⟨hplaced_target, hplaced_source⟩, hfiles,
      moveFile_moveFile hne hnone, WebUsers.ext_iff]
    exact ⟨fun heq => ⟨rfl, heq.1⟩, fun husers => ⟨husers.2, rfl⟩⟩

/-- From the moment when the file of the user is moved. -/
theorem registerRenamed_atomic_iff
    (hcomes : server.ComesToMove old_user_id new_user_id previous_config_path new_config_path files
      prepared)
    (hmoves : ¬server.MoveFails previous_config_path new_config_path files) :
    let source := server.resolveUserConfigPath previous_config_path
    let target := server.resolveUserConfigPath new_config_path
    let moved := server.userFileMoved previous_config_path new_config_path files
    wp (server.registerRenamed old_user_id new_user_id previous_config_path new_config_path prepared
        (decide (source ∈ server.loaded files ∧ source ≠ target)))
      (fun _ files' => server.webUsers files' =
        (rename old_user_id new_user_id new_config_path).apply server (server.webUsers files))
      (fun _ files' => server.webUsers files' = server.webUsers files) moved ↔
    (server.PersistFailsFor moved prepared →
      (source ∈ server.loaded files → source ≠ target →
        (server.host .undo).fails (.rename target source) = none) ∧
      server.RestoresUsers
        (WebServer.renameChanges old_user_id new_user_id new_config_path) moved) := by
  have hback := @webUsers_movedBack server files _ _ previous_config_path _ h
  have hmoved := hsound.moved _ _ hcomes hmoves
  have hpatches := hsound.patches _ _ hcomes hmoves
  have hregistered := hsound.registered _ _ hcomes hmoves
  have hprepared := hcomes.2.2
  unfold WebServer.userFileMoved at hback hregistered ⊢
  dsimp only at hback hmoved ⊢
  set loaded := server.loaded files
  set source := server.resolveUserConfigPath previous_config_path with hsource
  set target := server.resolveUserConfigPath new_config_path with htarget
  have hwebUsers : server.webUsers (movedFile source target loaded) =
      ⟨(server.webUsers files).users,
        UserOperation.moveFile source target (server.webUsers files).files⟩ := by
    rw [webUsers_movedFile fun hmem hne => (hmoved hmem hne).2, h.webUsers_loaded]
  have hconfig : (movedFile source target loaded).lookup server.config_path =
      loaded.lookup server.config_path := by
    by_cases hmove : source ∈ loaded ∧ source ≠ target
    · obtain ⟨-, hplaced_source, hplaced_target⟩ := hmoved hmove.1 hmove.2
      exact lookup_movedFile (fun heq => hplaced_source (.inl heq))
        fun heq => hplaced_target (.inl heq)
    · rw [movedFile_eq hmove]
  have hfile : server.PatchesFile
      (WebServer.renameChanges old_user_id new_user_id new_config_path)
      (movedFile source target loaded) := by
    refine ⟨fun hmem => hpatches.shown ?_, hpatches.unsecret⟩
    rwa [← lookup_isSome, ← hconfig, lookup_isSome]
  rw [← preparedPatch_congr hconfig] at hprepared
  unfold wp WebServer.registerRenamed
  rw [← hsource, ← htarget]
  -- a failed registration is undone: the file goes back, then the registrations
  by_cases hfails : server.PersistFailsFor (movedFile source target loaded) prepared
  · obtain ⟨error, files₂, hpersist, hsame, hrestores⟩ := h.persist_error hfile hprepared hfails
    rw [hwebUsers] at hrestores
    by_cases hmove : source ∈ loaded ∧ source ≠ target
    · obtain ⟨hmem, hne⟩ := hmove
      have hplaced := hmoved hmem hne
      have hmem₂ : target ∈ files₂ := by
        rw [← lookup_isSome, hsame _ hplaced.2.2, lookup_isSome]
        exact mem_movedFile hmem hne
      rw [decide_eq_true ⟨hmem, hne⟩, if_pos rfl,
        bind_error (compensated_error hpersist (ignore_rename hmem₂ hne.symm))]
      dsimp only
      rw [hback files₂ hmem hne hplaced hsame]
      exact ⟨fun hrestored _ => ⟨fun _ _ => hrestored.1, hrestores.mp hrestored.2⟩,
        fun hall => ⟨(hall hfails).1 hmem hne, hrestores.mpr (hall hfails).2⟩⟩
    · have hundo : (pure () : WebM Unit) files₂ = .ok () files₂ := rfl
      rw [decide_eq_false hmove, if_neg Bool.false_ne_true,
        bind_error (compensated_error hpersist hundo)]
      dsimp only
      have hfiles : (server.webUsers files₂).files = (server.webUsers files).files := by
        rw [webUsers_files_eq hsame, movedFile_eq hmove, h.webUsers_loaded]
      rw [WebUsers.ext_iff]
      exact ⟨fun hsame _ => ⟨fun hmem hne => absurd ⟨hmem, hne⟩ hmove, hrestores.mp hsame.1⟩,
        fun hall => ⟨hrestores.mpr (hall hfails).2, hfiles⟩⟩
  · obtain ⟨backup, files₂, hpersist, hsame, husers, -⟩ := h.persist_ok hfile hprepared hfails
    rw [bind_ok (compensated_ok hpersist)]
    refine iff_of_true (WebUsers.ext ?_ ?_) fun hfails' => absurd hfails' hfails
    · rw [husers, hwebUsers]
      rfl
    · rw [webUsers_files_eq hsame, hwebUsers]
      unfold UserOperation.apply UserOperation.changeFiles
      dsimp only
      rw [hregistered hfails]

/-- `rename_user` is all or nothing exactly when what it undoes can be undone. -/
theorem rename_atomic_iff : (rename old_user_id new_user_id new_config_path).Atomic server files ↔
    server.RenamingCompensated old_user_id new_user_id new_config_path files := by
  unfold UserOperation.Atomic UserOperation.perform WebServer.RenamingCompensated
  simp only [wp_map]
  cases hprevious : userConfigPath (server.snapshot files) old_user_id with
  | none =>
    have hregistered : ∃ error,
        WebServer.registrationOf (server.snapshot files) old_user_id = .error error := by
      rw [WebServer.registrationOf, hprevious]
      exact ⟨_, rfl⟩
    obtain ⟨error, hregistered⟩ := hregistered
    unfold wp WebServer.renameUserTo
    rw [bind_ok latest_run, bind_error (ofExcept_error hregistered)]
    exact iff_of_true h.webUsers_loaded fun _ _ hcomes =>
      by cases hprevious.symm.trans hcomes.1
  | some previous_config_path =>
    obtain ⟨prepared, hcomes, hmoves, hrun⟩ | ⟨hrefused, error, files', hrun, hsame⟩ :=
      h.renameUserTo_run hsound hprevious
    · unfold wp
      rw [hrun]
      refine (h.registerRenamed_atomic_iff hsound hcomes hmoves).trans ⟨?_, ?_⟩
      · intro hall _ prepared' hcomes' _
        obtain rfl := some.inj (hprevious.symm.trans hcomes'.1)
        obtain rfl := Except.ok.inj (hcomes.2.2.symm.trans hcomes'.2.2)
        exact hall
      · exact fun hall => hall _ prepared hcomes hmoves
    · unfold wp
      rw [hrun]
      refine iff_of_true hsame fun _ prepared hcomes hmoves => ?_
      obtain rfl := some.inj (hprevious.symm.trans hcomes.1)
      exact absurd (hrefused prepared hcomes) hmoves

end UserOperation.Printed

end Oxydra
