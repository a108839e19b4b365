import Oxydra.Runner.WebUserEnvironment

/-!
# The creation of a user

`create_user` makes the file of the user first and registers the user then. Where the registration
fails, the file is removed again.
-/

namespace Oxydra

open Option Toml Effect

namespace WebServer

variable (server : WebServer)

/-- The text of the user's file, if `create_user` comes to write it. -/
def userFileText (user_id config_path : String) (files : ConfigFiles) : Option String :=
  let user_config_path := server.resolveUserConfigPath config_path
  if (userConfigPath (server.snapshot files) user_id).isSome ∨
      server.Sees .target user_config_path (server.loaded files) ∨
      user_config_path.file_name = "" ∨
      ((server.host .directory).fails (.createDirAll user_config_path.parent)).isSome then none
  else (defaultUserToml server.toml).toOption

/-- The files when it has made the file, if it comes so far. -/
def userFileCreated (user_id config_path : String) (files : ConfigFiles) : Option ConfigFiles :=
  let user_config_path := server.resolveUserConfigPath config_path
  if WriteFails (server.host .userFile) server.now.user_file user_config_path then none
  else (server.userFileText user_id config_path files).map fun user_toml =>
    written (temporaryPath (server.host .userFile) server.now.user_file user_config_path)
      user_config_path user_toml (server.loaded files)

/-- What `create_user` relies on, as far as it comes. -/
structure CreationSound (user_id config_path : String) (files : ConfigFiles) : Prop where
  /-- A file is written only where the runner configuration has no name of a temporary file. -/
  config_name : (server.userFileText user_id config_path files).isSome →
    ¬isTemporaryName server.config_path.file_name
  /-- The file that is made was not there, and is not the runner configuration nor made next to it. -/
  made : (server.userFileCreated user_id config_path files).isSome →
    server.resolveUserConfigPath config_path ∉ server.loaded files ∧
      ¬Persisted server.config_path (server.resolveUserConfigPath config_path)
  /-- The runner configuration is then patched as it is in its file. -/
  patches : ∀ files₁ ∈ server.userFileCreated user_id config_path files,
    server.PatchesFile [(user_id, some config_path)] files₁

/-- What `create_user` does from then on. -/
def registerCreated (user_id config_path : String) : WebM CreateUserResponse := do
  let undo := ignore ((server.host .undo).removeFile (server.resolveUserConfigPath config_path))
  let prepared_runner ← compensated
    (server.prepareRunnerPatch [(user_id, some config_path)]) undo
  let runner_backup ← compensated (server.persistRunnerPatch prepared_runner) undo
  return ⟨user_id, config_path, runner_backup.map FilePath.display⟩

/-- The file of the user is removed again, and the runner configuration restored, wherever that is
needed. -/
def CreationCompensated (user_id config_path : String) (files : ConfigFiles) : Prop :=
  let undo := FileCall.removeFile (server.resolveUserConfigPath config_path)
  let changes := [(user_id, some config_path)]
  ∀ files₁ ∈ server.userFileCreated user_id config_path files,
    match server.preparedPatch changes files₁ with
    | .error _ => (server.host .undo).fails undo = none
    | .ok prepared => server.PersistFailsFor files₁ prepared →
        (server.host .undo).fails undo = none ∧ server.RestoresUsers changes files₁

end WebServer

/-- No temporary file is the runner configuration. -/
theorem WebServer.CreationSound.ne_temporaryPath {server : WebServer} {files : ConfigFiles}
    {user_id config_path : String} (hsound : server.CreationSound user_id config_path files)
    (hwrites : (server.userFileText user_id config_path files).isSome) (host : FileHost) (now : ℤ)
    (path : FilePath) : server.config_path ≠ temporaryPath host now path := by
  intro heq
  have hname := isTemporaryName_temporaryPath host now path
  rw [← heq] at hname
  exact hsound.config_name hwrites hname

namespace UserOperation.Printed

variable {server : WebServer} {files : ConfigFiles} {user_id config_path : String}
  (h : (create user_id config_path).Printed server files)
  (hsound : server.CreationSound user_id config_path files)

include h hsound

/-- Before the file of the user is made, nothing changes. -/
theorem createUserAt_run :
    match server.userFileCreated user_id config_path files with
    | some files₁ =>
      server.createUserAt user_id config_path files =
        server.registerCreated user_id config_path files₁
    | none => ∃ error files', server.createUserAt user_id config_path files = .error error files' ∧
      server.webUsers files' = server.webUsers files := by
  have hloaded := h.webUsers_loaded
  have hcreated : server.userFileCreated user_id config_path files =
      if WriteFails (server.host .userFile) server.now.user_file
        (server.resolveUserConfigPath config_path) then none
      else (server.userFileText user_id config_path files).map fun user_toml =>
        written (temporaryPath (server.host .userFile) server.now.user_file
          (server.resolveUserConfigPath config_path)) (server.resolveUserConfigPath config_path)
            user_toml (server.loaded files) := rfl
  have hnone : server.userFileText user_id config_path files = none →
      server.userFileCreated user_id config_path files = none := by
    intro htext
    rw [hcreated, htext, map_none, ite_self]
  unfold WebServer.createUserAt
  rw [bind_ok latest_run]
  set user_config_path := server.resolveUserConfigPath config_path with hpath
  -- the checks, in the order of the code
  by_cases hregistered : (userConfigPath (server.snapshot files) user_id).isSome
  · rw [hnone (if_pos (.inl hregistered))]
    exact ⟨_, _, bind_error (refuseIf_error hregistered _), hloaded⟩
  rw [bind_ok (refuseIf_ok hregistered _), bind_ok pathExists_run]
  by_cases hexists : server.Sees .target user_config_path (server.loaded files)
  · rw [hnone (if_pos (.inr (.inl hexists)))]
    exact ⟨_, _, bind_error (refuseIf_error (decide_eq_true hexists) _), hloaded⟩
  rw [bind_ok (refuseIf_ok (by rwa [decide_eq_true_eq]) _)]
  by_cases hdirectory : user_config_path.file_name = "" ∨
      ((server.host .directory).fails (.createDirAll user_config_path.parent)).isSome
  · obtain ⟨error, hrun⟩ := @createUserDirectory_error _ server (server.loaded files) hdirectory
    rw [hnone (if_pos (.inr (.inr hdirectory)))]
    exact ⟨error, _, bind_error hrun, hloaded⟩
  obtain ⟨hname, hcall⟩ := not_or.mp hdirectory
  have htext : server.userFileText user_id config_path files =
      (defaultUserToml server.toml).toOption :=
    if_neg (by simp [← hpath, hregistered, hexists, hname, hcall])
  rw [bind_ok (createUserDirectory_ok hname hcall)]
  cases htoml : defaultUserToml server.toml with
  | error error =>
    rw [hnone (by rw [htext, htoml]; rfl)]
    exact ⟨_, _, bind_error (ofExcept_error rfl), hloaded⟩
  | ok user_toml =>
  rw [htoml] at htext
  have hserial : (Effect.ofExcept ((Except.ok user_toml : Except String String).mapError
      fun error => configWriteFailed s!"failed to serialize default user config: {error}") :
        WebM String) (server.loaded files) = .ok user_toml (server.loaded files) := ofExcept_ok rfl
  rw [bind_ok hserial]
  -- a failed write leaves at most its temporary file, which is no user's
  by_cases hwrite : WriteFails (server.host .userFile) server.now.user_file user_config_path
  · obtain ⟨error, files', hrun, hsame⟩ :=
      @atomicWrite_error _ (server.loaded files) user_config_path server.now.user_file hwrite
        user_toml
    rw [hcreated, if_pos hwrite]
    refine ⟨_, files', bind_error (adaptExcept_error hrun), ?_⟩
    have htmp := hsound.ne_temporaryPath (by rw [htext]; rfl) (server.host .userFile)
      server.now.user_file user_config_path
    have hpersisted : SameOutside (Persisted server.config_path) (server.loaded files) files' :=
      hsame.mono fun file hfile => hfile ▸ .inr (.inr (isTemporaryName_temporaryPath _ _ _))
    rw [WebServer.webUsers_eq hpersisted (congrArg _ (hsame _ htmp.symm)), hloaded]
  · rw [bind_ok (adaptExcept_eq_ok.mpr (atomicWrite_run hwrite user_toml)), hcreated,
      if_neg hwrite, htext]
    rfl

/-- What there is when the file of the user is made. -/
theorem userFileCreated_eq {files₁ : ConfigFiles}
    (hcreated : files₁ ∈ server.userFileCreated user_id config_path files) :
    let user_config_path := server.resolveUserConfigPath config_path
    ¬Persisted server.config_path user_config_path ∧
      (server.webUsers files).files user_config_path = none ∧
      files₁.lookup server.config_path = (server.loaded files).lookup server.config_path ∧
      server.webUsers files₁ = ⟨(server.webUsers files).users,
        (create user_id config_path).changeFiles server (server.webUsers files)⟩ ∧
      user_config_path ∈ files₁ := by
  obtain ⟨hnew, hplaced⟩ := hsound.made (isSome_of_mem hcreated)
  unfold WebServer.userFileCreated at hcreated
  dsimp only at hcreated hnew hplaced ⊢
  set user_config_path := server.resolveUserConfigPath config_path with hpath
  split_ifs at hcreated with hwrite
  · cases hcreated
  obtain ⟨user_toml, htext, rfl⟩ := map_eq_some_iff.mp hcreated
  have hconfig := hsound.ne_temporaryPath (isSome_of_mem htext)
    (server.host .userFile) server.now.user_file user_config_path
  have htoml : defaultUserToml server.toml = .ok user_toml := by
    unfold WebServer.userFileText at htext
    dsimp only at htext
    split_ifs at htext
    exact mem_toOption.mp htext
  have htmp : Persisted server.config_path
      (temporaryPath (server.host .userFile) server.now.user_file user_config_path) :=
    .inr (.inr (isTemporaryName_temporaryPath _ _ _))
  refine ⟨hplaced, ?_, ?_, ?_, mem_written.mpr (.inl rfl)⟩
  · rw [webUsers_files_of_not_persisted hplaced, ← lookup_loaded hplaced,
      AList.lookup_eq_none.mpr hnew]
  · rw [lookup_written, if_neg fun heq => hplaced (.inl heq), if_neg hconfig]
  · unfold written
    have hsame : server.webUsers ((server.loaded files).erase
        (temporaryPath (server.host .userFile) server.now.user_file user_config_path)) =
          server.webUsers files := by
      rw [WebServer.webUsers_eq (sameOutside_erase htmp _)
        (congrArg _ (AList.lookup_erase_ne hconfig)), h.webUsers_loaded]
    rw [webUsers_update hplaced (lookup_fileInserted _), hsame, UserOperation.changeFiles, htoml]

/-- The users are as before when the file is removed again and the registrations are as before. -/
theorem webUsers_undone {files₁ : ConfigFiles}
    (hcreated : files₁ ∈ server.userFileCreated user_id config_path files)
    (files₂ : ConfigFiles)
    (hsame : SameOutside (Persisted server.config_path) files₁ files₂) :
    let user_config_path := server.resolveUserConfigPath config_path
    let fails := (server.host .undo).fails (.removeFile user_config_path)
    server.webUsers (if fails.isSome then files₂ else files₂.erase user_config_path) =
        server.webUsers files ↔
      fails = none ∧ (server.webUsers files₂).users = (server.webUsers files).users := by
  obtain ⟨hplaced, hnone, -, hwebUsers, hmem⟩ := h.userFileCreated_eq hsound hcreated
  have hfiles := webUsers_files_eq hsame
  dsimp only at hplaced hnone ⊢
  set user_config_path := server.resolveUserConfigPath config_path with hpath
  cases (server.host .undo).fails (.removeFile user_config_path) with
  | some error =>
    -- the file of the user is still there
    rw [isSome_some, if_pos rfl]
    refine iff_of_false (fun heq => ?_) nofun
    have hfile : (server.webUsers files₂).files user_config_path = none := by rw [heq, hnone]
    rw [hfiles, webUsers_files_of_not_persisted hplaced] at hfile
    exact AList.lookup_eq_none.mp hfile hmem
  | none =>
    rw [isSome_none, if_neg Bool.false_ne_true, webUsers_update hplaced (lookup_fileErased),
      hfiles, hwebUsers]
    have hrestored : Function.update ((create user_id config_path).changeFiles server
        (server.webUsers files)) user_config_path none = (server.webUsers files).files := by
      unfold UserOperation.changeFiles
      cases defaultUserToml server.toml with
      | ok user_toml => rw [Function.update_idem, ← hnone, Function.update_eq_self]
      | error error => rw [← hnone, Function.update_eq_self]
    rw [hrestored, WebUsers.ext_iff]
    exact ⟨fun heq => ⟨rfl, heq.1⟩, fun husers => ⟨husers.2, rfl⟩⟩

/-- `create_user` is all or nothing exactly when what it undoes can be undone. -/
theorem create_atomic_iff : (create user_id config_path).Atomic server files ↔
    server.CreationCompensated user_id config_path files := by
  unfold UserOperation.Atomic UserOperation.perform WebServer.CreationCompensated
  simp only [wp_map]
  have hrun := h.createUserAt_run hsound
  cases hcreated : server.userFileCreated user_id config_path files with
  | none =>
    rw [hcreated] at hrun
    obtain ⟨error, files', hrun, hsame⟩ := hrun
    unfold wp
    rw [hrun]
    exact iff_of_true hsame fun _ h => by cases h
  | some files₁ =>
  rw [hcreated] at hrun
  obtain ⟨hplaced, hnone, hconfig, hwebUsers, hmem⟩ := h.userFileCreated_eq hsound hcreated
  have hundone := h.webUsers_undone hsound hcreated
  have hfile := hsound.patches files₁ hcreated
  dsimp only at hplaced hnone hmem hundone ⊢
  set user_config_path := server.resolveUserConfigPath config_path with hpath
  have hprepare := @prepare_run server files₁ [(user_id, some config_path)]
  simp only [mem_def, Option.some.injEq, forall_eq']
  unfold wp
  rw [hrun]
  unfold WebServer.registerCreated
  rw [← hpath]
  cases hprepared : server.preparedPatch [(user_id, some config_path)] files₁ with
  | error error =>
    rw [hprepared] at hprepare
    rw [bind_error (compensated_error hprepare (ignore_removeFile hmem))]
    dsimp only
    rw [hundone files₁ (.refl _ _), hwebUsers]
    exact and_iff_left rfl
  | ok prepared =>
    rw [hprepared] at hprepare
    rw [bind_ok (compensated_ok hprepare)]
    dsimp only
    by_cases hfails : server.PersistFailsFor files₁ prepared
    · obtain ⟨error, files₂, hpersist, hsame, hrestores⟩ := h.persist_error hfile hprepared hfails
      have hmem₂ : user_config_path ∈ files₂ := by
        rwa [← AList.lookup_isSome, hsame _ hplaced, AList.lookup_isSome]
      rw [bind_error (compensated_error hpersist (ignore_removeFile hmem₂))]
      dsimp only
      rw [hwebUsers] at hrestores
      rw [hundone files₂ hsame]
      exact ⟨fun hback _ => ⟨hback.1, hrestores.mp hback.2⟩,
        fun hback => ⟨(hback hfails).1, hrestores.mpr (hback hfails).2⟩⟩
    · obtain ⟨backup, files₂, hpersist, hsame, husers, -⟩ := h.persist_ok hfile hprepared hfails
      rw [bind_ok (compensated_ok hpersist)]
      refine iff_of_true (WebUsers.ext ?_ ?_) fun hfails' => absurd hfails' hfails
      · rw [husers, hwebUsers]
        rfl
      · rw [webUsers_files_eq hsame, hwebUsers]
        rfl

end UserOperation.Printed

end Oxydra
