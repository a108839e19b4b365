import Oxydra.Runner.WebUserEnvironment

/-!
# The deletion of a user

`delete_user` changes the runner configuration first and removes the file of the user then. Where
that fails, the backup of the runner configuration is copied back.
-/

namespace Oxydra

open AList Toml Effect

variable {prepared : PreparedPatch}

namespace WebServer

variable (server : WebServer) (user_id : String) (delete_config_file : Bool) (files : ConfigFiles)

/-- The users are as before once the backup of the runner configuration is copied back: it was not
removed with the stale ones, or the call fails and what it leaves has the same users. -/
def RestoresBackup (prepared : PreparedPatch) : Prop :=
  let host := server.host .persist
  let backup_path := backupPath host server.now.persist.backup server.config_path
  let restore := FileCall.copy backup_path server.config_path
  if ((server.host .undo).fails restore).isSome then
    registeredUsers server.toml
        (((server.host .undo).leaves restore).or (some prepared.rendered_toml.toUTF8)) =
      registeredUsers server.toml (files.lookup server.config_path)
  else ¬IsStale server.config_path backupKeepCount
    (rewritten host server.now.persist server.config_path prepared.rendered_toml files) backup_path

/-- `delete_user` comes to the registration, with the path of a user and a patch. -/
def ComesToPersist (config_path : String) (prepared : PreparedPatch) : Prop :=
  userConfigPath (server.snapshot files) user_id = some config_path ∧
    server.preparedPatch [(user_id, none)] (server.loaded files) = .ok prepared

/-- What `delete_user` relies on, as far as it comes. -/
structure DeletionSound : Prop where
  /-- The runner configuration is patched as it is in its file. -/
  patches : ∀ config_path prepared, server.ComesToPersist user_id files config_path prepared →
    server.PatchesFile [(user_id, none)] (server.loaded files)
  /-- A file that is to be removed is the one of the user who was registered, it is seen if it is
  there, and is not the runner configuration nor made next to it. -/
  removes : ∀ config_path prepared, server.ComesToPersist user_id files config_path prepared →
    ¬server.PersistFailsFor (server.loaded files) prepared → delete_config_file →
      let user_config_path := server.resolveUserConfigPath config_path
      (server.webUsers files).users user_id = some config_path ∧
        server.Shown .target user_config_path (server.loaded files) ∧
        ¬Persisted server.config_path user_config_path

/-- The runner configuration is restored wherever that is needed. -/
def DeletionCompensated : Prop :=
  let loaded := server.loaded files
  ∀ config_path prepared, server.ComesToPersist user_id files config_path prepared →
    let user_config_path := server.resolveUserConfigPath config_path
    (server.PersistFailsFor loaded prepared → server.RestoresUsers [(user_id, none)] loaded) ∧
      (¬server.PersistFailsFor loaded prepared → delete_config_file → user_config_path ∈ loaded →
        ((server.host .userFile).fails (.removeFile user_config_path)).isSome →
          server.RestoresBackup loaded prepared)

end WebServer

/-- It comes to the registration with one path and one patch. -/
theorem WebServer.ComesToPersist.forall_iff {server : WebServer} {files : ConfigFiles}
    {user_id config_path : String} (h : server.ComesToPersist user_id files config_path prepared)
    (P : String → PreparedPatch → Prop) :
    (∀ config_path' prepared', server.ComesToPersist user_id files config_path' prepared' →
      P config_path' prepared') ↔ P config_path prepared := by
  refine ⟨fun hall => hall _ _ h, fun hP config_path' prepared' h' => ?_⟩
  obtain rfl := Option.some.inj (h.1.symm.trans h'.1)
  obtain rfl := Except.ok.inj (h.2.symm.trans h'.2)
  exact hP

/-- What `delete_user` copies back, whether or not the call fails. -/
theorem ignore_copy {host : FileHost} {files : ConfigFiles} {source target : FilePath} :
    ∃ files', ignore (host.copy source target) files = .ok () files' ∧
      SameOutside (target = ·) files files' ∧
      files'.lookup target = if (host.fails (.copy source target)).isSome then
          (host.leaves (.copy source target)).or (files.lookup target)
        else (files.lookup source).or (files.lookup target) := by
  cases hcall : host.fails (.copy source target) with
  | some error =>
    refine ⟨_, adaptExcept_eq_ok.mpr (FileHost.attempt_error (FileHost.copy_error hcall)),
      sameOutside_left rfl host _ files, ?_⟩
    rw [lookup_left, Option.isSome_some, if_pos rfl]
  | none =>
    rw [Option.isSome_none, if_neg Bool.false_ne_true]
    cases hbytes : files.lookup source with
    | none =>
      have hcopy : host.copy source target files = .error host.not_found files := by
        unfold FileHost.copy
        rw [bind_ok (FileHost.performOn_ok hcall)]
        exact bind_error (FileHost.bytesOf_missing hbytes)
      exact ⟨files, adaptExcept_eq_ok.mpr (FileHost.attempt_error hcopy), .refl _ _, rfl⟩
    | some bytes =>
      refine ⟨_, adaptExcept_eq_ok.mpr (FileHost.attempt_ok (FileHost.copy_ok hcall hbytes)),
        sameOutside_insert rfl bytes files, ?_⟩
      rw [lookup_insert]
      rfl

/-- A user is registered in a file that is there. -/
theorem mem_of_registered {server : WebServer} {files : ConfigFiles} {user_id config_path : String}
    (h : (server.webUsers files).users user_id = some config_path) :
    server.config_path ∈ files := by
  by_contra hnone
  have husers : (server.webUsers files).users = registeredUsers server.toml none :=
    congrArg (registeredUsers server.toml) (lookup_eq_none.mpr hnone)
  rw [husers] at h
  cases h

namespace UserOperation.Printed

variable {server : WebServer} {files : ConfigFiles} {user_id config_path : String}
  {delete_config_file : Bool} (h : (delete user_id delete_config_file).Printed server files)

/-- Without its file only the registration of the user is removed. -/
theorem apply_keep (before : WebUsers) : (delete user_id false).apply server before =
    ⟨changeUsers [(user_id, none)] before.users, before.files⟩ := by
  unfold UserOperation.apply UserOperation.changeFiles
  dsimp only
  cases before.users user_id <;> rfl

variable (hregistered : (server.webUsers files).users user_id = some config_path)

include hregistered

theorem changeUsers_ne : changeUsers [(user_id, none)] (server.webUsers files).users ≠
    (server.webUsers files).users := by
  intro heq
  have hnone := congrFun heq user_id
  rw [changeUsers, List.foldl_cons, List.foldl_nil, Function.update_self, hregistered] at hnone
  cases hnone

theorem apply_delete : (delete user_id true).apply server (server.webUsers files) =
    ⟨changeUsers [(user_id, none)] (server.webUsers files).users,
      Function.update (server.webUsers files).files (server.resolveUserConfigPath config_path)
        none⟩ := by
  unfold UserOperation.apply UserOperation.changeFiles
  dsimp only
  rw [hregistered]
  rfl

include h

/-- The registrations are as before exactly when the backup that is copied back has them. -/
theorem restoresBackup_iff {files₃ : ConfigFiles}
    (hchanged : registeredUsers server.toml (some prepared.rendered_toml.toUTF8) ≠
      (server.webUsers files).users)
    (hrestored : let backup_path :=
        backupPath (server.host .persist) server.now.persist.backup server.config_path
      let restore := FileCall.copy backup_path server.config_path
      files₃.lookup server.config_path =
        if ((server.host .undo).fails restore).isSome then
          ((server.host .undo).leaves restore).or (some prepared.rendered_toml.toUTF8)
        else (if IsStale server.config_path backupKeepCount (rewritten (server.host .persist)
              server.now.persist server.config_path prepared.rendered_toml (server.loaded files))
            backup_path then none
          else (server.loaded files).lookup server.config_path).or
            (some prepared.rendered_toml.toUTF8)) :
    (server.webUsers files₃).users = (server.webUsers files).users ↔
      server.RestoresBackup (server.loaded files) prepared := by
  have hloaded : registeredUsers server.toml ((server.loaded files).lookup server.config_path) =
      (server.webUsers files).users := congrArg WebUsers.users h.webUsers_loaded
  unfold WebServer.RestoresBackup
  dsimp only at hrestored ⊢
  show registeredUsers server.toml (files₃.lookup server.config_path) = _ ↔ _
  rw [hrestored]
  split_ifs with hfails hstale
  · rw [hloaded]
  · exact iff_of_false hchanged fun hkept => hkept hstale
  · have hmem : server.config_path ∈ server.loaded files := by
      have hstill : (server.webUsers (server.loaded files)).users user_id = some config_path := by
        rwa [h.webUsers_loaded]
      exact mem_of_registered hstill
    obtain ⟨before, hbefore⟩ := Option.isSome_iff_exists.mp (lookup_isSome.mpr hmem)
    rw [← hloaded, hbefore]
    exact iff_of_true rfl hstale

/-- What `delete_user` does with the file of the user, once the user is not registered. -/
theorem removeUserFile_atomic_iff {backup : Option FilePath} {files₂ : ConfigFiles}
    (hshown : server.Shown .target (server.resolveUserConfigPath config_path) (server.loaded files))
    (hplaced : ¬Persisted server.config_path (server.resolveUserConfigPath config_path))
    (hsame : SameOutside (Persisted server.config_path) (server.loaded files) files₂)
    (husers : (server.webUsers files₂).users =
      changeUsers [(user_id, none)] (server.webUsers files).users)
    (hbackup : let backup_path :=
        backupPath (server.host .persist) server.now.persist.backup server.config_path
      backup = some backup_path ∧
        files₂.lookup server.config_path = some prepared.rendered_toml.toUTF8 ∧
        files₂.lookup backup_path =
          if IsStale server.config_path backupKeepCount (rewritten (server.host .persist)
              server.now.persist server.config_path prepared.rendered_toml (server.loaded files))
            backup_path then none
          else (server.loaded files).lookup server.config_path) :
    let user_config_path := server.resolveUserConfigPath config_path
    wp (server.removeUserFile backup user_config_path)
      (fun _ files' => server.webUsers files' =
        (delete user_id true).apply server (server.webUsers files))
      (fun _ files' => server.webUsers files' = server.webUsers files) files₂ ↔
    (user_config_path ∈ server.loaded files →
      ((server.host .userFile).fails (.removeFile user_config_path)).isSome →
        server.RestoresBackup (server.loaded files) prepared) := by
  have hfiles : (server.webUsers files₂).files = (server.webUsers files).files := by
    rw [webUsers_files_eq hsame, h.webUsers_loaded]
  have hmem : server.resolveUserConfigPath config_path ∈ files₂ ↔
      server.resolveUserConfigPath config_path ∈ server.loaded files := by
    rw [← lookup_isSome, hsame _ hplaced, lookup_isSome]
  have hsees : server.Sees .target (server.resolveUserConfigPath config_path) files₂ ↔
      server.resolveUserConfigPath config_path ∈ files₂ :=
    and_iff_left_of_imp fun hpath => hshown (hmem.mp hpath)
  have hchanged := changeUsers_ne hregistered
  rw [apply_delete hregistered]
  dsimp only at hbackup ⊢
  set user_config_path := server.resolveUserConfigPath config_path
  set backup_path := backupPath (server.host .persist) server.now.persist.backup server.config_path
    with hbackup_path
  obtain ⟨rfl, hcontent, hlookup⟩ := hbackup
  unfold wp WebServer.removeUserFile
  rw [bind_ok pathExists_run]
  by_cases hpath : user_config_path ∈ files₂
  swap
  · rw [decide_eq_false (mt hsees.mp hpath), if_neg Bool.false_ne_true]
    refine iff_of_true (WebUsers.ext husers ?_) fun hloaded => absurd (hmem.mpr hloaded) hpath
    have hnone : (server.webUsers files).files user_config_path = none := by
      rw [← hfiles, webUsers_files_of_not_persisted hplaced, lookup_eq_none.mpr hpath]
    rw [hfiles, ← hnone, Function.update_eq_self]
  rw [decide_eq_true (hsees.mpr hpath), if_pos rfl]
  cases hcall : (server.host .userFile).fails (.removeFile user_config_path) with
  | none =>
    rw [bind_ok (compensated_ok
      (adaptExcept_eq_ok.mpr (FileHost.removeFile_ok hcall hpath)))]
    refine iff_of_true ?_ nofun
    show server.webUsers (files₂.erase user_config_path) = _
    rw [webUsers_update hplaced lookup_fileErased, husers, hfiles]
  | some error =>
    -- the user is registered again when the backup is copied back
    obtain ⟨files₃, hundo, hcopied, hrestored⟩ :=
      @ignore_copy (server.host .undo) files₂ backup_path server.config_path
    rw [bind_error (compensated_error
      (adaptExcept_error (FileHost.removeFile_error hcall)) hundo)]
    dsimp only
    have hfiles₃ : (server.webUsers files₃).files = (server.webUsers files).files := by
      rw [webUsers_files_eq (hcopied.mono fun file hfile => .inl hfile), hfiles]
    have husers₂ : registeredUsers server.toml (some prepared.rendered_toml.toUTF8) ≠
        (server.webUsers files).users := by
      rw [← hcontent]
      exact fun heq => hchanged (husers.symm.trans heq)
    rw [hcontent, hlookup] at hrestored
    rw [WebUsers.ext_iff, and_iff_left hfiles₃, h.restoresBackup_iff hregistered husers₂ hrestored]
    exact ⟨fun hrestores _ _ => hrestores, fun hall => hall (hmem.mp hpath) rfl⟩

omit hregistered in
/-- `delete_user` is all or nothing exactly when the backup can be copied back. -/
theorem delete_atomic_iff (hsound : server.DeletionSound user_id delete_config_file files) :
    (delete user_id delete_config_file).Atomic server files ↔
      server.DeletionCompensated user_id delete_config_file files := by
  have hloaded := h.webUsers_loaded
  unfold UserOperation.Atomic UserOperation.perform WebServer.DeletionCompensated
  simp only [wp_map]
  unfold WebServer.deleteUser
  cases hsnapshot : userConfigPath (server.snapshot files) user_id with
  | none =>
    have herror : ∃ error,
        WebServer.registrationOf (server.snapshot files) user_id = .error error := by
      rw [WebServer.registrationOf, hsnapshot]
      exact ⟨_, rfl⟩
    obtain ⟨error, herror⟩ := herror
    unfold wp
    rw [bind_ok latest_run, bind_error (ofExcept_error herror)]
    exact iff_of_true hloaded fun _ _ hcomes => by cases hsnapshot.symm.trans hcomes.1
  | some config_path =>
  have hregistration : WebServer.registrationOf (server.snapshot files) user_id =
      .ok config_path := by
    rw [WebServer.registrationOf, hsnapshot]
  have hprepare := @prepare_run server (server.loaded files) [(user_id, none)]
  cases hprepared : server.preparedPatch [(user_id, none)] (server.loaded files) with
  | error error =>
    rw [hprepared] at hprepare
    unfold wp
    rw [bind_ok latest_run, bind_ok (ofExcept_ok hregistration), bind_error hprepare]
    exact iff_of_true hloaded fun _ _ hcomes => by cases hprepared.symm.trans hcomes.2
  | ok prepared =>
  rw [hprepared] at hprepare
  have hcomes : server.ComesToPersist user_id files config_path prepared := ⟨hsnapshot, hprepared⟩
  refine Iff.trans ?_ (hcomes.forall_iff _).symm
  have hfile := hsound.patches config_path prepared hcomes
  -- the registration goes first, and the file only after it
  by_cases hfails : server.PersistFailsFor (server.loaded files) prepared
  · obtain ⟨error, files₂, hpersist, hsame, hrestores⟩ := h.persist_error hfile hprepared hfails
    unfold wp
    rw [bind_ok latest_run, bind_ok (ofExcept_ok hregistration), bind_ok hprepare,
      bind_error hpersist]
    dsimp only
    rw [hloaded] at hrestores
    rw [WebUsers.ext_iff, webUsers_files_eq hsame, hloaded, and_iff_left rfl, hrestores]
    exact ⟨fun hall => ⟨fun _ => hall, fun hnot => absurd hfails hnot⟩, fun hall => hall.1 hfails⟩
  · obtain ⟨backup, files₂, hpersist, hsame, husers₂, hbackup⟩ :=
      h.persist_ok hfile hprepared hfails
    rw [hloaded] at husers₂ hbackup
    unfold wp
    rw [bind_ok latest_run, bind_ok (ofExcept_ok hregistration), bind_ok hprepare,
      bind_ok hpersist]
    cases delete_config_file with
    | false =>
      refine iff_of_true ?_ ⟨fun hfails' => absurd hfails' hfails, fun _ h => by cases h⟩
      rw [apply_keep]
      refine WebUsers.ext husers₂ ?_
      rw [webUsers_files_eq hsame, hloaded]
    | true =>
      obtain ⟨hregistered, hshown, hplaced⟩ := hsound.removes config_path prepared hcomes hfails rfl
      have hmem : server.config_path ∈ server.loaded files :=
        mem_of_registered (by rwa [hloaded])
      have hremove := h.removeUserFile_atomic_iff hregistered hshown hplaced hsame husers₂
        (hbackup (changeUsers_ne hregistered) hmem)
      show wp (server.removeUserFile backup (server.resolveUserConfigPath config_path) >>=
        fun deleted_config_file => pure _) _ _ files₂ ↔ _
      simp only [wp_bind, wp_pure]
      exact hremove.trans ⟨fun hall => ⟨fun hfails' => absurd hfails' hfails, fun _ _ => hall⟩,
        fun hall => hall.2 hfails trivial⟩

end UserOperation.Printed

end Oxydra
