import Oxydra.Runner.WebUserFaults

/-!
# What web requests for users ask for

A request whose fields are accepted asks for an operation on the registered users and their files.
It is all or nothing if it has done what it asks for when it is answered with success, and has left
the users and the files when it is answered with an error.
-/

namespace Oxydra

open Toml Effect

variable {path : FilePath} {α : Type}

/-- What a request asks for, once its fields are checked. -/
inductive UserOperation where
  | create (user_id config_path : String)
  | rename (old_user_id new_user_id new_config_path : String)
  | delete (user_id : String) (delete_config_file : Bool)

/-- What a request asks for, or the error for its fields. -/
def WebUserRequest.operation : WebUserRequest → Except ErrorResponse UserOperation
  | .create payload => do
    let request ← payload
    let user_id ← (WebServer.validateUserId request.user_id).mapError invalidRequest
    if Text.trim request.config_path = "" then
      .error (invalidRequest "`config_path` must not be empty")
    else return .create user_id (Text.trim request.config_path)
  | .rename payload => do
    let request ← payload
    let old_user_id ← (WebServer.validateUserId request.old_user_id).mapError invalidRequest
    let new_user_id ← (WebServer.validateUserId request.new_user_id).mapError invalidRequest
    if Text.trim request.new_config_path = "" then
      .error (invalidRequest "`new_config_path` must not be empty")
    else return .rename old_user_id new_user_id (Text.trim request.new_config_path)
  | .delete user_id delete_config_file => return .delete user_id delete_config_file

namespace UserOperation

/-- The changes of the registered users. -/
def changes : UserOperation → List (String × Option String)
  | .create user_id config_path => [(user_id, some config_path)]
  | .rename old_user_id new_user_id new_config_path =>
    WebServer.renameChanges old_user_id new_user_id new_config_path
  | .delete user_id _ => [(user_id, none)]

/-- A file is moved, if there is one. -/
def moveFile (source target : FilePath) (files : FilePath → Option ByteArray) :
    FilePath → Option ByteArray :=
  match files source with
  | some bytes =>
    if source = target then files
    else Function.update (Function.update files source none) target (some bytes)
  | none => files

/-- The files once an operation is done. -/
def changeFiles (server : WebServer) (before : WebUsers) :
    UserOperation → FilePath → Option ByteArray
  | .create _ config_path =>
    match defaultUserToml server.toml with
    | .ok user_toml => Function.update before.files (server.resolveUserConfigPath config_path)
      (some user_toml.toUTF8)
    | .error _ => before.files
  | .rename old_user_id _ new_config_path =>
    match before.users old_user_id with
    | some config_path => moveFile (server.resolveUserConfigPath config_path)
      (server.resolveUserConfigPath new_config_path) before.files
    | none => before.files
  | .delete user_id delete_config_file =>
    match before.users user_id with
    | some config_path =>
      if delete_config_file then
        Function.update before.files (server.resolveUserConfigPath config_path) none
      else before.files
    | none => before.files

/-- The users once an operation is done. -/
def apply (server : WebServer) (operation : UserOperation) (before : WebUsers) : WebUsers where
  users := changeUsers operation.changes before.users
  files := operation.changeFiles server before

/-- What is done once the fields are checked. -/
def perform (server : WebServer) : UserOperation → WebM WebUserResponse
  | .create user_id config_path => .created <$> server.createUserAt user_id config_path
  | .rename old_user_id new_user_id new_config_path =>
    .renamed <$> server.renameUserTo old_user_id new_user_id new_config_path
  | .delete user_id delete_config_file =>
    .deleted <$> server.deleteUser user_id delete_config_file

/-- The users are as the operation says after a success, and as before after an error. -/
def Atomic (server : WebServer) (operation : UserOperation) (files : ConfigFiles) : Prop :=
  wp (operation.perform server)
    (fun _ files' => server.webUsers files' = operation.apply server (server.webUsers files))
    (fun _ files' => server.webUsers files' = server.webUsers files) files

end UserOperation

/-- A request that is answered with an error leaves the users and their files, and one that is
answered with success has done what it asks for. -/
def WebUserRequest.Atomic (server : WebServer) (request : WebUserRequest) (files : ConfigFiles) :
    Prop :=
  match request.handle server files with
  | .ok _ files' => ∃ operation, request.operation = .ok operation ∧
      server.webUsers files' = operation.apply server (server.webUsers files)
  | .error _ files' => server.webUsers files' = server.webUsers files

section Steps

variable {server : WebServer} {files : ConfigFiles}

theorem refuseIf_ok {c : Prop} [Decidable c] (h : ¬c) (error : ErrorResponse) :
    refuseIf c error files = .ok () files := by
  unfold refuseIf
  rw [if_neg h]
  rfl

theorem refuseIf_error {c : Prop} [Decidable c] (h : c) (error : ErrorResponse) :
    refuseIf c error files = .error error files := by
  unfold refuseIf
  rw [if_pos h]
  rfl

theorem ofExcept_ok {x : Except ErrorResponse α} {a : α} (h : x = .ok a) :
    (Effect.ofExcept x : WebM α) files = .ok a files := ofExcept_eq_ok.mpr ⟨h, rfl⟩

theorem ofExcept_error {x : Except ErrorResponse α} {error : ErrorResponse} (h : x = .error error) :
    (Effect.ofExcept x : WebM α) files = .error error files := by
  rw [h]
  rfl

/-- The directory of a user's file can be created. -/
theorem createUserDirectory_ok (hname : path.file_name ≠ "")
    (hcall : ¬((server.host .directory).fails (.createDirAll path.parent)).isSome) :
    server.createUserDirectory path files = .ok () files := by
  unfold WebServer.createUserDirectory
  rw [bind_ok (refuseIf_ok hname _)]
  exact adaptExcept_eq_ok.mpr
    (FileHost.perform_ok (Option.not_isSome_iff_eq_none.mp hcall))

/-- It cannot. -/
theorem createUserDirectory_error
    (h : path.file_name = "" ∨
      ((server.host .directory).fails (.createDirAll path.parent)).isSome) :
    ∃ error, server.createUserDirectory path files = .error error files := by
  unfold WebServer.createUserDirectory
  by_cases hname : path.file_name = ""
  · exact ⟨_, bind_error (refuseIf_error hname _)⟩
  · obtain ⟨error, hcall⟩ := Option.isSome_iff_exists.mp (h.resolve_left hname)
    rw [bind_ok (refuseIf_ok hname _)]
    exact ⟨_, adaptExcept_error (FileHost.perform_error hcall)⟩

theorem compensated_ok {x : WebM α} {undo : WebM Unit} {a : α} {files' : ConfigFiles}
    (h : x files = .ok a files') : compensated x undo files = .ok a files' := tryCatch_ok h

theorem compensated_error {x : WebM α} {undo : WebM Unit} {error : ErrorResponse}
    {files' files'' : ConfigFiles} (h : x files = .error error files')
    (hundo : undo files' = .ok () files'') : compensated x undo files = .error error files'' := by
  unfold compensated
  rw [tryCatch_error h, bind_ok hundo]
  rfl

/-- A file is removed, if the call does not fail. -/
theorem ignore_removeFile {host : FileHost} (hpath : path ∈ files) :
    ignore (host.removeFile path) files =
      .ok () (if (host.fails (.removeFile path)).isSome then files else files.erase path) := by
  refine adaptExcept_eq_ok.mpr ?_
  cases hcall : host.fails (.removeFile path) with
  | some error => exact FileHost.attempt_error (FileHost.removeFile_error hcall)
  | none => exact FileHost.attempt_ok (FileHost.removeFile_ok hcall hpath)

theorem createUser_eq (payload : Except ErrorResponse CreateUserRequest) :
    (WebUserResponse.created <$> server.createUser payload) files =
      match (WebUserRequest.create payload).operation with
      | .ok operation => operation.perform server files
      | .error error => .error error files := by
  rw [WebServer.createUser, WebUserRequest.operation, map_eq_pure_bind, bind_assoc]
  cases payload with
  | error error => exact bind_error (ofExcept_error rfl)
  | ok request =>
    rw [bind_ok (ofExcept_ok rfl), except_ok_bind, bind_assoc]
    cases (WebServer.validateUserId request.user_id).mapError invalidRequest with
    | error error => exact bind_error (ofExcept_error rfl)
    | ok user_id =>
      rw [bind_ok (ofExcept_ok rfl), except_ok_bind, bind_assoc]
      by_cases hpath : Text.trim request.config_path = ""
      · rw [bind_error (refuseIf_error hpath _), if_pos hpath]
      · rw [bind_ok (refuseIf_ok hpath _), if_neg hpath, ← map_eq_pure_bind]
        rfl

theorem renameUser_eq (payload : Except ErrorResponse RenameUserRequest) :
    (WebUserResponse.renamed <$> server.renameUser payload) files =
      match (WebUserRequest.rename payload).operation with
      | .ok operation => operation.perform server files
      | .error error => .error error files := by
  rw [WebServer.renameUser, WebUserRequest.operation, map_eq_pure_bind, bind_assoc]
  cases payload with
  | error error => exact bind_error (ofExcept_error rfl)
  | ok request =>
    rw [bind_ok (ofExcept_ok rfl), except_ok_bind, bind_assoc]
    cases (WebServer.validateUserId request.old_user_id).mapError invalidRequest with
    | error error => exact bind_error (ofExcept_error rfl)
    | ok old_user_id =>
      rw [bind_ok (ofExcept_ok rfl), except_ok_bind, bind_assoc]
      cases (WebServer.validateUserId request.new_user_id).mapError invalidRequest with
      | error error => exact bind_error (ofExcept_error rfl)
      | ok new_user_id =>
        rw [bind_ok (ofExcept_ok rfl), except_ok_bind, bind_assoc]
        by_cases hpath : Text.trim request.new_config_path = ""
        · rw [bind_error (refuseIf_error hpath _), if_pos hpath]
        · rw [bind_ok (refuseIf_ok hpath _), if_neg hpath, ← map_eq_pure_bind]
          rfl

/-- The fields are checked before anything is done. -/
theorem WebUserRequest.handle_eq (request : WebUserRequest) :
    request.handle server files = match request.operation with
      | .ok operation => operation.perform server files
      | .error error => .error error files := by
  cases request with
  | create payload => exact createUser_eq payload
  | rename payload => exact renameUser_eq payload
  | delete user_id delete_config_file => rfl

/-- A request whose fields are refused changes nothing. -/
theorem WebUserRequest.atomic_iff_operation (request : WebUserRequest) :
    request.Atomic server files ↔
      ∀ operation, request.operation = .ok operation → operation.Atomic server files := by
  unfold WebUserRequest.Atomic UserOperation.Atomic wp
  rw [request.handle_eq]
  cases request.operation with
  | error error => exact iff_of_true rfl nofun
  | ok operation =>
    simp only [Except.ok.injEq, exists_eq_left', forall_eq']
    cases operation.perform server files <;> exact Iff.rfl

end Steps

end Oxydra
