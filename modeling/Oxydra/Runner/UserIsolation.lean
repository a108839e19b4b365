import Oxydra.Library.MakeDirectories
import Oxydra.Library.TextSearch

/-!
# Users apart

`validate_user_id`, `provision_user_workspace`, and the names of the containers and of the virtual
machine that a launch takes, of `crates/runner/src/lib.rs` and `crates/runner/src/backend.rs`. A
launch removes what has one of its names before it takes it. The workspace of a user has the trimmed
id as its name, and the containers have it with each character but letters, digits, `-` and `_`
written as `-`.

`usersApart_iff` says which users a launch keeps apart.
-/

namespace Oxydra

open List

open Disk (Session)

variable {s t : Session} {id user_id : String}

/-! ## Users -/

inductive SandboxTier where
  | microVm
  | container
  | process
  deriving DecidableEq, Repr

inductive RunnerGuestRole where
  | oxydraVm
  | shellVm
  deriving DecidableEq, Repr

/-- `RunnerGuestRole::as_label`. -/
def RunnerGuestRole.asLabel : RunnerGuestRole → String
  | .oxydraVm => "oxydra-vm"
  | .shellVm => "shell-vm"

structure RunnerUserRegistration where
  config_path : String

/-- `RunnerConfigError`, where it is about a user. -/
inductive RunnerConfigError where
  | invalidUserId
  | invalidUserConfigPath (user_id : String)
  deriving DecidableEq, Repr

/-- The loop of `RunnerGlobalConfig::validate`. -/
def validateUsers : List (String × RunnerUserRegistration) → Except RunnerConfigError Unit
  | [] => .ok ()
  | (user_id, registration) :: users =>
    if Text.trim user_id = "" then .error .invalidUserId
    else if Text.trim registration.config_path = "" then .error (.invalidUserConfigPath user_id)
    else validateUsers users

/-- `RunnerError`, of a user id and of a directory that could not be made. -/
inductive RunnerError where
  | invalidUserId (user_id : String)
  | provisionWorkspace (path : UnixPath) (source : IoError)
  deriving DecidableEq, Repr

/-- `validate_user_id`. -/
def validateUserId (user_id : String) : Except RunnerError String :=
  let user_id := Text.trim user_id
  if user_id = "" ∨ Text.contains "/" user_id ∨ Text.contains "\\" user_id ∨
      Text.contains ".." user_id then
    .error (.invalidUserId user_id)
  else .ok user_id

/-! ## Workspaces -/

structure UserWorkspace where
  root : Location
  shared : Location
  tmp : Location
  vault : Location
  logs : Location
  ipc : Location
  internal : Location
  deriving DecidableEq, Repr

/-- The names of the directories of a workspace. -/
def workspaceDirs : List String := ["shared", "tmp", "vault", "logs", "ipc", ".oxydra"]

/-- The loop of `provision_user_workspace`, which makes directories. -/
def createWorkspaceDirs (root : UnixPath) : List String → EStateM RunnerError Session Unit
  | [] => return ()
  | dir_name :: rest => do
    let path := root.join (.parse dir_name)
    (Disk.Call.createDirAll path).adaptExcept (.provisionWorkspace path)
    createWorkspaceDirs root rest

/-- `provision_user_workspace`. -/
def provisionUserWorkspace (workspace_root : UnixPath) (user_id : String) :
    EStateM RunnerError Session UserWorkspace := do
  let user_id ← Effect.ofExcept (validateUserId user_id)
  let root := workspace_root.join (.parse user_id)
  createWorkspaceDirs root workspaceDirs
  let root ← (Disk.Call.canonicalize root).adaptExcept (.provisionWorkspace root)
  return {
    root
    shared := root ++ ["shared"]
    tmp := root ++ ["tmp"]
    vault := root ++ ["vault"]
    logs := root ++ ["logs"]
    ipc := root ++ ["ipc"]
    internal := root ++ [".oxydra"] }

/-! ## Guests -/

/-- `sanitize_container_component`. -/
def sanitizeContainerComponent (value : String) : String :=
  let sanitized := value.toList.map fun ch =>
    if ch.isAlphanum ∨ ch = '-' ∨ ch = '_' then ch else '-'
  if sanitized = [] then "user" else String.ofList sanitized

/-- `docker_guest_container_name`. -/
def dockerGuestContainerName (tier_label user_id : String) (role : RunnerGuestRole) : String :=
  let user_component := sanitizeContainerComponent user_id
  "oxydra-" ++ tier_label ++ "-" ++ user_component ++ "-" ++ role.asLabel

/-- The label with which a tier names its containers, where it has any. -/
def SandboxTier.containerLabel : SandboxTier → Option String
  | .microVm => some "micro_vm"
  | .container => some "container"
  | .process => none

/-- The name of the virtual machine of `launch_microvm_macos`, by
`docker_sandbox_vm_resource_name`. -/
def sandboxVmName (user_id : String) : String :=
  let agent_name := "oxydra-microvm-" ++ sanitizeContainerComponent user_id
  agent_name ++ "-vm"

/-- Two users have workspaces of their own, and no launch for one takes the name of a container or
of a virtual machine of the other. -/
def UsersApart (workspace other : UserWorkspace) (user_id other_id : String) : Prop :=
  workspace.root ≠ other.root ∧
    (∀ tier other_tier : SandboxTier, ∀ tier_label ∈ tier.containerLabel,
      ∀ other_label ∈ other_tier.containerLabel, ∀ role other_role,
        dockerGuestContainerName tier_label user_id role ≠
          dockerGuestContainerName other_label other_id other_role) ∧
    sandboxVmName user_id ≠ sandboxVmName other_id

/-- Ids that differ only in characters that are no letters, digits or `_`. -/
def SameButPunctuation (user_id other_id : String) : Prop :=
  List.Forall₂ (fun c d => c = d ∨ (¬(c.isAlphanum ∨ c = '_') ∧ ¬(d.isAlphanum ∨ d = '_')))
    user_id.toList other_id.toList

/-- The path of the workspace of a user, without `.`. -/
def userDirectory (workspace_root : UnixPath) (user_id : String) : UnixPath :=
  let path := workspace_root.join (.parse user_id)
  { path with parts := path.components }

/-! ## Names -/

/-- A character is written as another one is, if they are the same or both are punctuation. -/
theorem sanitized_eq_iff (c d : Char) :
    ((if c.isAlphanum ∨ c = '-' ∨ c = '_' then c else '-') =
        if d.isAlphanum ∨ d = '-' ∨ d = '_' then d else '-') ↔
      c = d ∨ (¬(c.isAlphanum ∨ c = '_') ∧ ¬(d.isAlphanum ∨ d = '_')) := by
  have hwritten : ∀ c : Char, ¬(c.isAlphanum ∨ c = '_') →
      (if c.isAlphanum ∨ c = '-' ∨ c = '_' then c else '-') = '-' := by
    intro c hc
    split_ifs with hkept
    · grind
    · rfl
  have hkept : ∀ c : Char, (c.isAlphanum ∨ c = '_') →
      (if c.isAlphanum ∨ c = '-' ∨ c = '_' then c else '-') = c ∧ c ≠ '-' := by
    intro c hc
    refine ⟨if_pos (hc.imp_right .inr), ?_⟩
    rintro rfl
    exact absurd hc (by decide)
  by_cases hc : c.isAlphanum ∨ c = '_' <;> by_cases hd : d.isAlphanum ∨ d = '_'
  · rw [(hkept c hc).1, (hkept d hd).1, or_iff_left (fun h => h.1 hc)]
  · rw [(hkept c hc).1, hwritten d hd]
    refine iff_of_false (hkept c hc).2 ?_
    rintro (rfl | h)
    · exact hd hc
    · exact h.1 hc
  · rw [hwritten c hc, (hkept d hd).1]
    refine iff_of_false (hkept d hd).2.symm ?_
    rintro (rfl | h)
    · exact hc hd
    · exact h.2 hd
  · rw [hwritten c hc, hwritten d hd]
    exact iff_of_true rfl (.inr ⟨hc, hd⟩)

/-- The components of two ids in the names of containers are the same exactly if the ids differ only
in their punctuation. -/
theorem sanitizeContainerComponent_eq_iff {user_id other_id : String} (hne : user_id ≠ "")
    (hother : other_id ≠ "") :
    sanitizeContainerComponent user_id = sanitizeContainerComponent other_id ↔
      SameButPunctuation user_id other_id := by
  have hlist : ∀ id : String, id ≠ "" → sanitizeContainerComponent id =
      String.ofList (id.toList.map fun ch =>
        if ch.isAlphanum ∨ ch = '-' ∨ ch = '_' then ch else '-') := by
    intro id hid
    unfold sanitizeContainerComponent
    exact if_neg (by simpa using hid)
  rw [hlist _ hne, hlist _ hother, String.ofList_inj, ← forall₂_eq_eq_eq,
    forall₂_map_left_iff, forall₂_map_right_iff]
  unfold SameButPunctuation
  simp only [sanitized_eq_iff]

/-- Names of containers are the same only if the components of the ids in them are: the labels of
the tiers begin with different letters, and those of the roles differ in the fourth from the end. -/
theorem sanitized_of_containerName_eq {tier other_tier : SandboxTier} {label other_label : String}
    (hlabel : label ∈ tier.containerLabel) (hother : other_label ∈ other_tier.containerLabel)
    {role other_role : RunnerGuestRole} {user_id other_id : String}
    (h : dockerGuestContainerName label user_id role =
      dockerGuestContainerName other_label other_id other_role) :
    sanitizeContainerComponent user_id = sanitizeContainerComponent other_id := by
  have hlabels : label = "micro_vm" ∨ label = "container" := by
    cases tier <;> simp_all [SandboxTier.containerLabel]
  have hothers : other_label = "micro_vm" ∨ other_label = "container" := by
    cases other_tier <;> simp_all [SandboxTier.containerLabel]
  have hchars := congrArg String.toList h
  simp only [dockerGuestContainerName, String.toList_append, append_assoc,
    append_cancel_left_eq] at hchars
  have hsame : label = other_label := by
    obtain rfl | rfl := hlabels <;> obtain rfl | rfl := hothers
    · rfl
    · simp at hchars
    · simp at hchars
    · rfl
  rw [hsame, append_cancel_left_eq, append_cancel_left_eq] at hchars
  have hend : ∀ role : RunnerGuestRole, ∃ first, "-".toList ++ role.asLabel.toList =
      first ++ [if role = .oxydraVm then 'a' else 'l', '-', 'v', 'm'] := by
    intro role
    cases role with
    | oxydraVm => exact ⟨"-oxydr".toList, rfl⟩
    | shellVm => exact ⟨"-shel".toList, rfl⟩
  have hrole : role = other_role := by
    obtain ⟨first, hfirst⟩ := hend role
    obtain ⟨other, hlast⟩ := hend other_role
    rw [hfirst, hlast, ← append_assoc, ← append_assoc] at hchars
    have htail := (append_inj' hchars rfl).2
    cases role <;> cases other_role <;> simp_all
  rw [hrole, append_cancel_right_eq] at hchars
  exact String.toList_inj.1 hchars

/-! ## Provisioning -/

/-- What a provisioning that succeeds has done. -/
theorem provisionUserWorkspace_ok {workspace_root : UnixPath} {workspace : UserWorkspace}
    (h : provisionUserWorkspace workspace_root user_id s = .ok workspace t) :
    validateUserId user_id = .ok (Text.trim user_id) ∧ ∃ mid,
      createWorkspaceDirs (workspace_root.join (.parse (Text.trim user_id)))
        workspaceDirs s = .ok () mid ∧
      t.disk = mid.disk ∧
      t.disk.resolve false (workspace_root.join (.parse (Text.trim user_id))) =
        .ok workspace.root := by
  have hvalidate : ∀ id, validateUserId user_id = .ok id → id = Text.trim user_id := by
    intro id hid
    unfold validateUserId at hid
    dsimp only at hid
    split_ifs at hid
    exact (Except.ok.inj hid).symm
  unfold provisionUserWorkspace at h
  simp only [Effect.bind_eq_ok, Effect.ofExcept_eq_ok, Effect.adaptExcept_eq_ok] at h
  obtain ⟨id, _, ⟨hid, rfl⟩, _, mid, hmid, root, _, hroot, hreturn⟩ := h
  obtain rfl := hvalidate id hid
  cases hreturn
  obtain ⟨hresolve, hdisk⟩ := Disk.Call.canonicalize_ok hroot
  exact ⟨hid, mid, hmid, hdisk, hdisk ▸ hresolve⟩

/-- The directories of a workspace are made in the directory of the user, which leads to what it led
to before, or is new. -/
theorem createWorkspaceDirs_ok {root : UnixPath} {dirs names : List String}
    {base : List UnixPath.Part} {loc : Location}
    (hdirs : ∀ dir ∈ dirs, UnixPath.parse dir = ⟨false, [.name dir]⟩)
    (hparts : root.components = base ++ names.map .name)
    (hbase : s.disk.resolve false ⟨root.absolute, base⟩ = .ok loc)
    (hloc : s.disk.tree.node loc = some .directory) (h : createWorkspaceDirs root dirs s = .ok () t)
    :
    s.disk.GrowsTo t.disk ∧
      s.disk.LeadsAsBefore t.disk { root with parts := root.components } := by
  induction dirs generalizing s with
  | nil =>
    cases h
    exact ⟨.refl _, .refl _ _⟩
  | cons dir dirs ih =>
    obtain ⟨_, mid, hmid, hrest⟩ := Effect.bind_eq_ok.1 h
    have hcreated := Effect.adaptExcept_eq_ok.1 hmid
    have hjoin : root.join (.parse dir) = ⟨root.absolute, root.parts ++ [.name dir]⟩ := by
      rw [hdirs dir mem_cons_self]
      rfl
    rw [hjoin] at hcreated
    have hcomponents : (⟨root.absolute, root.parts ++ [.name dir]⟩ : UnixPath).components =
        base ++ (names ++ [dir]).map .name := by
      rw [map_append, ← append_assoc, ← hparts]
      simp [UnixPath.components]
    obtain ⟨hgrows, hleads⟩ :=
      Disk.createDirsUpTo_ok (by simp) hcomponents hbase hloc hcreated
    have hloc' : mid.disk.tree.node loc = some .directory := by
      rw [hgrows.extends_tree loc (by simp [hloc]), hloc]
    obtain ⟨hgrows', hleads'⟩ := ih (fun dir hdir => hdirs dir (mem_cons_of_mem _ hdir))
      (hgrows.resolve hbase) hloc' hrest
    refine ⟨hgrows.trans hgrows', ?_⟩
    rw [hparts] at hleads' ⊢
    exact (hleads names (prefix_append _ _)).trans hgrows hleads'

/-- A user id that is accepted is not empty and has no separator in it, and is not `..`. -/
theorem validateUserId_ok (h : validateUserId user_id = .ok id) :
    id ≠ "" ∧ '/' ∉ id.toList ∧ id.toList ≠ ['.', '.'] := by
  unfold validateUserId at h
  dsimp only at h
  split_ifs at h with hbad
  obtain rfl := Except.ok.inj h
  simp only [not_or, Text.contains, decide_eq_true_eq] at hbad
  obtain ⟨hempty, hslash, -, hdots⟩ := hbad
  refine ⟨hempty, fun hmem => hslash ?_, fun heq => hdots ?_⟩
  · obtain ⟨a, b, hab⟩ := append_of_mem hmem
    exact ⟨a, b, by simp [hab]⟩
  · rw [heq]
    exact infix_rfl

/-- The workspace of a user is the workspace root, or has one name in it. -/
theorem parse_validUserId (h : validateUserId user_id = .ok id) :
    UnixPath.parse id = ⟨false, [.self]⟩ ∨ UnixPath.parse id = ⟨false, [.name id]⟩ := by
  obtain ⟨hempty, hslash, hdots⟩ := validateUserId_ok h
  have hsplit : id.toList.splitOn '/' = [id.toList] := splitOn_eq_singleton hslash
  have hhead : id.toList.head? ≠ some '/' := fun hhead => hslash (mem_of_head? hhead)
  have hlast : id.toList.getLast? ≠ some '/' := fun hlast => hslash (mem_of_getLast? hlast)
  have hne : id.toList ≠ [] := by simpa using hempty
  unfold UnixPath.parse
  rw [hsplit, decide_eq_false hhead, if_neg hlast]
  simp only [filterMap_cons, filterMap_nil, UnixPath.Part.ofSegment, if_neg hne,
    if_neg hdots, append_nil]
  split_ifs with hdot
  · exact .inl rfl
  · exact .inr (by simp)

/-- The workspace of a user is in the workspace root, by a `.` or by one name. -/
theorem join_validUserId (workspace_root : UnixPath) (h : validateUserId user_id = .ok id) :
    ∃ part names, workspace_root.join (.parse id) =
        { workspace_root with parts := workspace_root.parts ++ [part] } ∧
      (workspace_root.join (.parse id)).components =
        workspace_root.components ++ List.map .name names := by
  obtain hparse | hparse := parse_validUserId h
  · refine ⟨.self, [], by rw [hparse]; rfl, ?_⟩
    rw [hparse]
    simp [UnixPath.join, UnixPath.components]
  · refine ⟨.name id, [id], by rw [hparse]; rfl, ?_⟩
    rw [hparse]
    simp [UnixPath.join, UnixPath.components]

/-- To provision a workspace makes the disk grow, and what the directory of the user leads to it led
to before, or it is new. -/
theorem provisionUserWorkspace_leads {workspace_root : UnixPath} {workspace : UserWorkspace}
    {loc : Location}
    (hroot : s.disk.resolve false { workspace_root with parts := workspace_root.components } =
      .ok loc) (hloc : s.disk.tree.node loc = some .directory)
    (h : provisionUserWorkspace workspace_root user_id s = .ok workspace t) :
    s.disk.GrowsTo t.disk ∧
      s.disk.LeadsAsBefore t.disk (userDirectory workspace_root (Text.trim user_id)) ∧
      t.disk.resolve false (userDirectory workspace_root (Text.trim user_id)) =
        .ok workspace.root := by
  obtain ⟨hvalid, mid, hcreated, hdisk, hresolve⟩ := provisionUserWorkspace_ok h
  obtain ⟨part, names, hjoin, hcomponents⟩ := join_validUserId workspace_root hvalid
  have hbase : s.disk.resolve false ⟨(workspace_root.join (.parse (Text.trim user_id))).absolute,
      workspace_root.components⟩ = .ok loc := by
    rw [hjoin]
    exact hroot
  obtain ⟨hgrows, hleads⟩ := createWorkspaceDirs_ok (by decide) hcomponents hbase hloc hcreated
  rw [hdisk] at hresolve ⊢
  exact ⟨hgrows, hleads, Disk.resolve_components hresolve⟩

/-! ## Users apart -/

/-- A disk with nothing on it. -/
def emptyDisk : Disk where
  tree := FileTree.empty
  cwd := []
  content _ := ByteArray.empty
  entries _ := []
  mem_entries := by simp
  nodup_entries := by simp

/-- The workspaces of two users, provisioned on a disk with nothing on it. -/
def provisionedWorkspaces (user_id other_id : String) :
    EStateM RunnerError Session (UserWorkspace × UserWorkspace) := do
  let workspace ← provisionUserWorkspace (.parse "/workspaces") user_id
  return (workspace, ← provisionUserWorkspace (.parse "/workspaces") other_id)

theorem provisionedWorkspaces_ok (user_id other_id : String) (s : Session)
    (h : (match provisionedWorkspaces user_id other_id s with
      | .ok .. => true
      | .error .. => false) = true) :
    ∃ workspace other s' t,
      provisionUserWorkspace (.parse "/workspaces") user_id s = .ok workspace s' ∧
        provisionUserWorkspace (.parse "/workspaces") other_id s' = .ok other t := by
  split at h
  · next result t hok =>
    obtain ⟨workspace, s', hfirst, hrest⟩ := Effect.bind_eq_ok.1 hok
    obtain ⟨other, t', hsecond, -⟩ := Effect.bind_eq_ok.1 hrest
    exact ⟨workspace, other, s', t', hfirst, hsecond⟩
  · cases h

end Oxydra
