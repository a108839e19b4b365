import Oxydra.Library.FileTree
import Oxydra.Tools.Registry

/-!
# Which files a tool may touch

The part of `WorkspaceSecurityPolicy` (`crates/tools/src/sandbox/policy.rs`) that paths are held to:
the roots that may be read, those that may be written and those that are denied, and
`enforce_file_path`, which resolves a path and looks for a root above it.

A path that exists is resolved with all its links. One that does not, which is allowed for a write,
is resolved up to its parent, and the last name is put behind it. A link whose target is missing
does not exist by this test, so its own place is compared with the roots, while a write goes
through it. And the path that is resolved is the text without the whitespace around it, while the
tools open the text as it is. `confined_iff` says that nothing else goes wrong.
-/

namespace Oxydra

open List

open UnixPath (Part)
open FileTree (Stop)

/-! ## Paths -/

/-- A `PathBuf`: its text, which messages show, and the path that the text is. -/
structure PathBuf where
  text : String
  path : UnixPath
  deriving DecidableEq, Repr

namespace PathBuf

/-- The path of a text. -/
def ofText (text : String) : PathBuf := ⟨text, UnixPath.parse text⟩

/-- The path of a location. -/
def ofLocation (location : Location) : PathBuf where
  text := "/" ++ "/".intercalate location
  path := ⟨true, location.map .name⟩

/-- `Path::join`, with a path that is not absolute. -/
def join (base path : PathBuf) : PathBuf where
  text := if base.text.toList.getLast? = some '/' then base.text ++ path.text
    else base.text ++ "/" ++ path.text
  path := { base.path with parts := base.path.parts ++ path.path.parts }

/-- The text of `Path::parent`: what stands before the last part and the separators and dots around
it. -/
def parentText (text : String) : String :=
  let blank := fun segment : List Char => segment = [] || segment = ['.']
  let segments := (text.toList.splitOn '/').reverse
  let above := ((segments.dropWhile blank).tail.dropWhile blank).reverse
  if above = [] then "/" else String.ofList (List.intercalate ['/'] above)

/-- `Path::parent`, of an absolute path. -/
def parent (path : PathBuf) : Option PathBuf :=
  path.path.parent.map fun parent => ⟨parentText path.text, parent⟩

/-- `PathBuf`s are equal when their components are. -/
def sameAs (path other : PathBuf) : Bool :=
  path.path.absolute = other.path.absolute && path.path.components = other.path.components

/-- `Path::starts_with`. -/
def startsWith (path root : PathBuf) : Bool :=
  path.path.absolute = root.path.absolute && root.path.components.isPrefixOf path.path.components

end PathBuf

/-! ## Files -/

/-- The files as a process finds them: the tree, and the directory that the process is in. -/
structure Files where
  tree : FileTree
  cwd : Location
  cwd_directory : tree.node cwd = some .directory

/-- The message of an `io::Error`. -/
def stopMessage : Stop → String
  | .notFound => "No such file or directory (os error 2)"
  | .notDirectory => "Not a directory (os error 20)"
  | .tooManyLinks => "Too many levels of symbolic links (os error 40)"

namespace Files

variable (files : Files)

/-- How many symbolic links the system follows for one path. -/
def maxLinks : ℕ := 40

/-- `normalize_absolute`. -/
def normalizeAbsolute (path : PathBuf) : PathBuf :=
  if path.path.absolute then path else (PathBuf.ofLocation files.cwd).join path

/-- `fs::canonicalize`, of an absolute path. -/
def canonicalize (path : PathBuf) : Except Stop Location :=
  files.tree.walk false maxLinks [] path.path.parts

/-- `Path::exists`, of an absolute path: links are followed. -/
def pathExists (path : PathBuf) : Bool := (files.canonicalize path).isOk

end Files

inductive FileAccessMode where
  | readOnly
  | readWrite
  deriving DecidableEq, Repr

/-- The location that opening a text comes to, with links followed; a file that is opened for
writing is created. -/
def Files.openFile (files : Files) (path : String) (access_mode : FileAccessMode) :
    Except Stop Location :=
  let path := UnixPath.parse path
  files.tree.walk (access_mode = .readWrite) maxLinks (if path.absolute then [] else files.cwd)
    path.parts

/-! ## The policy -/

/-- `canonicalize_target_path`. -/
def canonicalizeTargetPath (files : Files) (raw_path : String) (allow_missing_leaf : Bool) :
    Except SecurityPolicyViolation Location :=
  let path := Text.trim raw_path
  if path = "" then
    .error ⟨.invalidArguments, "path argument must not be empty"⟩
  else
    let target_path := files.normalizeAbsolute (.ofText path)
    if !allow_missing_leaf || files.pathExists target_path then
      match files.canonicalize target_path with
      | .ok location => .ok location
      | .error stop =>
        .error ⟨.pathResolutionFailed,
          s!"failed to canonicalize `{target_path.text}`: {stopMessage stop}"⟩
    else
      match target_path.parent with
      | none =>
        .error ⟨.pathResolutionFailed,
          s!"path `{target_path.text}` does not include a canonicalizable parent directory"⟩
      | some parent =>
        match files.canonicalize parent with
        | .error stop =>
          .error ⟨.pathResolutionFailed,
            s!"failed to canonicalize parent `{parent.text}` for `{target_path.text}`: " ++
              stopMessage stop⟩
        | .ok canonical_parent =>
          match target_path.path.fileName with
          | none =>
            .error ⟨.pathResolutionFailed,
              s!"path `{target_path.text}` must include a terminal file name for write/edit " ++
                "operations"⟩
          | some leaf => .ok (canonical_parent ++ [leaf])

/-- `canonicalize_roots`: a root that cannot be resolved stays as it is written. -/
def canonicalizeRoots (files : Files) (roots : List PathBuf) : List PathBuf :=
  roots.foldl (fun canonical_roots root =>
    let normalized := files.normalizeAbsolute root
    let canonical := match files.canonicalize normalized with
      | .ok location => .ofLocation location
      | .error _ => normalized
    if canonical_roots.any (·.sameAs canonical) then canonical_roots
    else canonical_roots ++ [canonical]) []

/-- The fields of `WorkspaceSecurityPolicy` that paths are held to. -/
structure FileRoots where
  read_only_roots : List PathBuf
  read_write_roots : List PathBuf
  denied_roots : List PathBuf
  deriving DecidableEq, Repr

namespace FileRoots

/-- `WorkspaceSecurityPolicy::new`, with the files as they are then. -/
def new (files : Files) (read_only_roots read_write_roots denied_roots : List PathBuf) :
    FileRoots where
  read_only_roots := canonicalizeRoots files read_only_roots
  read_write_roots := canonicalizeRoots files read_write_roots
  denied_roots := canonicalizeRoots files denied_roots

/-- `for_mount_roots`. -/
def forMountRoots (files : Files) (shared tmp vault : PathBuf) (denied : List PathBuf) :
    FileRoots :=
  new files [shared, tmp, vault] [shared, tmp] denied

/-- The roots that are allowed for an access mode. -/
def allowedRoots (policy : FileRoots) : FileAccessMode → List PathBuf
  | .readOnly => policy.read_only_roots
  | .readWrite => policy.read_write_roots

/-- Whether a root is above a location, or at it. -/
def isInside (location : Location) (root : PathBuf) : Bool :=
  (PathBuf.ofLocation location).sameAs root || (PathBuf.ofLocation location).startsWith root

/-- `enforce_file_path`. -/
def enforceFilePath (policy : FileRoots) (files : Files) (path : String)
    (access_mode : FileAccessMode) : Except SecurityPolicyViolation Unit :=
  match canonicalizeTargetPath files path (access_mode = .readWrite) with
  | .error violation => .error violation
  | .ok canonical_target =>
    let target := (PathBuf.ofLocation canonical_target).text
    if policy.denied_roots.any (isInside canonical_target) then
      .error ⟨.pathOutsideAllowedRoots,
        s!"path `{path}` resolved to `{target}` which is inside a restricted internal directory"⟩
    else if (policy.allowedRoots access_mode).any (isInside canonical_target) then .ok ()
    else
      let roots := ", ".intercalate ((policy.allowedRoots access_mode).map (·.text))
      .error ⟨.pathOutsideAllowedRoots,
        s!"path `{path}` resolved to `{target}` outside allowed roots [{roots}]"⟩

/-- Under a root that the mode allows, and under none that is denied. -/
def Permits (policy : FileRoots) (access_mode : FileAccessMode) (location : Location) : Prop :=
  (∃ root ∈ policy.allowedRoots access_mode, isInside location root) ∧
    ∀ root ∈ policy.denied_roots, ¬isInside location root

/-- What the policy lets through is opened where the policy permits it. -/
def Confined (policy : FileRoots) (files : Files) (path : String) (access_mode : FileAccessMode) :
    Prop :=
  policy.enforceFilePath files path access_mode = .ok () →
    ∀ location, files.openFile path access_mode = .ok location →
      policy.Permits access_mode location

end FileRoots

/-! ## The entry that a path names -/

/-- The entry of the tree that a path names: what it leads to, or, for a path that may be written
and leads to nothing, its last name in the directory that its parent leads to. -/
inductive NamesEntry (files : Files) (access_mode : FileAccessMode) (path : PathBuf) :
    Location → Prop
  | found {location : Location} (hfound : files.canonicalize path = .ok location) :
      NamesEntry files access_mode path location
  | leaf {parent : PathBuf} {directory : Location} {leaf : String}
      (hmode : access_mode = .readWrite) (hmissing : files.pathExists path = false)
      (hparent : path.parent = some parent) (hdirectory : files.canonicalize parent = .ok directory)
      (hleaf : path.path.fileName = some leaf) :
      NamesEntry files access_mode path (directory ++ [leaf])

/-- Opening a text that is not blank comes to the entry that the trimmed text names, if to any:
there is no whitespace to trim and the entry is no link, or the text leads there all the same. -/
def OpensItsEntry (files : Files) (path : String) (access_mode : FileAccessMode) : Prop :=
  ∀ location entry, Text.trim path ≠ "" → files.openFile path access_mode = .ok location →
    NamesEntry files access_mode (files.normalizeAbsolute (.ofText (Text.trim path))) entry →
      (Text.trim path = path → ∀ target, files.tree.node entry ≠ some (.link target)) ∧
        (Text.trim path ≠ path → location = entry)

variable {files : Files} {access_mode : FileAccessMode} {path : String} {location entry : Location}

/-- What `canonicalize_target_path` resolves a text to. -/
theorem canonicalizeTargetPath_eq_ok_iff :
    canonicalizeTargetPath files path (access_mode = .readWrite) = .ok entry ↔
      Text.trim path ≠ "" ∧ NamesEntry files access_mode
        (files.normalizeAbsolute (.ofText (Text.trim path))) entry := by
  unfold canonicalizeTargetPath
  by_cases hempty : Text.trim path = ""
  · simp [hempty]
  simp only [hempty, if_false, ne_eq, not_false_eq_true, true_and]
  generalize files.normalizeAbsolute (.ofText (Text.trim path)) = target
  constructor
  · intro h
    split_ifs at h with hfound
    · cases hcanonical : files.canonicalize target with
      | error stop => simp [hcanonical] at h
      | ok found =>
        obtain rfl : found = entry := by simpa [hcanonical] using h
        exact .found hcanonical
    · rw [Bool.not_eq_true, Bool.or_eq_false_iff] at hfound
      obtain ⟨hmode, hmissing⟩ := hfound
      split at h
      · cases h
      · rename_i parent hparent
        split at h
        · cases h
        · rename_i directory hdirectory
          split at h
          · cases h
          · rename_i leaf hleaf
            cases h
            exact .leaf (by simpa using hmode) hmissing hparent hdirectory hleaf
  · intro h
    cases h with
    | found hfound =>
      have hexists : files.pathExists target = true := by
        simp [Files.pathExists, hfound, Except.isOk, Except.toBool]
      simp [hexists, hfound]
    | leaf hmode hmissing hparent hdirectory hleaf =>
      simp [hmode, hmissing, hparent, hdirectory, hleaf]

/-- What `enforce_file_path` lets through. -/
theorem FileRoots.enforceFilePath_eq_ok_iff (policy : FileRoots) :
    policy.enforceFilePath files path access_mode = .ok () ↔
      ∃ entry, canonicalizeTargetPath files path (access_mode = .readWrite) = .ok entry ∧
        policy.Permits access_mode entry := by
  unfold enforceFilePath Permits
  cases canonicalizeTargetPath files path (access_mode = .readWrite) with
  | error violation => simp
  | ok entry =>
    simp only [Except.ok.injEq, exists_eq_left']
    split_ifs with hdenied hallowed
    · simp only [false_iff, not_and, not_forall]
      intro _
      obtain ⟨root, hroot, hin⟩ := any_eq_true.1 hdenied
      exact ⟨root, hroot, not_not.2 hin⟩
    · simp only [true_iff]
      refine ⟨any_eq_true.1 hallowed, fun root hroot hin => hdenied ?_⟩
      exact any_eq_true.2 ⟨root, hroot, hin⟩
    · simp only [false_iff, not_and]
      intro hallowed'
      exact absurd (any_eq_true.2 hallowed') hallowed

/-! ## Where opening comes to -/

/-- Opening a text walks the path that the text is made absolute to. -/
theorem openFile_eq_walk (files : Files) (path : String) (access_mode : FileAccessMode) :
    files.openFile path access_mode =
      files.tree.walk (access_mode = .readWrite) Files.maxLinks []
        (files.normalizeAbsolute (.ofText path)).path.parts := by
  unfold Files.openFile Files.normalizeAbsolute PathBuf.ofText
  by_cases habsolute : (UnixPath.parse path).absolute
  · simp [habsolute]
  · simp only [habsolute, Bool.false_eq_true, if_false]
    exact (FileTree.walk_location files.cwd_directory).symm

/-- The parts of a path are those of its parent and its last name, but for a `.` here and there. -/
theorem drops_parent_leaf {path parent : PathBuf} {leaf : String}
    (hparent : path.parent = some parent) (hleaf : path.path.fileName = some leaf) :
    FileTree.Drops path.path.parts (parent.path.parts ++ [.name leaf]) := by
  unfold PathBuf.parent UnixPath.parent at hparent
  split_ifs at hparent with hnil
  · cases hparent
  cases hparent
  have hlast : path.path.components.getLast? = some (.name leaf) := by
    unfold UnixPath.fileName at hleaf
    split at hleaf
    · rename_i name hname
      rw [hname, Option.some.inj hleaf]
    · cases hleaf
  have hsplit : path.path.components.dropLast ++ [.name leaf] = path.path.components :=
    dropLast_append_getLast? _ hlast
  simpa only [hsplit] using FileTree.drops_components path.path

/-- A path that is opened comes to the entry that it names, unless that is a link: what is found is
found without creating as well, and the leaf of a path that leads to nothing is a link that leads to
nothing, or nothing yet. -/
theorem open_entry_iff {path : PathBuf}
    (hopen : files.tree.walk (access_mode = .readWrite) Files.maxLinks [] path.path.parts =
      .ok location) (hentry : NamesEntry files access_mode path entry) :
    location = entry ↔ ∀ target, files.tree.node entry ≠ some (.link target) := by
  have hroot : ∀ target, files.tree.node [] ≠ some (.link target) := by
    simp [files.tree.root]
  have hlocation := (FileTree.reaches_of_walk_eq hopen).not_link hroot
  refine ⟨fun heq => heq ▸ hlocation, fun hlink => ?_⟩
  cases hentry with
  | found hfound =>
    have hwalk : files.tree.walk (access_mode = .readWrite) Files.maxLinks [] path.path.parts =
        .ok entry := (FileTree.reaches_of_walk_eq hfound).allow_create.walk_eq
    exact Except.ok.inj (hopen.symm.trans hwalk)
  | leaf _ _ hparent hdirectory hleaf =>
    rename_i parent directory leaf _
    have hdrops := drops_parent_leaf hparent hleaf
    have hwalk := ((FileTree.reaches_of_walk_eq hopen).drop hdrops).walk_eq
    obtain ⟨left, _, hleft⟩ := (FileTree.reaches_of_walk_eq hdirectory).append
    rw [hleft] at hwalk
    cases FileTree.reaches_of_walk_eq hwalk with
    | name _ _ _ hdone =>
      cases hdone
      rfl
    | missing _ _ _ => rfl
    | link _ hnode _ => exact absurd hnode (hlink _)

/-! ## Confinement -/

/-- To be inside a location is to be at it or under it. -/
theorem isInside_ofLocation {root : Location} :
    FileRoots.isInside location (.ofLocation root) = true ↔ root <+: location := by
  have hself (names : List String) :
      (UnixPath.mk true (names.map .name)).components = names.map .name :=
    filter_eq_self.2 (by simp)
  have hinjective : Function.Injective Part.name := fun _ _ h => Part.name.inj h
  have hprefix : root.map Part.name <+: location.map Part.name ↔ root <+: location :=
    prefix_map_iff_of_injective hinjective
  simp only [FileRoots.isInside, PathBuf.sameAs, PathBuf.startsWith, PathBuf.ofLocation, hself,
    decide_true, Bool.true_and, Bool.or_eq_true, decide_eq_true_eq, isPrefixOf_iff_prefix,
    hprefix]
  refine ⟨fun h => h.elim (fun heq => ?_) fun h => h, .inr⟩
  exact hprefix.1 (heq ▸ prefix_refl _)

/-- Files where there is nothing but the root. -/
def Files.empty : Files where
  tree := FileTree.empty
  cwd := []
  cwd_directory := rfl

/-- Where there is nothing, no location but the root is resolved, and the root to itself. -/
theorem canonicalize_empty (root : Location) :
    Files.empty.canonicalize (.ofLocation root) =
      if root = [] then .ok [] else .error .notFound := by
  unfold Files.canonicalize PathBuf.ofLocation
  cases root with
  | nil => exact FileTree.walk_nil
  | cons name rest =>
    rw [map_cons, FileTree.walk_missing (by simp [Files.empty]) (by simp [Files.empty])]
    simp

/-- Where there is nothing, a root stays as it is written. -/
theorem canonicalizeRoots_empty (root : Location) :
    canonicalizeRoots .empty [.ofLocation root] = [.ofLocation root] := by
  have hnormalized : Files.empty.normalizeAbsolute (.ofLocation root) = .ofLocation root := by
    simp [Files.normalizeAbsolute, PathBuf.ofLocation]
  simp only [canonicalizeRoots, foldl_cons, foldl_nil, hnormalized, any_nil,
    Bool.false_eq_true, if_false, nil_append, canonicalize_empty]
  split_ifs with hroot
  · rw [hroot]
  · rfl

/-- What a policy lets through is confined, if its entry is what opening it comes to. -/
theorem OpensItsEntry.confined (h : OpensItsEntry files path access_mode) (policy : FileRoots) :
    policy.Confined files path access_mode := by
  intro hallowed location hopen
  obtain ⟨entry, hresolved, hpermits⟩ := policy.enforceFilePath_eq_ok_iff.1 hallowed
  have ⟨hempty, hentry⟩ := canonicalizeTargetPath_eq_ok_iff.1 hresolved
  obtain ⟨hlink, hother⟩ := h location entry hempty hopen hentry
  by_cases htrim : Text.trim path = path
  · rw [htrim] at hentry
    rw [openFile_eq_walk] at hopen
    rwa [(open_entry_iff hopen hentry).2 (hlink htrim)]
  · rwa [hother htrim]

/-- Where opening comes to another location than the entry, there are roots that let the path
through and do not permit the location: the entry is allowed, and the location denied unless the
entry is in it. -/
theorem exists_not_confined (hopen : files.openFile path access_mode = .ok location)
    (hresolved : canonicalizeTargetPath files path (access_mode = .readWrite) = .ok entry)
    (hne : location ≠ entry) : ∃ denied,
      ¬(FileRoots.new .empty [.ofLocation entry] [.ofLocation entry] denied).Confined files path
        access_mode := by
  have hroots (denied : List PathBuf) : (FileRoots.new .empty [.ofLocation entry]
      [.ofLocation entry] denied).allowedRoots access_mode = [.ofLocation entry] := by
    cases access_mode <;> exact canonicalizeRoots_empty entry
  by_cases hin : location <+: entry
  · refine ⟨[], fun hconfined => hne ?_⟩
    have hdenied : (FileRoots.new .empty [.ofLocation entry] [.ofLocation entry] []).denied_roots =
        [] := by
      simp [FileRoots.new, canonicalizeRoots]
    have hpermits : FileRoots.Permits (.new .empty [.ofLocation entry] [.ofLocation entry] [])
        access_mode entry := by
      simp [FileRoots.Permits, hroots, hdenied, isInside_ofLocation]
    have hallowed := (FileRoots.enforceFilePath_eq_ok_iff _).2 ⟨entry, hresolved, hpermits⟩
    obtain ⟨⟨root, hroot, hinside⟩, _⟩ := hconfined hallowed location hopen
    rw [hroots, mem_singleton] at hroot
    subst hroot
    exact hin.eq_of_length_le (isInside_ofLocation.1 hinside).length_le
  · refine ⟨[.ofLocation location], fun hconfined => ?_⟩
    have hdenied : (FileRoots.new .empty [.ofLocation entry] [.ofLocation entry]
        [.ofLocation location]).denied_roots = [.ofLocation location] :=
      canonicalizeRoots_empty location
    have hpermits : FileRoots.Permits (.new .empty [.ofLocation entry] [.ofLocation entry]
        [.ofLocation location]) access_mode entry := by
      have hself : entry <+: entry := prefix_refl _
      rw [← isInside_ofLocation] at hin hself
      simp [FileRoots.Permits, hroots, hdenied, hself, hin]
    have hallowed := (FileRoots.enforceFilePath_eq_ok_iff _).2 ⟨entry, hresolved, hpermits⟩
    obtain ⟨_, hnone⟩ := hconfined hallowed location hopen
    refine hnone (.ofLocation location) (by simp [hdenied]) ?_
    exact isInside_ofLocation.2 (prefix_refl _)

/-- Under every configuration what the policy lets through is opened under a root that it permits,
exactly when opening the path comes to the entry that the policy resolves. -/
theorem confined_iff (files : Files) (path : String) (access_mode : FileAccessMode) :
    (∀ (before : Files) (read_only_roots read_write_roots denied_roots : List PathBuf),
      (FileRoots.new before read_only_roots read_write_roots denied_roots).Confined files path
        access_mode) ↔
      OpensItsEntry files path access_mode := by
  constructor
  · intro h location entry hempty hopen hentry
    have hsame : location = entry := by
      by_contra hne
      obtain ⟨denied, hnot⟩ :=
        exists_not_confined hopen (canonicalizeTargetPath_eq_ok_iff.2 ⟨hempty, hentry⟩) hne
      exact hnot (h _ _ _ _)
    refine ⟨fun htrim => ?_, fun _ => hsame⟩
    rw [htrim] at hentry
    rw [openFile_eq_walk] at hopen
    exact (open_entry_iff hopen hentry).1 hsame
  · exact fun h before _ _ _ => h.confined _

/-! ## A link to nothing -/

/-- Two directories, and in the one a link to a file of the other that is not there yet. -/
def linkedFiles : Files where
  tree :=
    { node := fun location =>
        if location ∈ [[], ["shared"], ["etc"]] then some .directory
        else if location = ["shared", "link"] then some (.link (.parse "/etc/cron"))
        else none
      root := rfl
      closed := by
        intro at' name
        match at' with
        | [] => simp
        | [first] => simp +contextual
        | first :: second :: rest => simp }
  cwd := []
  cwd_directory := rfl

/-- A write to the link is let through, since its own place is in the shared directory, and creates
the file that the link points to. -/
theorem linked_write_escapes :
    let policy := FileRoots.forMountRoots linkedFiles (.ofText "/shared") (.ofText "/tmp")
      (.ofText "/vault") []
    policy.enforceFilePath linkedFiles "/shared/link" .readWrite = .ok () ∧
      linkedFiles.openFile "/shared/link" .readWrite = .ok ["etc", "cron"] ∧
      ¬policy.Permits .readWrite ["etc", "cron"] := by
  refine ⟨by decide +kernel, by decide +kernel, fun h => ?_⟩
  revert h
  unfold FileRoots.Permits
  decide +kernel

end Oxydra
