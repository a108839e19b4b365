import Mathlib.Data.List.Nodup
import Oxydra.Library.Effect
import Oxydra.Library.FileTreeChange

/-!
# A disk and the calls that use it

A tree of files with their contents, the names in each directory in the order in which a read of it
returns them, and calls of `std::fs` on it. Each call finds its location at the time it is made,
and says which location it has read or written: a write at a location is one of everything that is
under it. A call that fails before it has done so says nothing.

The rules under the calls execute them: what a call does is told by where its path leads.
-/

open UnixPath (Part)
open FileTree (Node Stop)

/-- A disk, as a process with a working directory finds it. -/
structure Disk where
  tree : FileTree
  cwd : Location
  content : Location → ByteArray
  entries : Location → List String
  mem_entries : ∀ loc name, name ∈ entries loc ↔ tree.node (loc ++ [name]) ≠ none
  nodup_entries : ∀ loc, (entries loc).Nodup

/-- What a call has read or written. -/
inductive Access where
  | read (location : Location)
  | write (location : Location)
  deriving DecidableEq, Repr

/-- Why a call fails. -/
inductive IoError where
  | stop (stop : Stop)
  | alreadyExists
  deriving DecidableEq, Repr

namespace Disk

variable (disk : Disk)

/-! ## Finding a location -/

/-- How many symbolic links the system follows for one path. -/
def maxLinks : ℕ := 40

/-- Where the walk of a path starts. -/
def start (path : UnixPath) : Except Stop Location :=
  if path.absolute then .ok []
  else if disk.tree.node disk.cwd = some .directory then .ok disk.cwd
  else .error .notFound

/-- The location that a path leads to, with links followed. -/
def resolve (create : Bool) (path : UnixPath) : Except Stop Location :=
  match disk.start path with
  | .ok loc => disk.tree.walk create maxLinks loc path.parts
  | .error stop => .error stop

/-- The location that a path names, with a link at its end not followed. -/
def place (path : UnixPath) : Except Stop Location :=
  match disk.start path with
  | .ok loc => disk.tree.place maxLinks loc path.parts
  | .error stop => .error stop

/-! ## Changing the disk -/

/-- The disk with something put at a place. -/
def put (loc : Location) (node : Node) (h : disk.tree.CanPut loc) : Disk where
  tree := disk.tree.put loc node h
  cwd := disk.cwd
  content := disk.content
  entries at' :=
    if at' = loc.dropLast then (disk.entries at').insert (loc.getLast h.1) else disk.entries at'
  mem_entries at' name := by
    have hloc : loc.dropLast ++ [loc.getLast h.1] = loc := List.dropLast_append_getLast h.1
    have hiff : at' ++ [name] = loc ↔ at' = loc.dropLast ∧ name = loc.getLast h.1 := by
      conv_lhs => rw [← hloc]
      simp
    show _ ↔ (if at' ++ [name] = loc then some node else disk.tree.node (at' ++ [name])) ≠ none
    simp only [hiff]
    split_ifs with hat hboth hboth
    · simp [hboth.2]
    · have hname : name ≠ loc.getLast h.1 := fun hname => hboth ⟨hat, hname⟩
      rw [List.mem_insert_iff, or_iff_right hname, disk.mem_entries]
    · exact absurd hboth.1 hat
    · exact disk.mem_entries at' name
  nodup_entries at' := by
    split_ifs
    · exact (disk.nodup_entries at').insert
    · exact disk.nodup_entries at'

/-- The disk with a directory made at a place. -/
def makeDirectory (loc : Location) : Disk :=
  if h : disk.tree.CanPut loc then disk.put loc .directory h else disk

end Disk

/-! ## Calls -/

namespace Disk

/-- A disk that is used, and what has been read and written. -/
structure Session where
  disk : Disk
  accesses : List Access

/-- A call of the system. -/
abbrev Call := EStateM IoError Session

namespace Call

/-- What a call has read or written, and what it makes of the disk. -/
def record (accesses : List Access) (change : Disk → Disk) : Call Unit :=
  modify fun session => ⟨change session.disk, session.accesses ++ accesses⟩

/-- A location that is found, or not. -/
def found {α : Type} (result : Except Stop α) : Call α := Effect.ofExcept (result.mapError .stop)

/-- `fs::metadata`, by what it says of the kind of a file. -/
def metadata (path : UnixPath) : Call (Option Node) := do
  let disk := (← get).disk
  let loc ← found (disk.resolve false path)
  record [.read loc] id
  return disk.tree.node loc

/-- `Path::is_dir`. -/
def isDir (path : UnixPath) : Call Bool :=
  tryCatch (do return (← metadata path) = some .directory) fun _ => return false

/-- `fs::create_dir`. -/
def createDir (path : UnixPath) : Call Unit := do
  let disk := (← get).disk
  let loc ← found (disk.place path)
  if disk.tree.node loc = none then record [.write loc] (·.makeDirectory loc)
  else throw .alreadyExists

/-! ## What a call does -/

open Effect (wp)

variable {path : UnixPath} {E : IoError → Session → Prop} {s : Session}

@[simp] theorem wp_record {accesses : List Access} {change : Disk → Disk}
    {Q : Unit → Session → Prop} :
    wp (record accesses change) Q E s ↔ Q () ⟨change s.disk, s.accesses ++ accesses⟩ := Iff.rfl

@[simp] theorem wp_found {α : Type} {Q : α → Session → Prop} {result : Except Stop α} :
    wp (found result) Q E s ↔
      (∀ a, result = .ok a → Q a s) ∧ ∀ stop, result = .error stop → E (.stop stop) s := by
  cases result <;> simp [found, Except.mapError]

@[simp] theorem wp_metadata {Q : Option Node → Session → Prop} : wp (metadata path) Q E s ↔
    (∀ loc, s.disk.resolve false path = .ok loc →
      Q (s.disk.tree.node loc) ⟨s.disk, s.accesses ++ [.read loc]⟩) ∧
    ∀ stop, s.disk.resolve false path = .error stop → E (.stop stop) s := by
  simp [metadata]

@[simp] theorem wp_isDir {Q : Bool → Session → Prop} : wp (isDir path) Q E s ↔
    (∀ loc, s.disk.resolve false path = .ok loc →
      Q (s.disk.tree.node loc = some .directory) ⟨s.disk, s.accesses ++ [.read loc]⟩) ∧
    ∀ stop, s.disk.resolve false path = .error stop → Q false s := by
  simp [isDir]

@[simp] theorem wp_createDir {Q : Unit → Session → Prop} : wp (createDir path) Q E s ↔
    (∀ loc, s.disk.place path = .ok loc →
      (s.disk.tree.node loc = none →
        Q () ⟨s.disk.makeDirectory loc, s.accesses ++ [.write loc]⟩) ∧
      (s.disk.tree.node loc ≠ none → E .alreadyExists s)) ∧
    ∀ stop, s.disk.place path = .error stop → E (.stop stop) s := by
  simp [createDir, Effect.wp_ite]

end Call

end Disk
