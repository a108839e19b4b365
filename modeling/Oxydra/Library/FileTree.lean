import Mathlib.Data.List.Induction
import Oxydra.Library.UnixPath

/-!
# A file system with symbolic links

A tree of directories, files and symbolic links, and the walk of a path through it: a name is looked
up in the directory that the walk has come to, and a link is replaced by its target, for as long as
there are links left to follow. A walk that may create ends at a name that is missing, when it is
the last one; so it also ends where a link leads that points to nothing.

A location is a path without links: the names of the directories from the root.
-/

open UnixPath (Part)

/-- A place in the tree, by the names from the root. -/
abbrev Location := List String

namespace FileTree

/-- What is at a location. -/
inductive Node where
  | file
  | directory
  | link (target : UnixPath)
  deriving DecidableEq, Repr

/-- Why a walk stops. -/
inductive Stop where
  | notFound
  | notDirectory
  | tooManyLinks
  deriving DecidableEq, Repr

end FileTree

/-- A tree of files: the root is a directory, and so is what something is in. -/
structure FileTree where
  node : Location → Option FileTree.Node
  root : node [] = some .directory
  closed : ∀ (at' : Location) (name : String), node (at' ++ [name]) ≠ none →
    node at' = some .directory

namespace FileTree

/-- A tree with nothing but its root. -/
def empty : FileTree where
  node location := if location = [] then some .directory else none
  root := rfl
  closed := by simp

@[simp]
theorem node_empty (location : Location) :
    empty.node location = if location = [] then some .directory else none := rfl

variable (tree : FileTree)

/-- The walk of some parts from a location, with `follow` for what is behind a link. -/
def walkParts (create : Bool) (follow : Location → List Part → UnixPath → Except Stop Location) :
    Location → List Part → Except Stop Location
  | loc, [] => .ok loc
  | loc, part :: rest =>
    if tree.node loc ≠ some .directory then .error .notDirectory
    else
      match part with
      | .self => walkParts create follow loc rest
      | .up => walkParts create follow loc.dropLast rest
      | .name name =>
        match tree.node (loc ++ [name]) with
        | none => if create ∧ rest = [] then .ok (loc ++ [name]) else .error .notFound
        | some (.link target) => follow loc rest target
        | some _ => walkParts create follow (loc ++ [name]) rest

/-- The walk of some parts from a location, along at most `links` links. -/
def walk (create : Bool) : ℕ → Location → List Part → Except Stop Location
  | 0 => tree.walkParts create fun _ _ _ => .error .tooManyLinks
  | links + 1 => tree.walkParts create fun loc rest target =>
    walk create links (if target.absolute then [] else loc) (target.parts ++ rest)

/-! ## One part at a time -/

section

variable {tree} {create : Bool} {links : ℕ} {loc : Location} {rest : List Part}

attribute [local simp] walkParts walk

/-- The end of the way. -/
@[simp] theorem walk_nil : tree.walk create links loc [] = .ok loc := by
  cases links <;> rfl

/-- Only directories lead on. -/
theorem walk_cons_of_not_directory {part : Part} (h : tree.node loc ≠ some .directory) :
    tree.walk create links loc (part :: rest) = .error .notDirectory := by
  cases links <;> simp only [walk, walkParts, if_pos h]

/-- `.` stays. -/
theorem walk_self (h : tree.node loc = some .directory) :
    tree.walk create links loc (.self :: rest) = tree.walk create links loc rest := by
  cases links <;> simp [h]

/-- `..` goes up. -/
theorem walk_up (h : tree.node loc = some .directory) :
    tree.walk create links loc (.up :: rest) = tree.walk create links loc.dropLast rest := by
  cases links <;> simp [h]

variable {name : String}

/-- A name that is not there. -/
theorem walk_missing (h : tree.node loc = some .directory)
    (hnode : tree.node (loc ++ [name]) = none) :
    tree.walk create links loc (.name name :: rest) =
      if create ∧ rest = [] then .ok (loc ++ [name]) else .error .notFound := by
  cases links <;> simp [h, hnode]

/-- A link leads to its target. -/
theorem walk_link {target : UnixPath} (h : tree.node loc = some .directory)
    (hnode : tree.node (loc ++ [name]) = some (.link target)) :
    tree.walk create links loc (.name name :: rest) =
      match links with
      | 0 => .error .tooManyLinks
      | links + 1 => tree.walk create links (if target.absolute then [] else loc)
        (target.parts ++ rest) := by
  cases links <;> simp [h, hnode]

/-- A name that is there. -/
theorem walk_name {node : Node} (h : tree.node loc = some .directory)
    (hnode : tree.node (loc ++ [name]) = some node) (hlink : ∀ target, node ≠ .link target) :
    tree.walk create links loc (.name name :: rest) =
      tree.walk create links (loc ++ [name]) rest := by
  cases node with
  | link target => exact absurd rfl (hlink target)
  | file => cases links <;> simp [h, hnode]
  | directory => cases links <;> simp [h, hnode]

end

/-! ## Walks that arrive -/

/-- A walk of some parts arrives at a location. -/
inductive Reaches (create : Bool) : ℕ → Location → List Part → Location → Prop
  | done {links : ℕ} {loc : Location} : Reaches create links loc [] loc
  | self {links : ℕ} {loc dest : Location} {rest : List Part}
      (hdir : tree.node loc = some .directory) (h : Reaches create links loc rest dest) :
      Reaches create links loc (.self :: rest) dest
  | up {links : ℕ} {loc dest : Location} {rest : List Part}
      (hdir : tree.node loc = some .directory) (h : Reaches create links loc.dropLast rest dest) :
      Reaches create links loc (.up :: rest) dest
  | name {links : ℕ} {loc dest : Location} {rest : List Part} {name : String} {node : Node}
      (hdir : tree.node loc = some .directory) (hnode : tree.node (loc ++ [name]) = some node)
      (hlink : ∀ target, node ≠ .link target)
      (h : Reaches create links (loc ++ [name]) rest dest) :
      Reaches create links loc (.name name :: rest) dest
  | missing {links : ℕ} {loc : Location} {name : String}
      (hdir : tree.node loc = some .directory) (hnode : tree.node (loc ++ [name]) = none)
      (hcreate : create = true) : Reaches create links loc [.name name] (loc ++ [name])
  | link {links : ℕ} {loc dest : Location} {rest : List Part} {name : String} {target : UnixPath}
      (hdir : tree.node loc = some .directory)
      (hnode : tree.node (loc ++ [name]) = some (.link target))
      (h : Reaches create links (if target.absolute then [] else loc) (target.parts ++ rest)
        dest) :
      Reaches create (links + 1) loc (.name name :: rest) dest

variable {tree} {create : Bool} {links : ℕ} {loc dest : Location} {parts : List Part}

/-- What arrives is what the walk computes. -/
theorem Reaches.walk_eq (h : tree.Reaches create links loc parts dest) :
    tree.walk create links loc parts = .ok dest := by
  induction h with
  | done => exact walk_nil
  | self hdir _ ih => rw [walk_self hdir, ih]
  | up hdir _ ih => rw [walk_up hdir, ih]
  | name hdir hnode hlink _ ih => rw [walk_name hdir hnode hlink, ih]
  | missing hdir hnode hcreate => rw [walk_missing hdir hnode, if_pos ⟨hcreate, rfl⟩]
  | link hdir hnode _ ih =>
    rw [walk_link hdir hnode]
    exact ih

/-- A walk that computes a location arrives there: by induction on the links that it may follow,
and for each number of them on the parts. -/
theorem reaches_of_walk_eq (h : tree.walk create links loc parts = .ok dest) :
    tree.Reaches create links loc parts dest := by
  induction links using Nat.strongRecOn generalizing loc parts with
  | ind links ihl =>
  induction parts generalizing loc with
  | nil =>
    obtain rfl := Except.ok.inj (walk_nil.symm.trans h)
    exact .done
  | cons part rest ih =>
    by_cases hdir : tree.node loc = some .directory
    swap
    · rw [walk_cons_of_not_directory hdir] at h
      cases h
    cases part with
    | self => exact .self hdir (ih (walk_self hdir ▸ h))
    | up => exact .up hdir (ih (walk_up hdir ▸ h))
    | name name =>
      cases hnode : tree.node (loc ++ [name]) with
      | none =>
        rw [walk_missing hdir hnode] at h
        split_ifs at h with hlast
        obtain ⟨hcreate, rfl⟩ := hlast
        cases h
        exact .missing hdir hnode hcreate
      | some node =>
        by_cases hlink : ∃ target, node = .link target
        · obtain ⟨target, rfl⟩ := hlink
          rw [walk_link hdir hnode] at h
          match links, ihl, h with
          | links + 1, ihl, h => exact .link hdir hnode (ihl links (Nat.lt_succ_self _) h)
        · have hlink' : ∀ target, node ≠ .link target := fun target heq => hlink ⟨target, heq⟩
          exact .name hdir hnode hlink' (ih (walk_name hdir hnode hlink' ▸ h))

/-! ## Laws of the walk -/

/-- What has something under it is a directory. -/
theorem node_of_append {names : List String} (hne : names ≠ [])
    (h : tree.node (loc ++ names) ≠ none) : tree.node loc = some .directory := by
  induction names using List.reverseRecOn with
  | nil => exact absurd rfl hne
  | append_singleton names last ih =>
    have hin := tree.closed (loc ++ names) last (by simpa using h)
    by_cases hnames : names = []
    · simpa [hnames] using hin
    · exact ih hnames (by simp [hin])

/-- A directory is in a directory, the root in itself. -/
theorem node_dropLast (h : tree.node loc = some .directory) :
    tree.node loc.dropLast = some .directory := by
  cases loc using List.reverseRecOn with
  | nil => exact h
  | append_singleton at' name =>
    rw [List.dropLast_concat]
    exact tree.closed at' name (by simp [h])

/-- A walk that arrives without creating arrives there when it may create as well. -/
theorem Reaches.allow_create (h : tree.Reaches false links loc parts dest) :
    tree.Reaches create links loc parts dest := by
  induction h with
  | done => exact .done
  | self hdir _ ih => exact .self hdir ih
  | up hdir _ ih => exact .up hdir ih
  | name hdir hnode hlink _ ih => exact .name hdir hnode hlink ih
  | missing _ _ hcreate => cases hcreate
  | link hdir hnode _ ih => exact .link hdir hnode ih

/-- The walk of more parts goes on from where the walk of the first ones arrives, with the links
that are left. -/
theorem Reaches.append (h : tree.Reaches false links loc parts dest) :
    ∃ left ≤ links, ∀ (create : Bool) (more : List Part),
      tree.walk create links loc (parts ++ more) = tree.walk create left dest more := by
  induction h with
  | done => exact ⟨_, Nat.le_refl _, fun _ _ => rfl⟩
  | self hdir _ ih =>
    obtain ⟨left, hle, hwalk⟩ := ih
    exact ⟨left, hle, fun create more => (walk_self hdir).trans (hwalk create more)⟩
  | up hdir _ ih =>
    obtain ⟨left, hle, hwalk⟩ := ih
    exact ⟨left, hle, fun create more => (walk_up hdir).trans (hwalk create more)⟩
  | name hdir hnode hlink _ ih =>
    obtain ⟨left, hle, hwalk⟩ := ih
    exact ⟨left, hle, fun create more => (walk_name hdir hnode hlink).trans (hwalk create more)⟩
  | missing _ _ hcreate => cases hcreate
  | link hdir hnode _ ih =>
    obtain ⟨left, hle, hwalk⟩ := ih
    refine ⟨left, Nat.le_succ_of_le hle, fun create more => ?_⟩
    rw [← hwalk, List.append_assoc, List.cons_append, walk_link hdir hnode]

/-- What a walk without creating arrives at is there. -/
theorem Reaches.node_ne_none (h : tree.Reaches false links loc parts dest)
    (hloc : tree.node loc ≠ none) : tree.node dest ≠ none := by
  induction h with
  | done => exact hloc
  | self _ _ ih => exact ih hloc
  | up hdir _ ih => exact ih (by simp [node_dropLast hdir])
  | name _ hnode _ _ ih => exact ih (by simp [hnode])
  | missing _ _ hcreate => cases hcreate
  | link hdir _ _ ih =>
    refine ih ?_
    split_ifs
    · simp [tree.root]
    · simp [hdir]

/-- A walk that may create arrives at what is there, or its last part is a name and the others lead
to a directory. -/
theorem Reaches.create_cases (h : tree.Reaches create links loc parts dest) :
    tree.Reaches false links loc parts dest ∨ ∃ (init : List Part) (name : String)
      (dir : Location), parts = init ++ [.name name] ∧ tree.Reaches false links loc init dir ∧
        tree.node dir = some .directory := by
  induction h with
  | done => exact .inl .done
  | self hdir _ ih =>
    obtain hthere | ⟨init, name, dir, rfl, hinit, hdirectory⟩ := ih
    · exact .inl (.self hdir hthere)
    · exact .inr ⟨_ :: init, name, dir, rfl, .self hdir hinit, hdirectory⟩
  | up hdir _ ih =>
    obtain hthere | ⟨init, name, dir, rfl, hinit, hdirectory⟩ := ih
    · exact .inl (.up hdir hthere)
    · exact .inr ⟨_ :: init, name, dir, rfl, .up hdir hinit, hdirectory⟩
  | name hdir hnode hlink _ ih =>
    obtain hthere | ⟨init, name, dir, rfl, hinit, hdirectory⟩ := ih
    · exact .inl (.name hdir hnode hlink hthere)
    · exact .inr ⟨_ :: init, name, dir, rfl, .name hdir hnode hlink hinit, hdirectory⟩
  | missing hdir _ _ => exact .inr ⟨[], _, _, rfl, .done, hdir⟩
  | @link links loc dest rest name target hdir hnode _ ih =>
    obtain hthere | ⟨init, last, dir, heq, hinit, hdirectory⟩ := ih
    · exact .inl (.link hdir hnode hthere)
    · cases rest using List.reverseRecOn with
      | nil => exact .inr ⟨[], name, loc, rfl, .done, hdir⟩
      | append_singleton rest part =>
        rw [← List.append_assoc] at heq
        obtain ⟨rfl, hpart⟩ := List.append_inj' heq rfl
        obtain rfl := (List.cons.inj hpart).1
        exact .inr ⟨_ :: rest, last, dir, rfl, .link hdir hnode hinit, hdirectory⟩

/-- A walk that arrives has come through a place for each part of its way. -/
theorem Reaches.of_append {more : List Part}
    (h : tree.Reaches create links loc (parts ++ more) dest) (hmore : more ≠ []) :
    ∃ between, tree.Reaches false links loc parts between := by
  generalize hall : parts ++ more = all at h
  induction h generalizing parts with
  | done => exact absurd (List.append_eq_nil_iff.1 hall).2 hmore
  | self hdir _ ih =>
    cases parts with
    | nil => exact ⟨_, .done⟩
    | cons part parts =>
      obtain ⟨rfl, hrest⟩ := List.cons.inj hall
      obtain ⟨between, hbetween⟩ := ih hrest
      exact ⟨between, .self hdir hbetween⟩
  | up hdir _ ih =>
    cases parts with
    | nil => exact ⟨_, .done⟩
    | cons part parts =>
      obtain ⟨rfl, hrest⟩ := List.cons.inj hall
      obtain ⟨between, hbetween⟩ := ih hrest
      exact ⟨between, .up hdir hbetween⟩
  | name hdir hnode hlink _ ih =>
    cases parts with
    | nil => exact ⟨_, .done⟩
    | cons part parts =>
      obtain ⟨rfl, hrest⟩ := List.cons.inj hall
      obtain ⟨between, hbetween⟩ := ih hrest
      exact ⟨between, .name hdir hnode hlink hbetween⟩
  | missing _ _ _ =>
    cases parts with
    | nil => exact ⟨_, .done⟩
    | cons part parts =>
      exact absurd (List.append_eq_nil_iff.1 (List.cons.inj hall).2).2 hmore
  | link hdir hnode _ ih =>
    cases parts with
    | nil => exact ⟨_, .done⟩
    | cons part parts =>
      obtain ⟨rfl, hrest⟩ := List.cons.inj hall
      have hrest' : parts ++ more = _ := hrest
      obtain ⟨between, hbetween⟩ := ih (by rw [List.append_assoc, hrest'])
      exact ⟨between, .link hdir hnode hbetween⟩

/-- A walk that starts at no link ends at none. -/
theorem Reaches.not_link (h : tree.Reaches create links loc parts dest)
    (hloc : ∀ target, tree.node loc ≠ some (.link target)) :
    ∀ target, tree.node dest ≠ some (.link target) := by
  induction h with
  | done => exact hloc
  | self _ _ ih => exact ih hloc
  | up hdir _ ih => exact ih (by simp [node_dropLast hdir])
  | name _ hnode hlink _ ih => exact ih (by simpa [hnode] using hlink)
  | missing _ hnode _ => simp [hnode]
  | link hdir _ _ ih =>
    refine ih ?_
    split_ifs
    · simp [tree.root]
    · simp [hdir]

/-- The way from the root along the names of a directory comes to it. -/
theorem walk_location {more : List Part} (h : tree.node loc = some .directory) :
    tree.walk create links [] (loc.map .name ++ more) = tree.walk create links loc more := by
  suffices hgen : ∀ (names at' : List String), tree.node at' = some .directory →
      tree.node (at' ++ names) = some .directory →
      tree.walk create links at' (names.map .name ++ more) =
        tree.walk create links (at' ++ names) more by
    simpa using hgen loc [] tree.root h
  intro names
  induction names with
  | nil => simp
  | cons name names ih =>
    intro at' hat hdir
    have hsplit : at' ++ name :: names = (at' ++ [name]) ++ names := by simp
    rw [hsplit] at hdir ⊢
    have hnode : tree.node (at' ++ [name]) = some .directory := by
      by_cases hnames : names = []
      · simpa [hnames] using hdir
      · exact node_of_append hnames (by rw [hdir]; exact Option.some_ne_none _)
    rw [List.map_cons, List.cons_append, walk_name hat hnode (by simp), ih _ hnode hdir]

/-! ## Parts that say nothing -/

/-- Some parts are others with a `.` left out here and there. -/
inductive Drops : List Part → List Part → Prop
  | nil : Drops [] []
  | keep {part : Part} {parts fewer : List Part} (h : Drops parts fewer) :
      Drops (part :: parts) (part :: fewer)
  | drop {parts fewer : List Part} (h : Drops parts fewer) : Drops (.self :: parts) fewer

/-- Parts in front. -/
theorem Drops.append_left {more fewer : List Part} (h : Drops more fewer) (parts : List Part) :
    Drops (parts ++ more) (parts ++ fewer) := by
  induction parts with
  | nil => exact h
  | cons _ _ ih => exact .keep ih

/-- A path and its parent. -/
theorem drops_components (path : UnixPath) : Drops path.parts path.components := by
  unfold UnixPath.components
  induction path.parts with
  | nil => exact .nil
  | cons part parts ih =>
    by_cases h : part = .self
    · rw [List.filter_cons_of_neg (by simpa using h), h]
      exact .drop ih
    · rw [List.filter_cons_of_pos (by simpa using h)]
      exact .keep ih

/-- A walk arrives at the same place when a `.` is left out. -/
theorem Reaches.drop (h : tree.Reaches create links loc parts dest) {fewer : List Part}
    (hdrops : Drops parts fewer) : tree.Reaches create links loc fewer dest := by
  induction h generalizing fewer with
  | done =>
    cases hdrops
    exact .done
  | self hdir _ ih =>
    cases hdrops with
    | keep hrest => exact .self hdir (ih hrest)
    | drop hrest => exact ih hrest
  | up hdir _ ih =>
    cases hdrops with
    | keep hrest => exact .up hdir (ih hrest)
  | name hdir hnode hlink _ ih =>
    cases hdrops with
    | keep hrest => exact .name hdir hnode hlink (ih hrest)
  | missing hdir hnode hcreate =>
    cases hdrops with
    | keep hrest =>
      cases hrest
      exact .missing hdir hnode hcreate
  | link hdir hnode _ ih =>
    cases hdrops with
    | keep hrest => exact .link hdir hnode (ih (hrest.append_left _))

end FileTree
