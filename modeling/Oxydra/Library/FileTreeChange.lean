import Oxydra.Library.FileTree

/-!
# Files that come and go

The place that a path names when a link at its end is not followed, which is what a directory entry
is made, replaced or removed at; a tree with something put at a place, and one with a part of it
gone. What a walk arrives at stays where it is when something is put where nothing was.
-/

open UnixPath (Part)

namespace FileTree

variable (tree : FileTree)

/-! ## The place of an entry -/

/-- The place that some parts name from a location: the last part, if it is a name, in the directory
that the others lead to. -/
def place (links : ℕ) (loc : Location) (parts : List Part) : Except Stop Location :=
  match parts.getLast? with
  | some (.name name) =>
    match tree.walk false links loc parts.dropLast with
    | .ok dir =>
      if tree.node dir = some .directory then .ok (dir ++ [name]) else .error .notDirectory
    | .error stop => .error stop
  | _ => tree.walk false links loc parts

section

variable {tree} {create : Bool} {links : ℕ} {loc dest entry : Location} {parts init : List Part}
  {name : String} {stop : Stop}

theorem place_name : tree.place links loc (init ++ [.name name]) =
    match tree.walk false links loc init with
    | .ok dir =>
      if tree.node dir = some .directory then .ok (dir ++ [name]) else .error .notDirectory
    | .error stop => .error stop := by
  simp [place]

theorem place_name_eq_ok_iff : tree.place links loc (init ++ [.name name]) = .ok entry ↔
    ∃ dir, tree.walk false links loc init = .ok dir ∧ tree.node dir = some .directory ∧
      entry = dir ++ [name] := by
  rw [place_name]
  cases tree.walk false links loc init with
  | error stop => simp
  | ok dir =>
    by_cases hdir : tree.node dir = some .directory
    · simp [hdir, eq_comm]
    · simp only [hdir, if_false, reduceCtorEq, false_iff, not_exists, not_and]
      rintro _ heq hdirectory
      exact absurd (Except.ok.inj heq ▸ hdirectory) hdir

/-- Parts that end in a name, and those that do not. -/
theorem ends_in_name_or (parts : List Part) : (∃ init name, parts = init ++ [.name name]) ∨
    ∀ name, parts.getLast? ≠ some (.name name) := by
  cases parts using List.reverseRecOn with
  | nil => simp
  | append_singleton init part => cases part <;> simp

theorem place_of_no_name (h : ∀ name, parts.getLast? ≠ some (.name name)) :
    tree.place links loc parts = tree.walk false links loc parts := by
  unfold place
  split
  · rename_i name hname
    exact absurd hname (h name)
  · rfl

/-- The last name of a path is looked up in the directory that the others lead to. -/
theorem walk_last (hinit : tree.walk false links loc init = .ok dest) (name : String) :
    ∃ left ≤ links, ∀ create, tree.walk create links loc (init ++ [.name name]) =
      tree.walk create left dest [.name name] := by
  obtain ⟨left, hle, hwalk⟩ := (reaches_of_walk_eq hinit).append
  exact ⟨left, hle, fun create => hwalk create _⟩

/-- A path that leads somewhere has a place. -/
theorem place_of_walk (h : tree.walk create links loc parts = .ok dest) :
    ∃ entry, tree.place links loc parts = .ok entry := by
  obtain ⟨init, name, rfl⟩ | hno := ends_in_name_or parts
  · obtain ⟨dir, hdir⟩ := (reaches_of_walk_eq h).of_append (by simp)
    obtain ⟨left, _, hwalk⟩ := walk_last hdir.walk_eq name
    have hdirectory : tree.node dir = some .directory := by
      by_contra hnot
      rw [hwalk, walk_cons_of_not_directory hnot] at h
      cases h
    exact ⟨_, place_name_eq_ok_iff.2 ⟨dir, hdir.walk_eq, hdirectory, rfl⟩⟩
  · obtain hthere | ⟨init, name, _, rfl, _⟩ := (reaches_of_walk_eq h).create_cases
    · exact ⟨dest, (place_of_no_name hno).trans hthere.walk_eq⟩
    · exact absurd (List.getLast?_concat ..) (hno name)

end

/-! ## Making and removing -/

/-- Whether something may be put at a place: in a directory, and over no directory. -/
def CanPut (loc : Location) : Prop :=
  loc ≠ [] ∧ tree.node loc.dropLast = some .directory ∧ tree.node loc ≠ some .directory

instance (loc : Location) : Decidable (tree.CanPut loc) := inferInstanceAs (Decidable (_ ∧ _ ∧ _))

/-- The tree with something put at a place. -/
def put (loc : Location) (node : Node) (h : tree.CanPut loc) : FileTree where
  node place := if place = loc then some node else tree.node place
  root := by rw [if_neg h.1.symm, tree.root]
  closed at' name hnode := by
    obtain ⟨-, hin, hover⟩ := h
    by_cases hplace : at' ++ [name] = loc
    · rw [← hplace, List.dropLast_concat] at hin
      rwa [if_neg (by simp [← hplace])]
    · rw [if_neg hplace] at hnode
      have hdir := tree.closed at' name hnode
      rwa [if_neg (by rintro rfl; exact hover hdir)]

/-! ## What stays -/

/-- A tree has what another has, and perhaps more. -/
def Extends (more : FileTree) : Prop :=
  ∀ loc, tree.node loc ≠ none → more.node loc = tree.node loc

variable {tree} {more : FileTree} {links : ℕ} {loc dest : Location} {parts : List Part}

theorem Extends.refl : tree.Extends tree := fun _ _ => rfl

theorem Extends.trans {most : FileTree} (h : tree.Extends more) (hmore : more.Extends most) :
    tree.Extends most := fun loc hloc => by
  rw [hmore loc (h loc hloc ▸ hloc), h loc hloc]

theorem extends_put {node : Node} {h : tree.CanPut loc} (hmissing : tree.node loc = none) :
    tree.Extends (tree.put loc node h) := fun place hplace => by
  show (if place = loc then some node else tree.node place) = _
  rw [if_neg (by rintro rfl; exact hplace hmissing)]

/-- What is arrived at stays where it is when more comes to the tree. -/
theorem Reaches.extends (h : tree.Reaches false links loc parts dest) (hmore : tree.Extends more) :
    more.Reaches false links loc parts dest := by
  induction h with
  | done => exact .done
  | self hdir _ ih => exact .self (by simp [hmore _, hdir]) ih
  | up hdir _ ih => exact .up (by simp [hmore _, hdir]) ih
  | name hdir hnode hlink _ ih =>
    exact .name (by simp [hmore _, hdir]) (by rw [hmore _ (by simp [hnode]), hnode]) hlink ih
  | missing _ _ hcreate => cases hcreate
  | link hdir hnode _ ih =>
    exact .link (by simp [hmore _, hdir]) (by rw [hmore _ (by simp [hnode]), hnode]) ih

end FileTree
