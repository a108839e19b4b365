import Oxydra.Library.Disk

/-!
# Making the directories of a path

`fs::create_dir_all` and `fs::canonicalize`. To make the directories of a path leaves all that was
there where it was, so what a path led to before it leads to after. Under a directory that is there,
what the names of the path lead to afterwards is what they led to before, or is new: a link that
leads nowhere is not made to lead somewhere.
-/

open UnixPath (Part)
open FileTree (Node Stop)

namespace UnixPath

/-- `Path::join`. -/
def join (path more : UnixPath) : UnixPath :=
  if more.absolute then more else { path with parts := path.parts ++ more.parts }

end UnixPath

namespace FileTree

variable {tree : FileTree} {links : ℕ} {loc dest : Location} {parts fewer rest : List Part}

/-- What is dropped before a part that is kept are parts that say nothing. -/
theorem Drops.cons_inv {part : Part} (h : Drops parts (part :: rest)) :
    ∃ (n : ℕ) (parts' : List Part), parts = List.replicate n .self ++ part :: parts' ∧
      Drops parts' rest := by
  generalize hall : part :: rest = all at h
  induction h with
  | nil => cases hall
  | keep hrest _ =>
    cases hall
    exact ⟨0, _, rfl, hrest⟩
  | drop _ ih =>
    obtain ⟨n, parts', rfl, hrest⟩ := ih hall
    exact ⟨n + 1, parts', rfl, hrest⟩

theorem Drops.nil_inv (h : Drops parts []) : ∃ n, parts = List.replicate n .self := by
  generalize hall : ([] : List Part) = all at h
  induction h with
  | nil => exact ⟨0, rfl⟩
  | keep _ _ => cases hall
  | drop _ ih =>
    obtain ⟨n, rfl⟩ := ih hall
    exact ⟨n + 1, rfl⟩

/-- In a directory, parts that say nothing are walked to where it is. -/
theorem Reaches.selves {create : Bool} (hdir : tree.node loc = some .directory)
    (h : tree.Reaches create links loc rest dest) (n : ℕ) :
    tree.Reaches create links loc (List.replicate n .self ++ rest) dest := by
  induction n with
  | zero => exact h
  | succ n ih => exact .self hdir ih

/-- A walk that comes to a directory comes to it when a `.` is put in. -/
theorem Reaches.undrop (h : tree.Reaches false links loc fewer dest)
    (hdest : tree.node dest = some .directory) (hdrops : Drops parts fewer) :
    tree.Reaches false links loc parts dest := by
  induction h generalizing parts with
  | done =>
    obtain ⟨n, rfl⟩ := hdrops.nil_inv
    rw [← List.append_nil (List.replicate n _)]
    exact .selves hdest .done n
  | self hdir _ ih =>
    obtain ⟨n, parts', rfl, hrest⟩ := hdrops.cons_inv
    exact .selves hdir (.self hdir (ih hdest hrest)) n
  | up hdir _ ih =>
    obtain ⟨n, parts', rfl, hrest⟩ := hdrops.cons_inv
    exact .selves hdir (.up hdir (ih hdest hrest)) n
  | name hdir hnode hlink _ ih =>
    obtain ⟨n, parts', rfl, hrest⟩ := hdrops.cons_inv
    exact .selves hdir (.name hdir hnode hlink (ih hdest hrest)) n
  | missing _ _ hcreate => cases hcreate
  | link hdir hnode _ ih =>
    obtain ⟨n, parts', rfl, hrest⟩ := hdrops.cons_inv
    exact .selves hdir (.link hdir hnode (ih hdest (hrest.append_left _))) n

end FileTree

namespace Disk

/-! ## Disks that grow -/

/-- A disk has what another has, and perhaps more directories. -/
structure GrowsTo (disk more : Disk) : Prop where
  cwd : more.cwd = disk.cwd
  extends_tree : disk.tree.Extends more.tree
  links : ∀ loc target, more.tree.node loc = some (.link target) →
    disk.tree.node loc = some (.link target)

variable {disk more : Disk} {path : UnixPath} {loc dest : Location}

theorem GrowsTo.refl (disk : Disk) : disk.GrowsTo disk := ⟨rfl, .refl, fun _ _ h => h⟩

theorem GrowsTo.trans {most : Disk} (h : disk.GrowsTo more) (hmore : more.GrowsTo most) :
    disk.GrowsTo most :=
  ⟨hmore.cwd.trans h.cwd, h.extends_tree.trans hmore.extends_tree,
    fun loc target hlink => h.links loc target (hmore.links loc target hlink)⟩

/-- What is not there was not there. -/
theorem GrowsTo.missing (h : disk.GrowsTo more) (hmore : more.tree.node loc = none) :
    disk.tree.node loc = none := by
  by_contra hnode
  rw [h.extends_tree loc hnode] at hmore
  exact hnode hmore

/-- A directory is made where nothing was. -/
theorem growsTo_makeDirectory (hmissing : disk.tree.node loc = none) :
    disk.GrowsTo (disk.makeDirectory loc) := by
  unfold makeDirectory
  split
  · next hput =>
    have hextends : disk.tree.Extends (disk.tree.put loc .directory hput) :=
      FileTree.extends_put hmissing
    refine ⟨rfl, hextends, fun at' target hlink => ?_⟩
    have hnode : (if at' = loc then some Node.directory else disk.tree.node at') =
      some (.link target) := hlink
    split at hnode
    · cases hnode
    · exact hnode
  · exact .refl disk

/-- Where something may be put, a directory that is made is there. -/
theorem node_makeDirectory (hput : disk.tree.CanPut loc) :
    (disk.makeDirectory loc).tree.node loc = some .directory := by
  unfold makeDirectory
  rw [dif_pos hput]
  exact if_pos rfl

/-- What a path leads to is there. -/
theorem resolve_eq_ok_iff {create : Bool} : disk.resolve create path = .ok dest ↔
    ∃ start, disk.start path = .ok start ∧ disk.tree.node start = some .directory ∧
      disk.tree.Reaches create maxLinks start path.parts dest := by
  have hstart : ∀ start, disk.start path = .ok start → disk.tree.node start = some .directory := by
    intro start hok
    unfold Disk.start at hok
    split_ifs at hok with habsolute hcwd
    · exact Except.ok.inj hok ▸ disk.tree.root
    · exact Except.ok.inj hok ▸ hcwd
  unfold resolve
  cases h : disk.start path with
  | error stop => simp
  | ok start =>
    constructor
    · exact fun hwalk => ⟨start, rfl, hstart start h, FileTree.reaches_of_walk_eq hwalk⟩
    · rintro ⟨_, hok, -, hreaches⟩
      exact Except.ok.inj hok ▸ hreaches.walk_eq

theorem node_of_resolve (h : disk.resolve false path = .ok loc) : disk.tree.node loc ≠ none := by
  obtain ⟨start, -, hdir, hreaches⟩ := resolve_eq_ok_iff.1 h
  exact hreaches.node_ne_none (by rw [hdir]; exact Option.some_ne_none _)

theorem start_of_growsTo (h : disk.GrowsTo more) {start : Location}
    (hstart : disk.start path = .ok start) : more.start path = .ok start := by
  unfold Disk.start at hstart ⊢
  rw [h.cwd]
  by_cases hcwd : disk.tree.node disk.cwd = some .directory
  · rw [h.extends_tree _ (by simp [hcwd])]
    exact hstart
  · split_ifs at hstart ⊢
    exact hstart

/-- What a path leads to, it leads to when there are more directories. -/
theorem GrowsTo.resolve (h : disk.GrowsTo more) (hpath : disk.resolve false path = .ok loc) :
    more.resolve false path = .ok loc := by
  obtain ⟨start, hstart, hdir, hreaches⟩ := resolve_eq_ok_iff.1 hpath
  refine resolve_eq_ok_iff.2 ⟨start, start_of_growsTo h hstart, ?_, hreaches.extends h.extends_tree⟩
  rw [h.extends_tree _ (by simp [hdir]), hdir]

/-! ## The calls -/

namespace Call

/-- `fs::canonicalize`. -/
def canonicalize (path : UnixPath) : Call Location := do
  let disk := (← get).disk
  let loc ← found (disk.resolve false path)
  record [.read loc] id
  return loc

/-- A directory that could not be made, which is no error where there is one. -/
def orDirectory (path : UnixPath) (error : IoError) : Call Unit := do
  if ← isDir path then return () else throw error

/-- The last directory of a path, with the directory that it is in where that is missing. -/
def createDirs (createParent : Call Unit) (path : UnixPath) : Call Unit :=
  tryCatch (createDir path) fun error => do
    if error = .stop .notFound then
      createParent
      tryCatch (createDir path) (orDirectory path)
    else orDirectory path error

/-- The directories of a path that has as many names as are given. -/
def createDirsUpTo : ℕ → UnixPath → Call Unit
  | 0, path => if path.absolute then createDirs (throw (.stop .notFound)) path else return ()
  | n + 1, path =>
    createDirs (createDirsUpTo n { path with parts := path.components.dropLast }) path

/-- `fs::create_dir_all`. -/
def createDirAll (path : UnixPath) : Call Unit := createDirsUpTo path.components.length path

open Effect (wp)

variable {s t : Session} {createParent : Call Unit}

/-- A path that is found leads to what is found, and nothing is changed. -/
theorem canonicalize_ok (h : canonicalize path s = .ok loc t) :
    s.disk.resolve false path = .ok loc ∧ t.disk = s.disk := by
  have hwp : wp (canonicalize path)
      (fun loc t => s.disk.resolve false path = .ok loc ∧ t.disk = s.disk)
      (fun _ _ => True) s := by simp [canonicalize]
  exact hwp.ok h

/-- Something is left as it is, or a directory is made at the place of the path. -/
def MakesAt (disk more : Disk) (path : UnixPath) : Prop :=
  more = disk ∨ ∃ loc, disk.place path = .ok loc ∧ disk.tree.node loc = none ∧
    more = disk.makeDirectory loc

/-- What `createDirs` does when it succeeds: it makes no parent, or the place of the path was not
found. -/
theorem createDirs_ok (h : createDirs createParent path s = .ok () t) :
    MakesAt s.disk t.disk path ∨ (s.disk.place path = .error .notFound ∧
      ∃ made, createParent s = .ok () made ∧ MakesAt made.disk t.disk path) := by
  have horDirectory : ∀ (error : IoError) (s : Session),
      wp (orDirectory path error) (fun _ t => t.disk = s.disk) (fun _ _ => True) s := by
    intro error s
    simp [orDirectory, Effect.wp_ite]
  have hagain : ∀ made : Session, wp (tryCatch (createDir path) (orDirectory path))
      (fun _ t => MakesAt made.disk t.disk path) (fun _ _ => True) made := by
    intro made
    rw [Effect.wp_tryCatch, wp_createDir]
    refine ⟨fun loc hloc => ⟨fun hnode => .inr ⟨loc, hloc, hnode, rfl⟩, fun _ => ?_⟩, fun _ _ => ?_⟩
    · exact (horDirectory _ made).mono (fun _ _ hsame => .inl hsame) (fun _ _ _ => trivial)
    · exact (horDirectory _ made).mono (fun _ _ hsame => .inl hsame) (fun _ _ _ => trivial)
  suffices hwp : wp (createDirs createParent path) (fun _ t => MakesAt s.disk t.disk path ∨
      (s.disk.place path = .error .notFound ∧
        ∃ made, createParent s = .ok () made ∧ MakesAt made.disk t.disk path))
      (fun _ _ => True) s from hwp.ok h
  unfold createDirs
  rw [Effect.wp_tryCatch, wp_createDir]
  refine ⟨fun loc hloc => ⟨fun hnode => .inl (.inr ⟨loc, hloc, hnode, rfl⟩), fun _ => ?_⟩,
    fun stop hstop => ?_⟩
  · rw [if_neg (by simp)]
    exact (horDirectory _ s).mono (fun _ _ hsame => .inl (.inl hsame)) (fun _ _ _ => trivial)
  · rw [Effect.wp_ite]
    refine ⟨fun hmissing => ?_, fun _ => ?_⟩
    · obtain rfl : stop = .notFound := by simpa using hmissing
      rw [Effect.wp_bind]
      refine (Effect.wp_run createParent s).mono (fun _ made hmade => ?_) (fun _ _ _ => trivial)
      exact (hagain made).mono (fun _ _ hmakes => .inr ⟨hstop, made, hmade, hmakes⟩)
        (fun _ _ _ => trivial)
    · exact (horDirectory _ s).mono (fun _ _ hsame => .inl (.inl hsame)) (fun _ _ _ => trivial)

end Call

/-! ## What the paths lead to -/

/-- What a path leads to it led to before, or it is new. -/
def LeadsAsBefore (disk more : Disk) (path : UnixPath) : Prop :=
  ∀ loc, more.resolve false path = .ok loc →
    disk.resolve false path = .ok loc ∨ disk.tree.node loc = none

section

variable {init more' : List Part} {name : String} {absolute : Bool}

theorem GrowsTo.leadsAsBefore (h : disk.GrowsTo more) (hpath : disk.resolve false path = .ok loc) :
    LeadsAsBefore disk more path := by
  intro dest hdest
  rw [h.resolve hpath] at hdest
  exact .inl (hdest ▸ hpath)

/-- A path that leads somewhere leads through what its first parts lead to. -/
theorem resolve_of_append
    (h : disk.resolve false ⟨absolute, init ++ more'⟩ = .ok loc) :
    ∃ dir, disk.resolve false ⟨absolute, init⟩ = .ok dir := by
  by_cases hmore : more' = []
  · rw [hmore, List.append_nil] at h
    exact ⟨loc, h⟩
  · obtain ⟨start, hstart, hdir, hreaches⟩ := resolve_eq_ok_iff.1 h
    obtain ⟨between, hbetween⟩ := hreaches.of_append hmore
    exact ⟨between, resolve_eq_ok_iff.2 ⟨start, hstart, hdir, hbetween⟩⟩

/-- What the first parts of a path lead to is a directory where there are more. -/
theorem directory_of_append
    (h : disk.resolve false ⟨absolute, init ++ more'⟩ = .ok loc) (hmore : more' ≠ []) :
    ∃ dir, disk.resolve false ⟨absolute, init⟩ = .ok dir ∧
      disk.tree.node dir = some .directory := by
  obtain ⟨start, hstart, hdir, hreaches⟩ := resolve_eq_ok_iff.1 h
  obtain ⟨between, hbetween⟩ := hreaches.of_append hmore
  refine ⟨between, resolve_eq_ok_iff.2 ⟨start, hstart, hdir, hbetween⟩, ?_⟩
  obtain ⟨left, -, hwalk⟩ := hbetween.append
  by_contra hnot
  obtain ⟨part, rest, rfl⟩ := List.exists_cons_of_ne_nil hmore
  have hok := hreaches.walk_eq
  rw [hwalk false, FileTree.walk_cons_of_not_directory hnot] at hok
  cases hok

/-- A path leads to the same when its `.` are left out. -/
theorem resolve_components (h : disk.resolve false path = .ok loc) :
    disk.resolve false { path with parts := path.components } = .ok loc := by
  obtain ⟨start, hstart, hdir, hreaches⟩ := resolve_eq_ok_iff.1 h
  exact resolve_eq_ok_iff.2
    ⟨start, hstart, hdir, hreaches.drop (FileTree.drops_components path)⟩

/-- A path that leads to a directory without its `.` leads there. -/
theorem resolve_of_components
    (h : disk.resolve false { path with parts := path.components } = .ok loc)
    (hloc : disk.tree.node loc = some .directory) : disk.resolve false path = .ok loc := by
  obtain ⟨start, hstart, hdir, hreaches⟩ := resolve_eq_ok_iff.1 h
  exact resolve_eq_ok_iff.2
    ⟨start, hstart, hdir, hreaches.undrop hloc (FileTree.drops_components path)⟩

/-- The last name of a path is looked up in the directory that the others lead to. -/
theorem resolve_last (h : disk.resolve false ⟨absolute, init⟩ = .ok loc) (name : String) :
    ∃ left, disk.resolve false ⟨absolute, init ++ [.name name]⟩ =
      disk.tree.walk false left loc [.name name] := by
  obtain ⟨start, hstart, -, hreaches⟩ := resolve_eq_ok_iff.1 h
  obtain ⟨left, -, hwalk⟩ := FileTree.walk_last hreaches.walk_eq name
  refine ⟨left, ?_⟩
  unfold resolve
  rw [show disk.start ⟨absolute, init ++ [.name name]⟩ = .ok start from hstart]
  exact hwalk false

/-- The place of a path at which there is nothing is in the directory that the other parts lead
to. -/
theorem place_of_missing (h : disk.place path = .ok loc) (hnode : disk.tree.node loc = none)
    (hparts : path.components = init ++ [.name name]) :
    ∃ dir, disk.resolve false ⟨path.absolute, init⟩ = .ok dir ∧
      disk.tree.node dir = some .directory ∧ loc = dir ++ [name] := by
  unfold place at h
  cases hstart : disk.start path with
  | error stop => simp [hstart] at h
  | ok start =>
    rw [hstart] at h
    dsimp only at h
    have hresolves : ∀ parts dest, disk.tree.walk false maxLinks start parts = .ok dest →
        disk.resolve false ⟨path.absolute, parts⟩ = .ok dest := by
      intro parts dest hwalk
      unfold resolve
      rwa [show disk.start ⟨path.absolute, parts⟩ = .ok start from hstart]
    obtain ⟨first, last, hlast⟩ | hno := FileTree.ends_in_name_or path.parts
    · rw [hlast] at h
      obtain ⟨dir, hwalk, hdir, rfl⟩ := FileTree.place_name_eq_ok_iff.1 h
      have hcomponents : path.components =
          (⟨path.absolute, first⟩ : UnixPath).components ++ [.name last] := by
        simp [UnixPath.components, hlast]
      obtain ⟨rfl, hname⟩ := List.append_inj' (hparts.symm.trans hcomponents) rfl
      obtain rfl : name = last := by simpa using hname
      exact ⟨dir, resolve_components (hresolves _ _ hwalk), hdir, rfl⟩
    · rw [FileTree.place_of_no_name hno] at h
      exact absurd hnode (node_of_resolve (hresolves _ _ h))

/-- A directory that is made at the place of a path is what the path leads to. -/
theorem resolve_made (h : disk.place path = .ok loc) (hnode : disk.tree.node loc = none)
    (hparts : path.components = init ++ [.name name]) :
    (disk.makeDirectory loc).resolve false ⟨path.absolute, init ++ [.name name]⟩ = .ok loc := by
  obtain ⟨dir, hinit, hdir, rfl⟩ := place_of_missing h hnode hparts
  have hgrows := growsTo_makeDirectory hnode
  have hput : disk.tree.CanPut (dir ++ [name]) := by
    refine ⟨by simp, ?_, by simp [hnode]⟩
    rwa [List.dropLast_concat]
  obtain ⟨left, hleft⟩ := resolve_last (hgrows.resolve hinit) name
  have hdir' : (disk.makeDirectory (dir ++ [name])).tree.node dir = some .directory := by
    rw [hgrows.extends_tree _ (by simp [hdir]), hdir]
  rw [hleft, FileTree.walk_name hdir' (node_makeDirectory hput) (by simp), FileTree.walk_nil]

/-- A path that does not end in a `.` and whose other parts lead to a directory has a place. -/
theorem place_of_directory (hends : path.parts.getLast? ≠ some .self)
    (hparts : path.components = init ++ [.name name])
    (h : disk.resolve false ⟨path.absolute, init⟩ = .ok loc)
    (hdir : disk.tree.node loc = some .directory) : disk.place path = .ok (loc ++ [name]) := by
  obtain ⟨first, last, hlast⟩ | hno := FileTree.ends_in_name_or path.parts
  · have hcomponents : path.components =
        (⟨path.absolute, first⟩ : UnixPath).components ++ [.name last] := by
      simp [UnixPath.components, hlast]
    obtain ⟨rfl, hname⟩ := List.append_inj' (hparts.symm.trans hcomponents) rfl
    obtain rfl : name = last := by simpa using hname
    have hfirst : disk.resolve false ⟨path.absolute, first⟩ = .ok loc :=
      resolve_of_components h hdir
    obtain ⟨start, hstart, -, hreaches⟩ := resolve_eq_ok_iff.1 hfirst
    unfold place
    rw [show disk.start path = .ok start from hstart, hlast]
    exact FileTree.place_name_eq_ok_iff.2 ⟨loc, hreaches.walk_eq, hdir, rfl⟩
  · exfalso
    obtain hnil | ⟨first, part, hlast⟩ := List.eq_nil_or_concat path.parts
    · simp [UnixPath.components, hnil] at hparts
    · rw [List.concat_eq_append] at hlast
      cases part with
      | self => simp [hlast] at hends
      | name last => simp [hlast] at hno
      | up => simp [UnixPath.components, hlast] at hparts

/-- Where the place of a path was not found, what it leads to once its directory is there is new. -/
theorem leadsAsBefore_of_notFound (h : disk.GrowsTo more) (hends : path.parts.getLast? ≠ some .self)
    (hparts : path.components = init ++ [.name name]) (hplace : disk.place path = .error .notFound)
    (hinit : LeadsAsBefore disk more ⟨path.absolute, init⟩) :
    LeadsAsBefore disk more ⟨path.absolute, init ++ [.name name]⟩ := by
  intro loc hloc
  obtain ⟨dir, hdir⟩ := resolve_of_append hloc
  obtain ⟨left, hleft⟩ := resolve_last hdir name
  rw [hleft] at hloc
  have hdirectory : more.tree.node dir = some .directory := by
    by_contra hnot
    rw [FileTree.walk_cons_of_not_directory hnot] at hloc
    cases hloc
  obtain hbefore | hnew := hinit dir hdir
  · have hthere : disk.tree.node dir = some .directory := by
      rw [← h.extends_tree dir (node_of_resolve hbefore), hdirectory]
    rw [place_of_directory hends hparts hbefore hthere] at hplace
    cases hplace
  · -- the directory is new, and so is all that is in it
    have hmissing : disk.tree.node (dir ++ [name]) = none := by
      by_contra hnode
      rw [disk.tree.closed dir name hnode] at hnew
      cases hnew
    refine .inr ?_
    cases hnode : more.tree.node (dir ++ [name]) with
    | none =>
      rw [FileTree.walk_missing hdirectory hnode] at hloc
      simp at hloc
    | some node =>
      have hlink : ∀ target, node ≠ .link target := by
        rintro target rfl
        rw [h.links _ _ hnode] at hmissing
        cases hmissing
      rw [FileTree.walk_name hdirectory hnode hlink, FileTree.walk_nil] at hloc
      exact Except.ok.inj hloc ▸ hmissing

/-- What is made of a disk at a path, once the directories that its other parts name were made. -/
theorem leadsAsBefore_of_makesAt {mid : Disk} {names : List String} {base : List Part}
    (hgrows : disk.GrowsTo mid) (hmakes : Call.MakesAt mid more path)
    (hparts : path.components = base ++ (names ++ [name]).map .name)
    (hinit : ∀ some, some <+: names →
      LeadsAsBefore disk mid ⟨path.absolute, base ++ some.map .name⟩)
    (hsame : more = mid → LeadsAsBefore disk mid
      ⟨path.absolute, base ++ (names ++ [name]).map .name⟩) :
    disk.GrowsTo more ∧ ∀ some, some <+: names ++ [name] →
      LeadsAsBefore disk more ⟨path.absolute, base ++ some.map .name⟩ := by
  have hsplit :
      base ++ (names ++ [name]).map .name = (base ++ names.map .name) ++ [.name name] := by simp
  obtain rfl | ⟨loc, hplace, hnode, rfl⟩ := hmakes
  · refine ⟨hgrows, fun some hsome => ?_⟩
    obtain rfl | hsome := List.prefix_concat_iff.1 hsome
    · exact hsame rfl
    · exact hinit some hsome
  · have hmade := growsTo_makeDirectory hnode
    refine ⟨hgrows.trans hmade, fun some hsome => ?_⟩
    rw [hsplit] at hparts
    obtain rfl | hsome := List.prefix_concat_iff.1 hsome
    · intro dest hdest
      rw [hsplit, resolve_made hplace hnode hparts] at hdest
      exact .inr (Except.ok.inj hdest ▸ hgrows.missing hnode)
    · -- a part of the way was there when the last directory was made
      obtain ⟨dir, hdir, -, -⟩ := place_of_missing hplace hnode hparts
      obtain ⟨rest, rfl⟩ := hsome
      rw [List.map_append, ← List.append_assoc] at hdir
      obtain ⟨between, hbetween⟩ := resolve_of_append hdir
      intro dest hdest
      rw [hmade.resolve hbetween] at hdest
      exact hinit some (List.prefix_append _ _) dest (Except.ok.inj hdest ▸ hbetween)

end

theorem LeadsAsBefore.refl (disk : Disk) (path : UnixPath) : LeadsAsBefore disk disk path :=
  fun _ hloc => .inl hloc

theorem LeadsAsBefore.trans {most : Disk} (h : LeadsAsBefore disk more path)
    (hgrows : disk.GrowsTo more) (hmore : LeadsAsBefore more most path) :
    LeadsAsBefore disk most path := by
  intro loc hloc
  obtain hbefore | hnew := hmore loc hloc
  · exact h loc hbefore
  · exact .inr (hgrows.missing hnew)

/-- A path that leads somewhere has a place. -/
theorem place_of_resolve (h : disk.resolve false path = .ok loc) :
    ∃ entry, disk.place path = .ok entry := by
  obtain ⟨start, hstart, -, hreaches⟩ := resolve_eq_ok_iff.1 h
  unfold place
  rw [hstart]
  exact FileTree.place_of_walk hreaches.walk_eq

section

variable {s t : Session} {names : List String} {base : List Part}

/-- What the names lead to when no other directory had to be made. -/
theorem leadsAsBefore_of_makesAt_only (hparts : path.components = base ++ names.map .name)
    (hbase : s.disk.resolve false ⟨path.absolute, base⟩ = .ok loc)
    (hmakes : Call.MakesAt s.disk t.disk path) :
    s.disk.GrowsTo t.disk ∧ ∀ some, some <+: names →
      LeadsAsBefore s.disk t.disk ⟨path.absolute, base ++ some.map .name⟩ := by
  cases names using List.reverseRecOn with
  | nil =>
    have hgrows : s.disk.GrowsTo t.disk := by
      obtain hsame | ⟨loc, -, hnode, hmade⟩ := hmakes
      · exact hsame ▸ .refl _
      · exact hmade ▸ growsTo_makeDirectory hnode
    refine ⟨hgrows, fun some hsome => ?_⟩
    rw [List.prefix_nil.1 hsome, List.map_nil, List.append_nil]
    exact hgrows.leadsAsBefore hbase
  | append_singleton names name =>
    exact leadsAsBefore_of_makesAt (.refl _) hmakes hparts
      (fun some _ => .refl _ _) (fun _ => .refl _ _)

/-- To make the directories of a path that goes on with names from a directory that is there makes
the disk grow, and what the names lead to they led to before, or it is new: by induction on how many
directories may be missing. -/
theorem createDirsUpTo_ok {n : ℕ} (hends : path.parts.getLast? ≠ some .self)
    (hparts : path.components = base ++ names.map .name)
    (hbase : s.disk.resolve false ⟨path.absolute, base⟩ = .ok loc)
    (hloc : s.disk.tree.node loc = some .directory)
    (h : Call.createDirsUpTo n path s = .ok () t) :
    s.disk.GrowsTo t.disk ∧ ∀ some, some <+: names →
      LeadsAsBefore s.disk t.disk ⟨path.absolute, base ++ some.map .name⟩ := by
  induction n generalizing path names t with
  | zero =>
    unfold Call.createDirsUpTo at h
    split at h
    · obtain hmakes | ⟨-, made, hmade, -⟩ := Call.createDirs_ok h
      · exact leadsAsBefore_of_makesAt_only hparts hbase hmakes
      · cases hmade
    · cases h
      exact leadsAsBefore_of_makesAt_only hparts hbase (.inl rfl)
  | succ n ih =>
    obtain hmakes | ⟨hplace, made, hmade, hmakes⟩ := Call.createDirs_ok h
    · exact leadsAsBefore_of_makesAt_only hparts hbase hmakes
    cases names using List.reverseRecOn with
    | nil =>
      rw [List.map_nil, List.append_nil] at hparts
      obtain ⟨entry, hentry⟩ := place_of_resolve (resolve_of_components (hparts ▸ hbase) hloc)
      rw [hentry] at hplace
      cases hplace
    | append_singleton names name =>
      have hsplit : path.components = (base ++ names.map .name) ++ [.name name] := by
        simp [hparts]
      have hparent : path.components.dropLast = base ++ names.map .name := by
        rw [hsplit, List.dropLast_concat]
      have hself : ∀ part ∈ path.components.dropLast, part ≠ .self := fun part hpart => by
        simpa using (List.mem_filter.1 (List.dropLast_subset _ hpart)).2
      let parent : UnixPath := { path with parts := path.components.dropLast }
      have hends' : parent.parts.getLast? ≠ some .self := fun hlast =>
        hself _ (List.mem_of_getLast? hlast) rfl
      have hparts' : parent.components = base ++ names.map .name := by
        rw [← hparent]
        exact List.filter_eq_self.2 fun part hpart => by simpa using hself part hpart
      obtain ⟨hgrows, hleads⟩ := ih hends' hparts' hbase hmade
      refine leadsAsBefore_of_makesAt hgrows hmakes hparts hleads fun _ => ?_
      have hlast := leadsAsBefore_of_notFound hgrows hends hsplit hplace
        (hleads names List.prefix_rfl)
      rwa [hsplit.symm.trans hparts] at hlast

end

end Disk
