import Mathlib.Data.List.Basic

/-!
# Unix paths

A path text as `std::path` reads it: separators that follow each other count once, a `.` says
nothing but that a directory stands before it, and `..` stays where it is. `parent` and `fileName`
are lexical; they look at no file.
-/

namespace UnixPath

/-- A segment of a path between two separators. -/
inductive Part where
  | self
  | up
  | name (name : String)
  deriving DecidableEq, Repr

/-- A segment as it is written; an empty one is no part. -/
def Part.ofSegment (segment : List Char) : Option Part :=
  if segment = [] then none
  else if segment = ['.'] then some .self
  else if segment = ['.', '.'] then some .up
  else some (.name (String.ofList segment))

end UnixPath

/-- A path: its parts, from the root or from the current directory. -/
structure UnixPath where
  absolute : Bool
  parts : List UnixPath.Part
  deriving DecidableEq, Repr

namespace UnixPath

/-- The path that a text is; a separator at its end asks for a directory, as a `.` there does. -/
def parse (text : String) : UnixPath where
  absolute := text.toList.head? = some '/'
  parts := (text.toList.splitOn '/').filterMap Part.ofSegment ++
    if text.toList.getLast? = some '/' then [.self] else []

/-- `Path::components`, but for the root and a `.` in front. -/
def components (path : UnixPath) : List Part := path.parts.filter (· ≠ .self)

/-- `Path::file_name`. -/
def fileName (path : UnixPath) : Option String :=
  match path.components.getLast? with
  | some (.name name) => some name
  | _ => none

/-- `Path::parent`, of an absolute path. -/
def parent (path : UnixPath) : Option UnixPath :=
  if path.components = [] then none
  else some { path with parts := path.components.dropLast }

/-- The parts of a path text but for `.` are those of its segments. -/
theorem components_parse (text : List Char) : (parse (String.ofList text)).components =
    ((text.splitOn '/').filterMap Part.ofSegment).filter (· ≠ .self) := by
  unfold components parse
  rw [String.toList_ofList, List.filter_append]
  split_ifs <;> simp

/-- A separator in front is no part. -/
theorem components_parse_slash (text : List Char) :
    (parse (String.ofList ('/' :: text))).components = (parse (String.ofList text)).components := by
  have hsplit : ('/' :: text).splitOn '/' = [] :: text.splitOn '/' :=
    List.splitOn_append_cons_self [] text
  simp only [components_parse, hsplit, List.filterMap_cons, Part.ofSegment, if_true]

/-- A path text that is cut at a separator has the parts of both pieces. -/
theorem components_parse_append (a : List Char) {b : List Char} (hb : ∀ c ∈ b.head?, c = '/') :
    (parse (String.ofList (a ++ b))).components =
      (parse (String.ofList a)).components ++ (parse (String.ofList b)).components := by
  cases b with
  | nil => rw [List.append_nil, show (parse (String.ofList [])).components = [] from rfl,
      List.append_nil]
  | cons c b =>
    obtain rfl := hb c rfl
    rw [components_parse_slash]
    simp only [components_parse, List.splitOn_append_cons_self, List.filterMap_append,
      List.filter_append]

/-- The file name is that of what begins with a separator, where this has parts. -/
theorem fileName_parse_append (a : List Char) {b : List Char} (hb : ∀ c ∈ b.head?, c = '/')
    (h : (parse (String.ofList b)).components ≠ []) :
    (parse (String.ofList (a ++ b))).fileName = (parse (String.ofList b)).fileName := by
  unfold fileName
  rw [components_parse_append a hb, List.getLast?_append_of_ne_nil _ h]

/-- A text without a separator is one part, and its own file name. -/
theorem components_parse_name {text : List Char} (hslash : '/' ∉ text) (hne : text ≠ [])
    (hself : text ≠ ['.']) (hup : text ≠ ['.', '.']) :
    (parse (String.ofList text)).components = [.name (String.ofList text)] := by
  have hpart : Part.ofSegment text = some (.name (String.ofList text)) := by
    rw [Part.ofSegment, if_neg hne, if_neg hself, if_neg hup]
  rw [components_parse, List.splitOn_eq_singleton hslash, List.filterMap_cons, hpart]
  rfl

example : (parse "/usr/./bin//ls/.").fileName = some "ls" := by decide
example : (parse "a/..").fileName = none ∧ (parse ".").fileName = none := by decide

end UnixPath
