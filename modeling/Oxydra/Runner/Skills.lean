import Oxydra.Library.Placeholders
import Oxydra.Library.TextSearch

/-!
# Skills in the system prompt

`crates/runner/src/skills.rs` looks for skills in the files that are built in and in up to four
directories, keeps one of each name, evaluates which of them are active, and puts their contents,
with the placeholders replaced, behind the system prompt.

A directory is the list of its entries in the order in which they are read. The order in which a
`HashMap` gives its values is a parameter, and an environment is the list of its entries in the
order in which they are iterated. What `gray_matter` reads of a file is a parameter too. Left out
are the description of a skill and the path of its file, which do not reach the prompt.
-/

namespace Oxydra

open Text

inductive SkillActivation where
  | auto
  | manual
  | always
  deriving DecidableEq, Repr

structure SkillMetadata where
  name : String
  activation : SkillActivation := .auto
  requires : List String := []
  env_vars : List String := []
  priority : ℤ := 100
  deriving DecidableEq, Repr

structure Skill where
  metadata : SkillMetadata
  content : String
  deriving DecidableEq, Repr

structure RenderedSkill where
  name : String
  content : String
  priority : ℤ
  deriving DecidableEq, Repr

/-- Whether the sessions of `ToolAvailability` are ready. -/
structure ToolAvailability where
  shell : Bool
  browser : Bool
  deriving DecidableEq, Repr

/-! ## Reading a skill -/

/-- `MAX_SKILL_TOKENS`. -/
def maxSkillTokens : ℕ := 3000

/-- `CHARS_PER_TOKEN`. -/
def charsPerToken : ℕ := 4

inductive SkillValidationError where
  | parse (message : String)
  | tokenCap (estimated max : ℕ)
  deriving DecidableEq, Repr

/-- `Matter::parse`: the metadata, where there is a front matter, and the rest of the text. -/
abbrev FrontMatter := String → Except String (Option SkillMetadata × String)

section

variable (matter : FrontMatter)

/-- `validate_skill_content`. -/
def validateSkillContent (raw : String) : Except SkillValidationError Skill :=
  match matter raw with
  | .error message => .error (.parse message)
  | .ok (none, _) => .error (.parse "missing YAML frontmatter")
  | .ok (some metadata, content) =>
    let estimated_tokens := content.utf8ByteSize / charsPerToken
    if maxSkillTokens < estimated_tokens then .error (.tokenCap estimated_tokens maxSkillTokens)
    else .ok { metadata, content }

/-- `parse_skill_file`, of a file with this text, if it can be read. An error is logged, and the
file is skipped. -/
def parseSkillFile (text : Option String) : Option Skill :=
  text.bind fun raw => (validateSkillContent matter raw).toOption

end

/-- `Path::extension` of a file name. -/
def extension (name : String) : Option String :=
  let reversed := name.toList.reverse
  match reversed.dropWhile (· ≠ '.') with
  | [] | ['.'] => none
  | _ => some (String.ofList (reversed.takeWhile (· ≠ '.')).reverse)

/-- `is_skill_file`, of a file. -/
def isSkillFile (name : String) : Bool :=
  (extension name).any fun ext => asciiLower ext = "md"

/-- An entry of a skill directory: a directory with its `SKILL.md`, if that is a file; a file with
its name; or something else. A text is missing where it cannot be read. -/
inductive SkillEntry where
  | folder (skill_file : Option (Option String))
  | file (name : String) (text : Option String)
  | other
  deriving DecidableEq, Repr

/-- A file that is built in, with the components of its path. -/
structure BuiltinFile where
  components : List String
  text : String
  deriving DecidableEq, Repr

/-! ## Discovery -/

section

variable (matter : FrontMatter)

/-- The skill of an entry. -/
def SkillEntry.skill : SkillEntry → Option Skill
  | folder skill_file => skill_file.bind (parseSkillFile matter)
  | file name text => if isSkillFile name then parseSkillFile matter text else none
  | other => none

/-- The skill of a file that is built in. -/
def BuiltinFile.skill (file : BuiltinFile) : Option Skill :=
  let is_folder_skill := file.components.length = 2 ∧ file.components.getLast? = some "SKILL.md"
  let is_bare_skill := file.components.length = 1 ∧ file.components.getLast?.any isSkillFile
  if is_folder_skill ∨ is_bare_skill then parseSkillFile matter (some file.text) else none

/-- The skills by their names. -/
abbrev SkillsByName := List (String × Skill)

/-- `skills_by_name.insert`. -/
def SkillsByName.insert (skills : SkillsByName) (skill : Skill) : SkillsByName :=
  Fields.insert skill.metadata.name skill skills

/-- `discover_embedded_skills`. -/
def discoverEmbeddedSkills (builtin : List BuiltinFile) : SkillsByName :=
  builtin.foldl (fun skills file => (file.skill matter).elim skills skills.insert) []

/-- The directories of the skills. One is missing if it is not given, does not exist or cannot be
read. -/
structure SkillDirs where
  system : Option (List SkillEntry) := none
  user : Option (List SkillEntry) := none
  user_home : Option (List SkillEntry) := none
  workspace : Option (List SkillEntry) := none
  deriving DecidableEq, Repr

/-- The directories from the lowest precedence to the highest. -/
def SkillDirs.all (dirs : SkillDirs) : List (Option (List SkillEntry)) :=
  [dirs.system, dirs.user, dirs.user_home, dirs.workspace]

/-- The skills by their names after all directories. -/
def skillsByName (builtin : List BuiltinFile) (dirs : SkillDirs) : SkillsByName :=
  (dirs.all.filterMap id).foldl
    (fun skills entries =>
      entries.foldl (fun skills entry => (entry.skill matter).elim skills skills.insert) skills)
    (discoverEmbeddedSkills matter builtin)

/-- `discover_skills`. `order` is the order in which the map gives its values. -/
def discoverSkills (order : List Skill → List Skill) (builtin : List BuiltinFile)
    (dirs : SkillDirs) : List Skill :=
  (order ((skillsByName matter builtin dirs).map Prod.snd)).mergeSort
    fun a b => a.metadata.priority ≤ b.metadata.priority

end

/-! ## The prompt -/

/-- `is_tool_ready`. -/
def isToolReady (tool_name : String) (availability : ToolAvailability) : Bool :=
  match tool_name with
  | "shell_exec" => availability.shell
  | "browser" => availability.browser
  | _ => false

/-- Whether the conditions of a skill are met. -/
def Skill.isActive (availability : ToolAvailability) (env : List (String × String))
    (skill : Skill) : Bool :=
  match skill.metadata.activation with
  | .always => true
  | .manual => false
  | .auto =>
    skill.metadata.requires.all (isToolReady · availability) &&
      skill.metadata.env_vars.all fun var => (env.lookup var).isSome

/-- `evaluate_activation`. -/
def evaluateActivation (skills : List Skill) (availability : ToolAvailability)
    (env : List (String × String)) : List Skill :=
  skills.filter (·.isActive availability env)

/-- The placeholder of a variable. -/
def envPlaceholder (key : String) : List Char := '{' :: '{' :: key.toList ++ ['}', '}']

/-- `render_skill`. -/
def renderSkill (skill : Skill) (env : List (String × String)) : RenderedSkill where
  name := skill.metadata.name
  content := String.ofList (env.foldl
    (fun content field =>
      Replacement.replace (envPlaceholder field.1) field.2.toList content) skill.content.toList)
  priority := skill.metadata.priority

/-- `format_skills_prompt`. -/
def formatSkillsPrompt (skills : List RenderedSkill) : String :=
  if skills = [] then ""
  else String.join ("\n\n## Active Skills" :: skills.map fun skill => "\n" ++ trim skill.content)

/-- `load_and_render_skills`. -/
def loadAndRenderSkills (matter : FrontMatter) (order : List Skill → List Skill)
    (builtin : List BuiltinFile) (dirs : SkillDirs) (availability : ToolAvailability)
    (env : List (String × String)) : String :=
  let skills := discoverSkills matter order builtin dirs
  let active := evaluateActivation skills availability env
  formatSkillsPrompt (active.map (renderSkill · env))

end Oxydra
