import Oxydra.Library.FrontMatter
import Oxydra.Runner.Skills
import Oxydra.Types.Model

/-!
# Skill files that the agent writes

`crates/tools/src/skill_tools.rs` writes skills into the directory of the workspace: `skill_create`
puts a front matter together from the fields it is given, and `skill_update` reads the file back,
merges the given fields over it and writes it again. Both validate what they are about to write with
the reader of the skill loader (`crates/types/src/skill.rs`).

The model starts from the arguments once they are parsed. A directory is the list of its entries,
in an order that a parameter may change, as `read_dir` promises none. The reader of front matters
is a parameter. Left out are faults of the file system; and the checks that a path with a valid
name stays in the directory, which never fail.
-/

namespace Oxydra

/-- `SkillMetadata`, with the description, which the prompt does not use. -/
structure DescribedMetadata extends SkillMetadata where
  description : String
  deriving DecidableEq, Repr

/-- `Skill`, with the description. -/
structure DescribedSkill where
  metadata : DescribedMetadata
  content : String
  deriving DecidableEq, Repr

/-- `Matter::parse`: the metadata, where there is a front matter, and the rest of the text. -/
abbrev DescribedFrontMatter := String → Except String (Option DescribedMetadata × String)

/-- The text of an error of the validation. -/
def SkillValidationError.display (path : String) : SkillValidationError → String
  | parse message => "failed to parse skill at " ++ path ++ ": " ++ message
  | tokenCap estimated max => "skill at " ++ path ++ " exceeds token cap (" ++
      toString estimated ++ " estimated > " ++ toString max ++ " max)"

/-- `validate_skill_content`, with the description. -/
def validateSkillFile (matter : DescribedFrontMatter) (raw : String) :
    Except SkillValidationError DescribedSkill :=
  match matter raw with
  | .error message => .error (.parse message)
  | .ok (none, _) => .error (.parse "missing YAML frontmatter")
  | .ok (some metadata, content) =>
    let estimated_tokens := content.utf8ByteSize / charsPerToken
    if maxSkillTokens < estimated_tokens then .error (.tokenCap estimated_tokens maxSkillTokens)
    else .ok { metadata, content }

/-! ## The metadata of a front matter -/

section

open Yaml

/-- A value that is a text. -/
def textOfNode : Node → Option String
  | .scalar (.str text) => some (String.ofList text)
  | _ => none

/-- A value that is a list of texts. -/
def textsOfNode : Node → Option (List String)
  | .sequence items => items.mapM fun item => textOfNode (.scalar item)
  | _ => none

/-- A value that is a mode of activation. -/
def activationOfNode (node : Node) : Option SkillActivation :=
  match textOfNode node with
  | some "auto" => some .auto
  | some "manual" => some .manual
  | some "always" => some .always
  | _ => none

/-- A value that is an integer of 32 bits. -/
def priorityOfNode : Node → Option ℤ
  | .scalar (.int value) => if -2 ^ 31 ≤ value ∧ value < 2 ^ 31 then some value else none
  | _ => none

/-- A field, or what it is where it is missing. -/
def fieldOf {β : Type} (entries : Mapping) (key : String) (read : Node → Option β)
    (missing : Option β) : Option β :=
  (entries.lookup key.toList).elim missing read

/-- `SkillMetadata`, deserialized. The environment variables have two names, and only one of them
may be there. -/
def metadataOf (entries : Mapping) : Option DescribedMetadata := do
  let name ← fieldOf entries "name" textOfNode none
  let description ← fieldOf entries "description" textOfNode none
  let activation ← fieldOf entries "activation" activationOfNode (some .auto)
  let requires ← fieldOf entries "requires" textsOfNode (some [])
  let env_vars ← match entries.lookup "env_vars".toList, entries.lookup "env".toList with
    | some _, some _ => none
    | some node, none | none, some node => textsOfNode node
    | none, none => some []
  let priority ← fieldOf entries "priority" priorityOfNode (some 100)
  some { name, description, activation, requires, env_vars, priority }

end

/-! ## Checks and texts -/

/-- `MAX_NAME_LEN`. -/
def maxNameLen : ℕ := 64

/-- The characters of a skill name behind the first one. -/
def isNameChar (c : Char) : Bool := c.isLower || c.isDigit || c == '-'

/-- `validate_skill_name`. -/
def validateSkillName (name : String) : Except String Unit :=
  match name.toList with
  | [] => .error "skill name must not be empty"
  | first :: chars =>
    if maxNameLen < name.utf8ByteSize then
      .error ("skill name must be at most " ++ toString maxNameLen ++ " characters, got " ++
        toString name.utf8ByteSize)
    else if Text.contains "/" name ∨ Text.contains "\\" name ∨ Text.contains ".." name ∨
        Text.contains "\x00" name then
      .error "skill name must not contain '/', '\\', '..', or null bytes"
    else if ¬first.isLower ∧ ¬first.isDigit then
      .error ("skill name must start with a lowercase letter or digit, got '" ++
        String.singleton first ++ "'. Expected pattern: ^[a-z0-9][a-z0-9-]*$")
    else
      match chars.find? (! isNameChar ·) with
      | some ch => .error ("skill name contains invalid character '" ++ String.singleton ch ++
          "'. Expected pattern: ^[a-z0-9][a-z0-9-]*$")
      | none => .ok ()

/-- `parse_activation`. -/
def parseActivation (s : String) : Except String SkillActivation :=
  match s with
  | "auto" => .ok .auto
  | "manual" => .ok .manual
  | "always" => .ok .always
  | other => .error ("invalid activation mode '" ++ other ++
      "'; expected 'auto', 'manual', or 'always'")

/-- The text of a mode of activation. -/
def SkillActivation.text : SkillActivation → String
  | auto => "auto"
  | manual => "manual"
  | always => "always"

/-- A list of a front matter, which is left out where it is empty. -/
def assembleList (key : String) (items : List String) : String :=
  if items = [] then ""
  else key ++ ":\n" ++ String.join (items.map fun item => "  - " ++ item ++ "\n")

/-- `assemble_skill_file`. -/
def assembleSkillFile (metadata : DescribedMetadata) (content : String) : String :=
  "---\n" ++
  ("name: " ++ metadata.name ++ "\n") ++
  ("description: \"" ++ String.ofList (Yaml.escapeQuotes metadata.description.toList) ++ "\"\n") ++
  ("activation: " ++ metadata.activation.text ++ "\n") ++
  assembleList "requires" metadata.requires ++
  assembleList "env_vars" metadata.env_vars ++
  ("priority: " ++ toString metadata.priority ++ "\n") ++
  "---\n" ++
  "\n" ++ content

/-! ## The directory -/

/-- An entry of the directory under its name: a directory with its `SKILL.md`, if that is a file; a
file; or something else. A text is missing where it cannot be read. -/
inductive SkillItem where
  | folder (skill_file : Option (Option String))
  | file (text : Option String)
  | other
  deriving DecidableEq, Repr

/-- The directory of the skills. One that does not exist is empty. -/
abbrev SkillsDir := List (String × SkillItem)

/-- The text of an entry that may be a skill. -/
def SkillItem.raw (name : String) : SkillItem → Option String
  | folder skill_file => skill_file.join
  | file text => if isSkillFile name then text else none
  | other => none

/-- The path of the file of an entry. -/
def SkillItem.path (skills_dir name : String) : SkillItem → String
  | folder _ => skills_dir ++ "/" ++ name ++ "/SKILL.md"
  | _ => skills_dir ++ "/" ++ name

/-- The entry with another text in its file. -/
def SkillItem.write (text : String) : SkillItem → SkillItem
  | folder _ => folder (some (some text))
  | file _ => file (some text)
  | other => other

/-- The directory with another text in the file of an entry. -/
def SkillsDir.write (name text : String) (dir : SkillsDir) : SkillsDir :=
  dir.map fun (file, item) => if file = name then (file, item.write text) else (file, item)

/-- `ensure_target_path_absent`. -/
def ensureTargetPathAbsent (skills_dir : String) (dir : SkillsDir) (name : String) :
    Except String Unit :=
  if dir.any (·.1 = name) then
    .error ("a skill path already exists at " ++ skills_dir ++ "/" ++ name ++
      ". Use skill_update to modify an existing skill or remove the file before creating a new " ++
      "one.")
  else if dir.any (·.1 = name ++ ".md") then
    .error ("a legacy skill file already exists at " ++ skills_dir ++ "/" ++ name ++ ".md" ++
      ". Use skill_update to modify an existing skill or remove the file before creating a new " ++
      "one.")
  else .ok ()

/-! ## The tools -/

structure SkillCreateArgs where
  name : String
  description : String
  content : String
  activation : Option String := none
  requires : Option (List String) := none
  env_vars : Option (List String) := none
  priority : Option Int32 := none
  deriving DecidableEq, Repr

structure SkillUpdateArgs where
  name : String
  description : Option String := none
  content : Option String := none
  activation : Option String := none
  requires : Option (List String) := none
  env_vars : Option (List String) := none
  priority : Option Int32 := none
  deriving DecidableEq, Repr

/-- `SKILL_CREATE_TOOL_NAME`. -/
def skillCreateToolName : String := "skill_create"

/-- `SKILL_UPDATE_TOOL_NAME`. -/
def skillUpdateToolName : String := "skill_update"

/-- The metadata of a new skill. -/
def SkillCreateArgs.metadata (request : SkillCreateArgs) (activation : SkillActivation) :
    DescribedMetadata where
  name := request.name
  description := request.description
  activation := activation
  requires := request.requires.getD []
  env_vars := request.env_vars.getD []
  priority := (request.priority.map Int32.toInt).getD 100

/-- Whether a request has a field to update. -/
def SkillUpdateArgs.hasUpdates (request : SkillUpdateArgs) : Bool :=
  request.description.isSome || request.content.isSome || request.activation.isSome ||
    request.requires.isSome || request.env_vars.isSome || request.priority.isSome

/-- The metadata with the fields of the request over it. -/
def SkillUpdateArgs.merged (request : SkillUpdateArgs) (existing : DescribedMetadata)
    (activation : SkillActivation) : DescribedMetadata where
  name := existing.name
  description := request.description.getD existing.description
  activation := activation
  requires := request.requires.getD existing.requires
  env_vars := request.env_vars.getD existing.env_vars
  priority := (request.priority.map Int32.toInt).getD existing.priority

/-- The activation of a request, or the one it has otherwise. -/
def requestedActivation (tool : String) (activation : Option String)
    (otherwise : SkillActivation) : Except ToolError SkillActivation :=
  match activation with
  | some s => (parseActivation s).mapError (.invalidArguments tool)
  | none => .ok otherwise

section

variable (matter : DescribedFrontMatter) (order : SkillsDir → SkillsDir) (skills_dir : String)

/-- The skill of an entry if it has the name: the name of the entry, its path and the skill. -/
def skillNamed (name : String) (entry : String × SkillItem) :
    Option (String × String × DescribedSkill) :=
  (entry.2.raw entry.1).bind fun raw =>
    match validateSkillFile matter raw with
    | .ok skill =>
      if skill.metadata.name = name then
        some (entry.1, entry.2.path skills_dir entry.1, skill)
      else none
    | .error _ => none

/-- `resolve_skill_path_by_metadata`. -/
def resolveSkillPathByMetadata (dir : SkillsDir) (name : String) :
    Option (String × String × DescribedSkill) :=
  (order dir).findSome? (skillNamed matter skills_dir name)

/-- `SkillCreateTool::execute`, on the arguments: the answer, and the directory afterwards. -/
def skillCreate (request : SkillCreateArgs) (dir : SkillsDir) :
    Except ToolError (String × SkillsDir) := do
  let invalid := ToolError.invalidArguments skillCreateToolName
  (validateSkillName request.name).mapError invalid
  if (resolveSkillPathByMetadata matter order skills_dir dir request.name).isSome then
    throw (invalid ("a skill named '" ++ request.name ++ "' already exists in the workspace. " ++
      "Use skill_update to modify it."))
  let activation ← requestedActivation skillCreateToolName request.activation .auto
  let full_content := assembleSkillFile (request.metadata activation) request.content
  let target_path := skills_dir ++ "/" ++ request.name ++ "/SKILL.md"
  (ensureTargetPathAbsent skills_dir dir request.name).mapError invalid
  let _ ← (validateSkillFile matter full_content).mapError fun err =>
    invalid (err.display target_path)
  return ("Skill '" ++ request.name ++ "' created at " ++ target_path ++
    ". It will be active in the next session.",
    dir ++ [(request.name, .folder (some (some full_content)))])

/-- `SkillUpdateTool::execute`, on the arguments: the answer, and the directory afterwards. -/
def skillUpdate (request : SkillUpdateArgs) (dir : SkillsDir) :
    Except ToolError (String × SkillsDir) := do
  let invalid := ToolError.invalidArguments skillUpdateToolName
  if !request.hasUpdates then
    throw (invalid ("at least one field (description, content, activation, requires, env_vars, " ++
      "priority) must be provided to update"))
  match resolveSkillPathByMetadata matter order skills_dir dir request.name with
  | none =>
    throw (invalid ("no skill named '" ++ request.name ++
      "' found in the workspace skills directory. Only workspace-scoped skills can be updated. " ++
      "Use skill_create to create a workspace override for a system/user skill."))
  | some (file, existing_path, existing) =>
    let activation ← requestedActivation skillUpdateToolName request.activation
      existing.metadata.activation
    let merged_metadata := request.merged existing.metadata activation
    let merged_content := request.content.getD existing.content
    let full_content := assembleSkillFile merged_metadata merged_content
    let _ ← (validateSkillFile matter full_content).mapError fun err =>
      invalid (err.display existing_path)
    return ("Skill '" ++ request.name ++ "' updated at " ++ existing_path ++
      ". Changes will be active in the next session.", dir.write file full_content)

/-- A skill that is created, and then updated any number of times: the directory afterwards. -/
def skillRun (create : SkillCreateArgs) (updates : List SkillUpdateArgs) (dir : SkillsDir) :
    Except ToolError SkillsDir := do
  let (_, created) ← skillCreate matter order skills_dir create dir
  updates.foldlM (fun dir update => do
    let (_, updated) ← skillUpdate matter order skills_dir update dir
    return updated) created

end

end Oxydra
