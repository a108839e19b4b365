import Mathlib.Data.List.Destutter
import Mathlib.Data.String.Basic
import Oxydra.Types.Config
import Oxydra.Types.Model

/-!
# Patches of configuration files

`prepare_patch` of `crates/runner/src/web/config_write.rs` applies a JSON merge patch to the
document of a configuration file, and reads the configuration before and after it. The document is
the table that `toml_edit` parses; how it is laid out in the text stays with the text, as part of
what `TomlCrate.edited` prints.
-/

namespace Oxydra

open Toml

/-! ## The merge patch -/

/-- `SECRET_SENTINEL`. -/
def secretSentinel : String := "__UNCHANGED__"

mutual

/-- `json_to_toml_value`. -/
def jsonToTomlValue : Value → Except String Item
  | .null => .error "null values are only valid as object field removals"
  | .bool value => .ok (.boolean value)
  | .number (.integer value) =>
    if -2^63 ≤ value ∧ value < 2^63 then .ok (.integer value)
    else if 0 ≤ value ∧ value < 2^64 then
      .error s!"unsigned integer `{value}` exceeds TOML i64 range"
    else .error s!"unsupported numeric value `{value}`"
  | .number (.float value) => .ok (.float value)
  | .string value => .ok (.string value)
  | .array elements => return .array (← jsonToTomlElements elements)
  | .object fields => return .table (← jsonToTomlFields fields)

/-- The elements of an array. -/
def jsonToTomlElements : List Value → Except String (List Item)
  | [] => .ok []
  | element :: elements => return (← jsonToTomlValue element) :: (← jsonToTomlElements elements)

/-- The fields of an inline table. -/
def jsonToTomlFields : List (String × Value) → Except String Table
  | [] => .ok []
  | (field, value) :: fields => do
    let item ← jsonToTomlValue value
    return Fields.insert field item (← jsonToTomlFields fields)

end

/-- The table of an item that is like a table, and else a new one. -/
def nestedTable : Option Item → Table
  | some (.table nested) => nested
  | _ => []

mutual

/-- `apply_patch_to_table`. -/
def applyPatchToTable (secret_sentinel : String) :
    List (String × Value) → Table → Except String Table
  | [], table => .ok table
  | (key, patch_value) :: patch_obj, table => do
    applyPatchToTable secret_sentinel patch_obj
      (← applyPatchValue secret_sentinel key patch_value table)

/-- The body of its loop. -/
def applyPatchValue (secret_sentinel key : String) : Value → Table → Except String Table
  | .null, table => .ok (Fields.remove key table)
  | .object nested, table => do
    let nested_table ← applyPatchToTable secret_sentinel nested (nestedTable (table.lookup key))
    return Fields.insert key (.table nested_table) table
  | .string value, table =>
    if value = secret_sentinel then .ok table
    else return Fields.insert key (← jsonToTomlValue (.string value)) table
  | patch_value, table => return Fields.insert key (← jsonToTomlValue patch_value) table

end

/-- `apply_json_merge_patch`. -/
def applyJsonMergePatch (document : Table) (patch : Value) (secret_sentinel : String) :
    Except String Table :=
  match patch with
  | .object patch_obj => applyPatchToTable secret_sentinel patch_obj document
  | _ => .error "patch payload must be a JSON object"

/-! ## Changed fields -/

/-- What `serde_json` writes for an item of a plain type. -/
def itemToJson : Item → Value
  | .string s => .string s
  | .integer n => .number (.integer n)
  | .float x => .number (.float x)
  | .boolean b => .bool b
  | _ => .null

mutual

/-- `serde_json::to_value`. -/
def toJson : Schema → Datum → Value
  | .plain _, .plain item => itemToJson item
  | .optional inner, .plain item => toJson inner (.plain item)
  | .optional inner, .list items => toJson inner (.list items)
  | .optional inner, .record fields => toJson inner (.record fields)
  | .list inner, .list items => .array (items.map (toJson inner))
  | .map inner, .record fields => .object (fields.map fun f => (f.1, toJson inner f.2))
  | .struct _ fields, .record values => .object (toJsonFields fields values)
  | _, _ => .null

/-- What it writes for the fields of a struct. -/
def toJsonFields : List (FieldSpec Schema) → List (String × Datum) → List (String × Value)
  | [], _ => []
  | ⟨name, _, skip, schema⟩ :: fields, values =>
    match values.lookup name with
    | some d =>
      if skip d then toJsonFields fields values
      else Fields.insert name (toJson schema d) (toJsonFields fields values)
    | none => toJsonFields fields values

end

/-- Nothing is written under a name that no field has. -/
theorem not_mem_toJsonFields {fields : List (FieldSpec Schema)} {name : String}
    (h : name ∉ fields.map FieldSpec.name) (values : List (String × Datum)) :
    name ∉ Fields.keys (toJsonFields fields values) := by
  induction fields with
  | nil => exact List.not_mem_nil
  | cons field fields ih =>
    obtain ⟨hne, hrest⟩ := not_or.mp (mt List.mem_cons.mpr h)
    obtain ⟨key, default, skip, schema⟩ := field
    rw [toJsonFields]
    split
    · split_ifs
      · exact ih hrest
      · rw [Fields.mem_keys_insert, not_or]
        exact ⟨hne, ih hrest⟩
    · exact ih hrest

/-- The path of a field or an element. -/
def nextPath (path key : String) : String :=
  if path = "" then key else path ++ "." ++ key

/-- `path_or_root`. -/
def pathOrRoot (path : String) : String :=
  if path = "" then "$" else path

mutual

/-- `diff_values`: what it adds to `changed`, but for the order, which is lost in
`compute_changed_fields`. -/
def diffValues (path : String) : Value → Value → List String
  | .object before_obj, .object after_obj =>
    diffFields path after_obj before_obj ++
      ((Fields.keys after_obj).filter (· ∉ Fields.keys before_obj)).map (nextPath path)
  | .array before_arr, .array after_arr =>
    if before_arr.length ≠ after_arr.length then [pathOrRoot path]
    else diffElements path 0 before_arr after_arr
  | before, after => if before = after then [] else [pathOrRoot path]

/-- The fields of the object before. -/
def diffFields (path : String) (after_obj : List (String × Value)) :
    List (String × Value) → List String
  | [] => []
  | (key, before_value) :: before_obj =>
    (match after_obj.lookup key with
      | some after_value => diffValues (nextPath path key) before_value after_value
      | none => [nextPath path key]) ++ diffFields path after_obj before_obj

/-- The elements of two arrays. -/
def diffElements (path : String) (index : ℕ) : List Value → List Value → List String
  | before_value :: before_arr, after_value :: after_arr =>
    diffValues (nextPath path (toString index)) before_value after_value ++
      diffElements path (index + 1) before_arr after_arr
  | _, _ => []

end

/-- `compute_changed_fields`. -/
def computeChangedFields (before after : Value) : List String :=
  ((diffValues "" before after).mergeSort fun a b => !decide (b < a)).destutter (· ≠ ·)

/-! ## `prepare_patch` -/

structure ErrorResponse where
  status : ℕ
  error : String
  message : String

/-- `invalid_request`. -/
def invalidRequest (message : String) : ErrorResponse := ⟨400, "invalid_request", message⟩

/-- `config_validation_failed`. -/
def configValidationFailed (message : String) : ErrorResponse :=
  ⟨422, "config_validation_failed", message⟩

/-- `config_write_failed`. -/
def configWriteFailed (message : String) : ErrorResponse := ⟨500, "config_write_failed", message⟩

/-- What `toml`, `toml_edit`, and `serde` are asked for. -/
structure TomlCrate where
  /-- The document of a text. -/
  parse : String → Except String Table
  /-- `toml::to_string_pretty`. -/
  pretty : Table → Except String String
  /-- `DocumentMut::to_string`, of the document of a text that was changed to these tables. -/
  edited : String → Table → String
  coercions : Coercions
  /-- The error for a document that is not of a type. -/
  mismatch : Schema → Table → String

/-- `toml::from_str`. -/
def TomlCrate.fromStr (toml : TomlCrate) (schema : Schema) (text : String) :
    Except String Datum := do
  let document ← toml.parse text
  match schema.read toml.coercions (.table document) with
  | some typed => .ok typed
  | none => .error (toml.mismatch schema document)

structure PreparedPatch where
  rendered_toml : String
  changed_fields : List String
  file_exists : Bool

/-- What `read_to_string` gives of a file that exists. -/
abbrev ConfigFile := Option (Except String String)

/-- The text that is patched, and whether it is that of a file. -/
def existingToml (toml : TomlCrate) (type : ConfigType) (path : String) (file : ConfigFile) :
    Except ErrorResponse (String × Bool) :=
  match file with
  | some (.ok content) => .ok (content, true)
  | some (.error error) => .error (configWriteFailed s!"failed to read config `{path}`: {error}")
  | none => do
    let table := nestedTable (type.schema.write type.default)
    let default_toml ← (toml.pretty table).mapError fun error =>
      configWriteFailed s!"failed to render default config for patching: {error}"
    return (default_toml, false)

/-- `prepare_patch`. That a configuration cannot be converted to JSON does not happen. -/
def preparePatch (toml : TomlCrate) (type : ConfigType) (validate : Datum → Except String Unit)
    (path : String) (file : ConfigFile) (patch : Value) : Except ErrorResponse PreparedPatch := do
  let .object _ := patch | .error (invalidRequest "patch payload must be a JSON object")
  let (existing_toml, file_exists) ← existingToml toml type path file
  let before_typed ← (toml.fromStr type.schema existing_toml).mapError fun error =>
    configWriteFailed s!"failed to parse existing config `{path}` before patch: {error}"
  let document ← (toml.parse existing_toml).mapError fun error =>
    configWriteFailed s!"failed to parse config document `{path}`: {error}"
  let patched ← (applyJsonMergePatch document patch secretSentinel).mapError invalidRequest
  let rendered_toml := toml.edited existing_toml patched
  let typed_config ← (toml.fromStr type.schema rendered_toml).mapError fun error =>
    configValidationFailed
      s!"patched config for `{path}` is not valid TOML for this schema: {error}"
  (validate typed_config).mapError fun error =>
    configValidationFailed s!"config validation failed for `{path}`: {error}"
  let changed_fields := computeChangedFields (toJson type.schema before_typed)
    (toJson type.schema typed_config)
  return ⟨rendered_toml, changed_fields, file_exists⟩

end Oxydra
