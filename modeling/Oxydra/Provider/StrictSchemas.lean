import Oxydra.Provider.Responses

/-!
# Schemas for strict mode

`sanitize_schema_strict` of `crates/provider/src/openai.rs` and of `responses.rs` closes every
object schema that it comes to: its properties are all required, and no others are allowed. It comes
to the schemas under `properties` and `items`. Those of a union, of `definitions`, or of a list of
items stay as they are (`subschema_sanitize`).
-/

namespace Oxydra

open List

variable {fields : List (String × Value)} {key : String} {schema : Value}

/-- `sanitize_schema_strict` of `openai.rs`, a copy of the other one. -/
def openaiSanitizeSchemaStrict : Value → Value := sanitizeSchemaStrict

/-! ## The schemas in a schema -/

/-- A place of a schema where another one stands. -/
inductive SchemaPlace where
  | property (name : String)
  | items
  /-- One of a list of items. -/
  | item (i : ℕ)
  | anyOf (i : ℕ)
  | oneOf (i : ℕ)
  | allOf (i : ℕ)
  | definition (name : String)

/-- The schema of a list. -/
def Value.getIdx? (i : ℕ) : Value → Option Value
  | .array items => items[i]?
  | _ => none

/-- What stands at a place. -/
def SchemaPlace.of : SchemaPlace → Value → Option Value
  | .property name, schema => (schema.get? "properties").bind (Value.get? name)
  | .items, schema => schema.get? "items"
  | .item i, schema => (schema.get? "items").bind (Value.getIdx? i)
  | .anyOf i, schema => (schema.get? "anyOf").bind (Value.getIdx? i)
  | .oneOf i, schema => (schema.get? "oneOf").bind (Value.getIdx? i)
  | .allOf i, schema => (schema.get? "allOf").bind (Value.getIdx? i)
  | .definition name, schema => (schema.get? "definitions").bind (Value.get? name)

/-- The places that `sanitize_schema_strict` follows. -/
def SchemaPlace.isFollowed : SchemaPlace → Bool
  | .property _ | .items => true
  | _ => false

/-- The schema at the end of a path. -/
def subschema : List SchemaPlace → Value → Option Value
  | [], schema => some schema
  | place :: path, schema => (place.of schema).bind (subschema path)

/-- An object schema. -/
def IsObjectSchema (schema : Value) : Prop := schema.get? "type" = some (.string "object")

/-- The names of its properties. -/
def propertyNames (schema : Value) : List String :=
  match schema.get? "properties" with
  | some (.object properties) => Fields.keys properties
  | _ => []

/-- What it requires. -/
def requiredEntries (schema : Value) : List Value :=
  match schema.get? "required" with
  | some (.array required) => required
  | _ => []

/-- No other properties are allowed, and all are required. -/
def IsStrict (schema : Value) : Prop :=
  schema.get? "additionalProperties" = some (.bool false) ∧
    ∀ name ∈ propertyNames schema, .string name ∈ requiredEntries schema

/-- The names can be required: `required` is a list, if it is there. -/
def CanRequire (schema : Value) : Prop :=
  propertyNames schema = [] ∨ schema.get? "required" = none ∨
    ∃ required, schema.get? "required" = some (.array required)

/-! ## What is changed -/

/-- An object schema without what is set in it. -/
def relaxedObject (fields : List (String × Value)) : List (String × Value) :=
  if fields.lookup "type" = some (.string "object") then
    Fields.remove "required" (Fields.remove "additionalProperties" fields)
  else fields

mutual

/-- A schema without what is set in the object schemas under `properties` and `items`. -/
def relaxed : Value → Value
  | .object fields => .object (relaxedObject (relaxedFields fields))
  | schema => schema

/-- The fields of a schema, with its properties and its items relaxed. -/
def relaxedFields : List (String × Value) → List (String × Value)
  | [] => []
  | (key, v) :: fields =>
    (key, if key = "properties" then relaxedProperties v
      else if key = "items" then relaxed v else v) :: relaxedFields fields

/-- The properties of a schema, each of them relaxed. -/
def relaxedProperties : Value → Value
  | .object fields => .object (relaxedValues fields)
  | properties => properties

/-- Relaxed schemas under their names. -/
def relaxedValues : List (String × Value) → List (String × Value)
  | [] => []
  | (key, v) :: fields => (key, relaxed v) :: relaxedValues fields

end

/-- What is expected of strict schemas: every object schema is strict, nothing else is changed, what
was required stays in front, and a schema that is strict stays. -/
structure StrictSanitizing (sanitize : Value → Value) (schema : Value) : Prop where
  reaches : ∀ path sub, subschema path (sanitize schema) = some sub → IsObjectSchema sub →
    IsStrict sub
  rest : relaxed (sanitize schema) = relaxed schema
  required : ∀ path sub sub', subschema path schema = some sub →
    subschema path (sanitize schema) = some sub' → requiredEntries sub <+: requiredEntries sub'
  again : sanitize (sanitize schema) = sanitize schema

/-! ## One object -/

/-- The names that are lacking are added. -/
def addRequired (names : List String) (required : List Value) : List Value :=
  names.foldl (fun required key =>
    if .string key ∈ required then required else required ++ [.string key]) required

/-- The names required before stay in front. -/
theorem prefix_addRequired (names : List String) (required : List Value) :
    required <+: addRequired names required := by
  induction names generalizing required with
  | nil => exact prefix_rfl
  | cons name names ih =>
    refine List.IsPrefix.trans ?_ (ih _)
    dsimp only
    split_ifs
    · exact prefix_rfl
    · exact prefix_append _ _

/-- Every given name is required. -/
theorem mem_addRequired {names : List String} {required : List Value} {name : String}
    (h : name ∈ names) : .string name ∈ addRequired names required := by
  induction names generalizing required with
  | nil => exact absurd h not_mem_nil
  | cons first names ih =>
    obtain rfl | hrest := mem_cons.mp h
    · refine (prefix_addRequired names _).subset ?_
      dsimp only
      split_ifs with hmem
      · exact hmem
      · simp
    · exact ih hrest

/-- Names that are required are not added. -/
theorem addRequired_of_mem {names : List String} {required : List Value}
    (h : ∀ name ∈ names, .string name ∈ required) : addRequired names required = required := by
  induction names with
  | nil => rfl
  | cons name names ih =>
    obtain ⟨hname, hrest⟩ := forall_mem_cons.mp h
    have hstep : addRequired (name :: names) required = addRequired names required := by
      rw [addRequired, foldl_cons, if_pos hname]
      rfl
    rw [hstep, ih hrest]

/-- What an object schema requires in the end. -/
def requiredOf (fields : List (String × Value)) : Value :=
  let all_keys := propertyNames (.object fields)
  match fields.lookup "required" with
  | some (.array required) => .array (addRequired all_keys required)
  | some other => other
  | none => .array (addRequired all_keys [])

/-- What becomes of an object schema. -/
theorem strictObject_eq (h : fields.lookup "type" = some (.string "object")) :
    strictObject fields = Fields.insert "required" (requiredOf fields)
      (Fields.insert "additionalProperties" (.bool false) fields) := by
  unfold strictObject
  rw [if_pos h]
  rfl

/-- The other keys stay. -/
theorem lookup_strictObject (h : key ≠ "additionalProperties") (h' : key ≠ "required")
    (fields : List (String × Value)) :
    (strictObject fields).lookup key = fields.lookup key := by
  by_cases hobject : fields.lookup "type" = some (.string "object")
  · rw [strictObject_eq hobject, Fields.lookup_insert, if_neg h', Fields.lookup_insert, if_neg h]
  · rw [strictObject, if_neg hobject]

/-! ## The fields of a sanitized schema -/

/-- A field's value, sanitized if there are schemas in it. -/
def sanitizedField (key : String) (v : Value) : Value :=
  if key = "properties" then sanitizeProperties v
  else if key = "items" then sanitizeSchemaStrict v
  else v

/-- The other fields stay. -/
theorem sanitizedField_of_ne (h : key ≠ "properties") (h' : key ≠ "items") (v : Value) :
    sanitizedField key v = v := by
  rw [sanitizedField, if_neg h, if_neg h']

/-- Field by field. -/
theorem sanitizeFields_eq (fields : List (String × Value)) :
    sanitizeFields fields = fields.map fun field => (field.1, sanitizedField field.1 field.2) := by
  induction fields with
  | nil => rw [sanitizeFields, map_nil]
  | cons field fields ih =>
    rw [sanitizeFields, ih, map_cons]
    rfl

/-- Property by property. -/
theorem sanitizeValues_eq (fields : List (String × Value)) :
    sanitizeValues fields = fields.map fun field => (field.1, sanitizeSchemaStrict field.2) := by
  induction fields with
  | nil => rw [sanitizeValues, map_nil]
  | cons field fields ih => rw [sanitizeValues, ih, map_cons]

/-- What is found where every value is changed by its key. -/
theorem lookup_mapFields (f : String → Value → Value) (fields : List (String × Value))
    (key : String) :
    (fields.map fun field => (field.1, f field.1 field.2)).lookup key =
      (fields.lookup key).map (f key) := by
  induction fields with
  | nil => rfl
  | cons field fields ih =>
    obtain ⟨k, v⟩ := field
    rw [map_cons, Fields.lookup_cons, Fields.lookup_cons, ih]
    split_ifs with h
    · rw [h, Option.map_some]
    · rfl

/-- A field without schemas in it is found as it was. -/
theorem lookup_sanitizeFields_of_ne (h : key ≠ "properties") (h' : key ≠ "items")
    (fields : List (String × Value)) :
    (sanitizeFields fields).lookup key = fields.lookup key := by
  rw [sanitizeFields_eq, lookup_mapFields, funext (sanitizedField_of_ne h h')]
  exact congrFun Option.map_id _

/-- What is read back of a sanitized schema. -/
theorem get?_sanitize (h : key ≠ "additionalProperties") (h' : key ≠ "required") (schema : Value) :
    (sanitizeSchemaStrict schema).get? key = (schema.get? key).map (sanitizedField key) := by
  cases schema with
  | object fields =>
    rw [sanitizeSchemaStrict, Value.get?, lookup_strictObject h h', sanitizeFields_eq,
      lookup_mapFields, Value.get?]
  | _ => rw [sanitizeSchemaStrict] <;> first | rfl | (intro _ h; cases h)

/-- The keys that are not touched. -/
theorem get?_sanitize_of_ne (h : key ≠ "additionalProperties") (h' : key ≠ "required")
    (hp : key ≠ "properties") (hi : key ≠ "items") (schema : Value) :
    (sanitizeSchemaStrict schema).get? key = schema.get? key := by
  rw [get?_sanitize h h', funext (sanitizedField_of_ne hp hi)]
  exact congrFun Option.map_id _

/-- An object schema stays one, and no other becomes one. -/
theorem isObjectSchema_sanitize (schema : Value) :
    IsObjectSchema (sanitizeSchemaStrict schema) ↔ IsObjectSchema schema := by
  rw [IsObjectSchema, IsObjectSchema,
    get?_sanitize_of_ne (by decide) (by decide) (by decide) (by decide)]

/-- The properties are sanitized. -/
theorem get?_properties_sanitize (schema : Value) :
    (sanitizeSchemaStrict schema).get? "properties" =
      (schema.get? "properties").map sanitizeProperties := by
  rw [get?_sanitize (by decide) (by decide)]
  rfl

/-- No property is renamed or lost. -/
theorem keys_sanitizeValues (fields : List (String × Value)) :
    Fields.keys (sanitizeValues fields) = Fields.keys fields := by
  rw [sanitizeValues_eq, Fields.keys, map_map]
  rfl

/-- The names of the properties stay. -/
theorem propertyNames_sanitize (schema : Value) :
    propertyNames (sanitizeSchemaStrict schema) = propertyNames schema := by
  unfold propertyNames
  rw [get?_properties_sanitize]
  cases schema.get? "properties" with
  | none => rfl
  | some properties =>
    cases properties with
    | object fields =>
      rw [Option.map_some, sanitizeProperties]
      exact keys_sanitizeValues fields
    | _ => rw [Option.map_some, sanitizeProperties]; intro _ h; cases h

/-! ## The places -/

/-- One of the properties. -/
theorem get?_sanitizeProperties (name : String) (properties : Value) :
    (sanitizeProperties properties).get? name =
      (properties.get? name).map sanitizeSchemaStrict := by
  cases properties with
  | object fields =>
    rw [sanitizeProperties, Value.get?, sanitizeValues_eq,
      lookup_mapFields fun _ => sanitizeSchemaStrict]
    rfl
  | _ => rw [sanitizeProperties] <;> first | rfl | (intro _ h; cases h)

/-- Arrays stay. -/
theorem getIdx?_sanitize (i : ℕ) (v : Value) :
    (sanitizeSchemaStrict v).getIdx? i = v.getIdx? i := by
  cases v with
  | object fields => rw [sanitizeSchemaStrict]; rfl
  | _ => rw [sanitizeSchemaStrict]; intro _ h; cases h

/-- A schema that is followed is sanitized. -/
theorem of_sanitize_followed {place : SchemaPlace} (h : place.isFollowed = true) (schema : Value) :
    place.of (sanitizeSchemaStrict schema) = (place.of schema).map sanitizeSchemaStrict := by
  cases place with
  | property name =>
    simp only [SchemaPlace.of]
    rw [get?_properties_sanitize]
    cases schema.get? "properties" with
    | none => rfl
    | some properties => exact get?_sanitizeProperties name properties
  | items =>
    simp only [SchemaPlace.of]
    rw [get?_sanitize (by decide) (by decide)]
    rfl
  | item | anyOf | oneOf | allOf | definition => exact absurd h Bool.false_ne_true

/-- The others are as they were. -/
theorem of_sanitize_other {place : SchemaPlace} (h : place.isFollowed = false) (schema : Value) :
    place.of (sanitizeSchemaStrict schema) = place.of schema := by
  cases place with
  | property | items => exact absurd h Bool.noConfusion
  | item i =>
    simp only [SchemaPlace.of]
    rw [get?_sanitize (by decide) (by decide)]
    cases schema.get? "items" with
    | none => rfl
    | some items => exact getIdx?_sanitize i items
  | anyOf | oneOf | allOf | definition =>
    simp only [SchemaPlace.of]
    rw [get?_sanitize_of_ne (by decide) (by decide) (by decide) (by decide)]

/-- The schemas of a sanitized schema are sanitized where all places on the way are followed, and
else as they were. -/
theorem subschema_sanitize (path : List SchemaPlace) (schema : Value) :
    subschema path (sanitizeSchemaStrict schema) =
      if path.all SchemaPlace.isFollowed then (subschema path schema).map sanitizeSchemaStrict
      else subschema path schema := by
  induction path generalizing schema with
  | nil => rfl
  | cons place path ih =>
    rw [subschema, subschema, all_cons]
    cases hplace : place.isFollowed with
    | false =>
      rw [of_sanitize_other hplace]
      rfl
    | true =>
      rw [of_sanitize_followed hplace, Bool.true_and]
      cases place.of schema with
      | none => split_ifs <;> rfl
      | some nested => exact ih nested

/-! ## Strictness -/

/-- Another key changes no property. -/
theorem propertyNames_insert (h : "properties" ≠ key) (v : Value) (fields : List (String × Value)) :
    propertyNames (.object (Fields.insert key v fields)) = propertyNames (.object fields) := by
  unfold propertyNames
  rw [Value.get?, Fields.lookup_insert, if_neg h, Value.get?]

/-- What an object schema is once it is sanitized. -/
theorem exists_strictObject (h : IsObjectSchema schema) :
    ∃ fields, schema = .object fields ∧ sanitizeSchemaStrict schema = .object
      (Fields.insert "required" (requiredOf (sanitizeFields fields))
        (Fields.insert "additionalProperties" (.bool false) (sanitizeFields fields))) := by
  cases schema with
  | object fields =>
    have hobject : (sanitizeFields fields).lookup "type" = some (.string "object") :=
      (lookup_sanitizeFields_of_ne (by decide) (by decide) fields).trans h
    refine ⟨fields, rfl, ?_⟩
    rw [sanitizeSchemaStrict, strictObject_eq hobject]
  | _ => exact absurd h nofun

/-- The names of the properties are added to what is required. -/
theorem get?_required_sanitize (h : IsObjectSchema schema) :
    (sanitizeSchemaStrict schema).get? "required" = some (
      match schema.get? "required" with
      | some (.array required) => .array (addRequired (propertyNames schema) required)
      | some other => other
      | none => .array (addRequired (propertyNames schema) [])) := by
  obtain ⟨fields, rfl, hfields⟩ := exists_strictObject h
  have hnames := propertyNames_sanitize (.object fields)
  rw [hfields, propertyNames_insert (by decide), propertyNames_insert (by decide)] at hnames
  rw [hfields, Value.get?, Fields.lookup_insert, if_pos rfl, requiredOf, hnames,
    lookup_sanitizeFields_of_ne (by decide) (by decide)]
  rfl

/-- No other properties are allowed. -/
theorem get?_additionalProperties_sanitize (h : IsObjectSchema schema) :
    (sanitizeSchemaStrict schema).get? "additionalProperties" = some (.bool false) := by
  obtain ⟨fields, rfl, hfields⟩ := exists_strictObject h
  rw [hfields, Value.get?, Fields.lookup_insert, if_neg (by decide), Fields.lookup_insert,
    if_pos rfl]

/-- A schema that is no object schema keeps what it requires. -/
theorem get?_sanitize_of_not_object (h : ¬IsObjectSchema schema) (hp : key ≠ "properties")
    (hi : key ≠ "items") :
    (sanitizeSchemaStrict schema).get? key = schema.get? key := by
  cases schema with
  | object fields =>
    have hobject : (sanitizeFields fields).lookup "type" ≠ some (.string "object") := by
      rw [lookup_sanitizeFields_of_ne (by decide) (by decide)]
      exact h
    rw [sanitizeSchemaStrict, strictObject, if_neg hobject, Value.get?, Value.get?,
      lookup_sanitizeFields_of_ne hp hi]
  | _ => rw [sanitizeSchemaStrict]; intro _ h; cases h

/-- An object schema is strict once it is sanitized, if its names can be required. -/
theorem isStrict_sanitize_iff (h : IsObjectSchema schema) :
    IsStrict (sanitizeSchemaStrict schema) ↔ CanRequire schema := by
  rw [IsStrict, get?_additionalProperties_sanitize h, propertyNames_sanitize, requiredEntries,
    get?_required_sanitize h, CanRequire]
  cases schema.get? "required" with
  | none =>
    refine iff_of_true ⟨rfl, fun name hname => ?_⟩ (.inr (.inl rfl))
    exact mem_addRequired hname
  | some required =>
    cases required with
    | array required =>
      refine iff_of_true ⟨rfl, fun name hname => ?_⟩ (.inr (.inr ⟨required, rfl⟩))
      exact mem_addRequired hname
    | _ => simp [eq_nil_iff_forall_not_mem]

/-- What was required stays in front. -/
theorem requiredEntries_sanitize (schema : Value) :
    requiredEntries schema <+: requiredEntries (sanitizeSchemaStrict schema) := by
  unfold requiredEntries
  by_cases h : IsObjectSchema schema
  · rw [get?_required_sanitize h]
    cases schema.get? "required" with
    | none => exact nil_prefix
    | some required =>
      cases required with
      | array required => exact prefix_addRequired _ required
      | _ => exact prefix_rfl
  · rw [get?_sanitize_of_not_object h (by decide) (by decide)]

/-! ## The rest of a schema -/

/-- A field's value, relaxed if there are schemas in it. -/
def relaxedField (key : String) (v : Value) : Value :=
  if key = "properties" then relaxedProperties v else if key = "items" then relaxed v else v

/-- Field by field. -/
theorem relaxedFields_eq (fields : List (String × Value)) :
    relaxedFields fields = fields.map fun field => (field.1, relaxedField field.1 field.2) := by
  induction fields with
  | nil => rw [relaxedFields, map_nil]
  | cons field fields ih =>
    rw [relaxedFields, ih, map_cons]
    rfl

/-- An insertion among values that are changed by their keys. -/
theorem insert_mapFields (f : String → Value → Value) (key : String) (v : Value)
    (fields : List (String × Value)) :
    ((Fields.insert key v fields).map fun field => (field.1, f field.1 field.2)) =
      Fields.insert key (f key v) (fields.map fun field => (field.1, f field.1 field.2)) := by
  induction fields with
  | nil => rfl
  | cons field fields ih =>
    rw [Fields.insert, map_cons, Fields.insert]
    split_ifs
    · rfl
    · rfl
    · rw [map_cons, ih]

/-- What is set in an object is removed again. -/
theorem relaxedObject_insert (h : fields.lookup "type" = some (.string "object"))
    (required additional : Value) :
    relaxedObject (Fields.insert "required" required
      (Fields.insert "additionalProperties" additional fields)) = relaxedObject fields := by
  have htype : (Fields.insert "required" required
      (Fields.insert "additionalProperties" additional fields)).lookup "type" =
        some (.string "object") := by
    rw [Fields.lookup_insert, if_neg (by decide), Fields.lookup_insert, if_neg (by decide), h]
  have hcomm : ∀ fields : List (String × Value),
      Fields.remove "required" (Fields.remove "additionalProperties" fields) =
        Fields.remove "additionalProperties" (Fields.remove "required" fields) :=
    filter_comm _ _
  rw [relaxedObject, if_pos htype, relaxedObject, if_pos h, hcomm, Fields.remove_insert, ← hcomm,
    Fields.remove_insert]

/-- An object's other fields are those of the object. -/
theorem relaxed_strictObject {fields fields' : List (String × Value)}
    (h : relaxedFields fields' = relaxedFields fields) :
    relaxed (.object (strictObject fields')) = relaxed (.object fields) := by
  rw [relaxed, relaxed]
  by_cases hobject : fields'.lookup "type" = some (.string "object")
  · have htype : (relaxedFields fields').lookup "type" = some (.string "object") := by
      rw [relaxedFields_eq, lookup_mapFields, hobject]
      rfl
    rw [strictObject_eq hobject, relaxedFields_eq, insert_mapFields, insert_mapFields,
      ← relaxedFields_eq, relaxedObject_insert htype, h]
  · rw [strictObject, if_neg hobject, h]

mutual

/-- Nothing is changed but what is set in the object schemas. -/
theorem relaxed_sanitize : ∀ schema : Value, relaxed (sanitizeSchemaStrict schema) = relaxed schema
  | .object fields => by
    rw [sanitizeSchemaStrict]
    exact relaxed_strictObject (relaxedFields_sanitize fields)
  | .null | .bool _ | .number _ | .string _ | .array _ => by rw [sanitizeSchemaStrict]; exact nofun

/-- `relaxed_sanitize` of fields. -/
theorem relaxedFields_sanitize : ∀ fields : List (String × Value),
    relaxedFields (sanitizeFields fields) = relaxedFields fields
  | [] => by rw [sanitizeFields]
  | (key, v) :: fields => by
    rw [sanitizeFields, relaxedFields, relaxedFields, relaxedFields_sanitize fields]
    split_ifs
    · rw [relaxedProperties_sanitize v]
    · rw [relaxed_sanitize v]
    · rfl

/-- `relaxed_sanitize` of the properties. -/
theorem relaxedProperties_sanitize : ∀ properties : Value,
    relaxedProperties (sanitizeProperties properties) = relaxedProperties properties
  | .object fields => by
    rw [sanitizeProperties, relaxedProperties, relaxedProperties, relaxedValues_sanitize fields]
  | .null | .bool _ | .number _ | .string _ | .array _ => by rw [sanitizeProperties]; exact nofun

/-- `relaxed_sanitize` of each property. -/
theorem relaxedValues_sanitize : ∀ fields : List (String × Value),
    relaxedValues (sanitizeValues fields) = relaxedValues fields
  | [] => by rw [sanitizeValues]
  | (key, v) :: fields => by
    rw [sanitizeValues, relaxedValues, relaxedValues, relaxed_sanitize v,
      relaxedValues_sanitize fields]

end

/-! ## Once more -/

/-- An object that is strict stays. -/
theorem strictObject_strictObject {fields fields' : List (String × Value)}
    (h : sanitizeFields fields = fields) (hfields : strictObject fields = fields') :
    strictObject (sanitizeFields fields') = fields' := by
  by_cases hobject : fields.lookup "type" = some (.string "object")
  · rw [strictObject_eq hobject] at hfields
    have hkept : sanitizeFields fields' = fields' := by
      rw [← hfields, sanitizeFields_eq, insert_mapFields, insert_mapFields, ← sanitizeFields_eq, h]
      rfl
    have htype : fields'.lookup "type" = some (.string "object") := by
      rw [← hfields, Fields.lookup_insert, if_neg (by decide), Fields.lookup_insert,
        if_neg (by decide), hobject]
    have hrequired : requiredOf fields' = requiredOf fields := by
      have hnames : propertyNames (.object fields') = propertyNames (.object fields) := by
        rw [← hfields, propertyNames_insert (by decide), propertyNames_insert (by decide)]
      have hlookup : fields'.lookup "required" = some (requiredOf fields) := by
        rw [← hfields, Fields.lookup_insert, if_pos rfl]
      have hmem : ∀ required, ∀ name ∈ propertyNames (.object fields),
          .string name ∈ addRequired (propertyNames (.object fields)) required :=
        fun required name hname => mem_addRequired hname
      rw [requiredOf, hnames, hlookup]
      unfold requiredOf
      cases fields.lookup "required" with
      | none => exact congrArg Value.array (addRequired_of_mem (hmem []))
      | some required =>
        cases required with
        | array required => exact congrArg Value.array (addRequired_of_mem (hmem required))
        | _ => rfl
    rw [hkept, strictObject_eq htype, hrequired, ← hfields,
      Fields.insert_comm (show "additionalProperties" ≠ "required" by decide),
      Fields.insert_insert, Fields.insert_insert]
  · rw [strictObject, if_neg hobject] at hfields
    rw [← hfields, h, strictObject, if_neg hobject]

mutual

/-- A schema that was sanitized stays. -/
theorem sanitize_sanitize : ∀ schema : Value,
    sanitizeSchemaStrict (sanitizeSchemaStrict schema) = sanitizeSchemaStrict schema
  | .object fields => by
    rw [sanitizeSchemaStrict, sanitizeSchemaStrict,
      strictObject_strictObject (sanitizeFields_sanitize fields) rfl]
  | .null | .bool _ | .number _ | .string _ | .array _ => by
    rw [sanitizeSchemaStrict, sanitizeSchemaStrict] <;> exact nofun

/-- `sanitize_sanitize` of fields. -/
theorem sanitizeFields_sanitize : ∀ fields : List (String × Value),
    sanitizeFields (sanitizeFields fields) = sanitizeFields fields
  | [] => by rw [sanitizeFields, sanitizeFields]
  | (key, v) :: fields => by
    rw [sanitizeFields, sanitizeFields, sanitizeFields_sanitize fields]
    split_ifs
    · rw [sanitizeProperties_sanitize v]
    · rw [sanitize_sanitize v]
    · rfl

/-- `sanitize_sanitize` of the properties. -/
theorem sanitizeProperties_sanitize : ∀ properties : Value,
    sanitizeProperties (sanitizeProperties properties) = sanitizeProperties properties
  | .object fields => by
    rw [sanitizeProperties, sanitizeProperties, sanitizeValues_sanitize fields]
  | .null | .bool _ | .number _ | .string _ | .array _ => by
    rw [sanitizeProperties, sanitizeProperties] <;> exact nofun

/-- `sanitize_sanitize` of each property. -/
theorem sanitizeValues_sanitize : ∀ fields : List (String × Value),
    sanitizeValues (sanitizeValues fields) = sanitizeValues fields
  | [] => by rw [sanitizeValues, sanitizeValues]
  | (key, v) :: fields => by
    rw [sanitizeValues, sanitizeValues, sanitize_sanitize v, sanitizeValues_sanitize fields]

end

/-! ## All schemas -/

/-- The object schemas that are followed can require their names, and the others are strict. -/
def LeavesNothing (schema : Value) : Prop :=
  ∀ path sub, subschema path schema = some sub → IsObjectSchema sub →
    if path.all SchemaPlace.isFollowed then CanRequire sub else IsStrict sub

/-- Every object schema is strict then, and only then. -/
theorem reaches_iff (schema : Value) :
    (∀ path sub, subschema path (sanitizeSchemaStrict schema) = some sub → IsObjectSchema sub →
      IsStrict sub) ↔ LeavesNothing schema := by
  constructor
  · intro h path sub hsub hobject
    have hpath := h path
    rw [subschema_sanitize, hsub] at hpath
    split_ifs at hpath ⊢ with hfollowed
    · exact (isStrict_sanitize_iff hobject).mp
        (hpath _ rfl ((isObjectSchema_sanitize sub).mpr hobject))
    · exact hpath sub rfl hobject
  · intro h path sub' hsub' hobject
    rw [subschema_sanitize] at hsub'
    split_ifs at hsub' with hfollowed
    · obtain ⟨sub, hsub, rfl⟩ := Option.map_eq_some_iff.mp hsub'
      have hobject := (isObjectSchema_sanitize sub).mp hobject
      have hleft := h path sub hsub hobject
      rw [if_pos hfollowed] at hleft
      exact (isStrict_sanitize_iff hobject).mpr hleft
    · have hleft := h path sub' hsub' hobject
      rwa [if_neg hfollowed] at hleft

/-- What was required at a path stays in front. -/
theorem requiredEntries_subschema {path : List SchemaPlace} {schema sub sub' : Value}
    (hsub : subschema path schema = some sub)
    (hsub' : subschema path (sanitizeSchemaStrict schema) = some sub') :
    requiredEntries sub <+: requiredEntries sub' := by
  rw [subschema_sanitize, hsub] at hsub'
  split_ifs at hsub'
  · rw [← Option.some.inj hsub']
    exact requiredEntries_sanitize sub
  · rw [Option.some.inj hsub']

/-- Both copies make a schema strict if there is no object schema in a place that they do not
follow, but for one that is strict, and none whose names cannot be required. -/
theorem strictSanitizing_iff (schema : Value) :
    (StrictSanitizing sanitizeSchemaStrict schema ∧
      openaiSanitizeSchemaStrict schema = sanitizeSchemaStrict schema) ↔ LeavesNothing schema := by
  constructor
  · rintro ⟨h, -⟩
    exact (reaches_iff schema).mp h.reaches
  · intro h
    refine ⟨⟨(reaches_iff schema).mpr h, relaxed_sanitize schema, ?_, sanitize_sanitize schema⟩,
      rfl⟩
    exact fun path sub sub' => requiredEntries_subschema

/-- An object schema in a union is left open. -/
theorem unionSchema_not_strict :
    ¬StrictSanitizing sanitizeSchemaStrict (.object [("anyOf", .array [.object [
      ("properties", .object [("path", .object [("type", .string "string")])]),
      ("type", .string "object")]])]) := by
  intro h
  have hstrict := h.reaches [.anyOf 0] _ rfl rfl
  exact absurd hstrict.1 nofun

end Oxydra
