import Mathlib.Algebra.Group.Int.Defs
import Mathlib.Data.Rat.Defs
import Oxydra.Library.Fields

/-!
# TOML tables and the data that is read from them

A document is a table of items. A `Schema` is what `#[derive(Deserialize)]` makes of a type: which
fields a table has, what is read from the item of each, and what `#[serde(default)]` puts where
there is no item. `Schema.read` reads a `Datum`, in which every field of a struct has a value.

`read_table` says of each field where its value comes from. A field that a table lacks has the
default of the field; a table that is lacking has the default of the field that it is, and the two
need not agree on what is below them.

What a deserializer makes of an item of another kind than the one expected is a parameter.
-/

namespace Toml

/-- An item of a document. An inline table is a table, and an array of tables is an array. -/
inductive Item where
  | string (s : String)
  | integer (n : ℤ)
  | float (x : ℚ)
  /-- `inf`, `-inf`, and `nan`. -/
  | special (text : String)
  | boolean (b : Bool)
  | datetime (text : String)
  | array (items : List Item)
  | table (fields : List (String × Item))

/-- A table, with its fields in key order. -/
abbrev Table := List (String × Item)

/-- The table at a path, if there are only tables on the way. -/
def tableAt : List String → Table → Option Table
  | [], t => some t
  | key :: path, t =>
    match t.lookup key with
    | some (.table nested) => tableAt path nested
    | _ => none

/-- A deserialized value. `absent` is `None`; a `Some` is not kept apart from what it holds. -/
inductive Datum where
  | plain (item : Item)
  | absent
  | list (items : List Datum)
  | record (fields : List (String × Datum))

/-- The value at a path of field names. -/
def Datum.get : List String → Datum → Option Datum
  | [], d => some d
  | key :: path, .record fields => (fields.lookup key).bind (get path)
  | _ :: _, _ => none

/-- The datum is `None`. -/
def Datum.isAbsent : Datum → Bool
  | .absent => true
  | _ => false

/-- The types without fields. -/
inductive Plain where
  | string
  | boolean
  | float
  /-- An unsigned integer of so many bits. -/
  | unsigned (bits : ℕ)
  /-- An enumeration with these names. -/
  | name (names : List String)

/-- What is read from an item of the type's own kind. -/
def Plain.read : Plain → Item → Option Item
  | .string, .string s => some (.string s)
  | .boolean, .boolean b => some (.boolean b)
  | .float, .float x => some (.float x)
  | .float, .special text => some (.special text)
  | .float, .integer n => some (.float n)
  | .unsigned bits, .integer n => if 0 ≤ n ∧ n < 2^bits then some (.integer n) else none
  | .name names, .string s => if s ∈ names then some (.string s) else none
  | _, _ => none

/-- A field of a struct: its default, where it has one, and when `skip_serializing_if` leaves it
out. -/
structure FieldSpec (σ : Type) where
  name : String
  default : Option Datum
  skip : Datum → Bool
  schema : σ

/-- What is deserialized into a type. -/
inductive Schema where
  | plain (type : Plain)
  | optional (inner : Schema)
  | list (inner : Schema)
  /-- A map with any keys. -/
  | map (inner : Schema)
  /-- A struct, which may refuse fields that it does not know. -/
  | struct (deny_unknown : Bool) (fields : List (FieldSpec Schema))

/-- What a deserializer makes of items of another kind. -/
structure Coercions where
  plain : Plain → Item → Option Item
  /-- Where a map or a struct is expected. -/
  table : Schema → Item → Option Datum

section Reading

variable (c : Coercions)

mutual

/-- What is deserialized from an item. -/
def Schema.read : Schema → Item → Option Datum
  | .plain type, item => ((type.read item).or (c.plain type item)).map .plain
  | .optional inner, item => inner.read item
  | .list inner, .array items => (items.mapM inner.read).map .list
  | .list _, _ => none
  | .map inner, .table t => (t.mapM fun f => (inner.read f.2).map (f.1, ·)).map .record
  | .struct deny_unknown fields, .table t =>
    if deny_unknown ∧ ∃ f ∈ t, ∀ field ∈ fields, field.name ≠ f.1 then none
    else (Schema.readFields fields t).map .record
  | schema, item => c.table schema item

/-- What is deserialized into the fields of a struct. -/
def Schema.readFields : List (FieldSpec Schema) → Table → Option (List (String × Datum))
  | [], _ => some []
  | ⟨name, default, _, schema⟩ :: fields, t =>
    match t.lookup name with
    | some item =>
      (schema.read item).bind fun d => (Schema.readFields fields t).map ((name, d) :: ·)
    | none => default.bind fun d => (Schema.readFields fields t).map ((name, d) :: ·)

end

end Reading

mutual

/-- What `Serialize` writes: nothing for `None`. -/
def Schema.write : Schema → Datum → Option Item
  | .plain _, .plain item => some item
  | .optional inner, d => inner.write d
  | .list inner, .list items => some (.array (items.filterMap inner.write))
  | .map inner, .record fields =>
    some (.table (fields.filterMap fun f => (inner.write f.2).map (f.1, ·)))
  | .struct _ fields, .record values => some (.table (Schema.writeFields fields values))
  | _, _ => none

/-- What `Serialize` writes of the fields of a struct. -/
def Schema.writeFields : List (FieldSpec Schema) → List (String × Datum) → Table
  | [], _ => []
  | ⟨name, _, skip, schema⟩ :: fields, values =>
    match values.lookup name with
    | some d =>
      match if skip d then none else schema.write d with
      | some item => Fields.insert name item (Schema.writeFields fields values)
      | none => Schema.writeFields fields values
    | none => Schema.writeFields fields values

end

/-- The schema of a field. -/
def Schema.child (key : String) : Schema → Option Schema
  | .optional inner => inner.child key
  | .map inner => some inner
  | .struct _ fields => (fields.find? (·.name = key)).map FieldSpec.schema
  | _ => none

/-- The value of a field that a table lacks. -/
def Schema.missing (key : String) : Schema → Option Datum
  | .optional inner => inner.missing key
  | .struct _ fields => (fields.find? (·.name = key)).bind FieldSpec.default
  | _ => none

/-- The value of a field that the table at a path lacks. -/
def Schema.missingAt : List String → String → Schema → Option Datum
  | [], key, schema => schema.missing key
  | name :: path, key, schema => (schema.child name).bind (missingAt path key)

/-! ## Where the values come from -/

theorem mapM_cons_eq_some {α β : Type} {read : α → Option β} {field : String × α}
    {fields : List (String × α)} {values : List (String × β)}
    (h : ((field :: fields).mapM fun f => (read f.2).map (f.1, ·)) = some values) :
    ∃ entry rest, (∃ b, read field.2 = some b ∧ (field.1, b) = entry) ∧
      (fields.mapM fun f => (read f.2).map (f.1, ·)) = some rest ∧ entry :: rest = values := by
  rw [List.mapM_cons] at h
  obtain ⟨entry, hentry, h⟩ := Option.bind_eq_some_iff.mp h
  obtain ⟨rest, hrest, hvalues⟩ := Option.bind_eq_some_iff.mp h
  exact ⟨entry, rest, Option.map_eq_some_iff.mp hentry, hrest, by simpa using hvalues⟩

/-- What is found in a list whose values are all read. -/
theorem lookup_mapM {α β : Type} {read : α → Option β} {fields : List (String × α)}
    {values : List (String × β)}
    (h : (fields.mapM fun f => (read f.2).map (f.1, ·)) = some values) (key : String) :
    values.lookup key = (fields.lookup key).bind read := by
  induction fields generalizing values with
  | nil =>
    obtain rfl : values = [] := by simpa using h.symm
    rfl
  | cons field fields ih =>
    obtain ⟨entry, rest, ⟨b, hb, rfl⟩, hrest, rfl⟩ := mapM_cons_eq_some h
    obtain ⟨name, a⟩ := field
    rw [Fields.lookup_cons, Fields.lookup_cons, ih hrest]
    split_ifs
    · exact hb.symm
    · rfl

variable {c : Coercions}

/-- What is read is found under the keys of the list. -/
theorem isSome_lookup_mapM {α β : Type} {read : α → Option β} {fields : List (String × α)}
    {values : List (String × β)}
    (h : (fields.mapM fun f => (read f.2).map (f.1, ·)) = some values) (key : String) :
    (values.lookup key).isSome = (fields.lookup key).isSome := by
  induction fields generalizing values with
  | nil =>
    obtain rfl : values = [] := by simpa using h.symm
    rfl
  | cons field fields ih =>
    obtain ⟨entry, rest, ⟨b, -, rfl⟩, hrest, rfl⟩ := mapM_cons_eq_some h
    obtain ⟨name, a⟩ := field
    rw [Fields.lookup_cons, Fields.lookup_cons]
    split_ifs
    · rfl
    · exact ih hrest

variable {c : Coercions}

/-- The value of the first field, and those of the others. -/
theorem readFields_cons_eq_some {field : FieldSpec Schema} {fields : List (FieldSpec Schema)}
    {t : Table} {values : List (String × Datum)}
    (h : Schema.readFields c (field :: fields) t = some values) :
    ∃ d rest, (match t.lookup field.name with
        | some item => field.schema.read c item
        | none => field.default) = some d ∧
      Schema.readFields c fields t = some rest ∧ (field.name, d) :: rest = values := by
  obtain ⟨name, default, skip, schema⟩ := field
  rw [Schema.readFields] at h
  cases hitem : t.lookup name with
  | some item =>
    simp only [hitem] at h
    obtain ⟨d, hd, h⟩ := Option.bind_eq_some_iff.mp h
    obtain ⟨rest, hrest, hvalues⟩ := Option.map_eq_some_iff.mp h
    exact ⟨d, rest, hd, hrest, hvalues⟩
  | none =>
    simp only [hitem] at h
    obtain ⟨d, hd, h⟩ := Option.bind_eq_some_iff.mp h
    obtain ⟨rest, hrest, hvalues⟩ := Option.map_eq_some_iff.mp h
    exact ⟨d, rest, hd, hrest, hvalues⟩

/-- A field of a struct is read from its item, and has its default where there is none. -/
theorem lookup_readFields {fields : List (FieldSpec Schema)} {t : Table}
    {values : List (String × Datum)} (h : Schema.readFields c fields t = some values)
    (key : String) :
    values.lookup key = (fields.find? (·.name = key)).bind fun field =>
      match t.lookup key with
      | some item => field.schema.read c item
      | none => field.default := by
  induction fields generalizing values with
  | nil =>
    obtain rfl : values = [] := by simpa [Schema.readFields] using h.symm
    rfl
  | cons field fields ih =>
    obtain ⟨d, rest, hd, hrest, rfl⟩ := readFields_cons_eq_some h
    rw [Fields.lookup_cons, List.find?_cons, ih hrest]
    by_cases hkey : key = field.name
    · subst hkey
      simpa using hd.symm
    · simp [hkey, Ne.symm hkey]

/-- All fields of a struct have a value. -/
theorem isSome_lookup_readFields {fields : List (FieldSpec Schema)} {t : Table}
    {values : List (String × Datum)} (h : Schema.readFields c fields t = some values)
    (key : String) :
    (values.lookup key).isSome = (fields.find? (·.name = key)).isSome := by
  induction fields generalizing values with
  | nil =>
    obtain rfl : values = [] := by simpa [Schema.readFields] using h.symm
    rfl
  | cons field fields ih =>
    obtain ⟨d, rest, -, hrest, rfl⟩ := readFields_cons_eq_some h
    rw [Fields.lookup_cons, List.find?_cons]
    by_cases hkey : key = field.name
    · simp [hkey]
    · simp only [hkey, if_false, Ne.symm hkey, decide_false]
      exact ih hrest

/-- A field of what is read from a table comes from its item, and where there is none, it is the
default of the field. -/
theorem Schema.read_table {t : Table} {d : Datum} (schema : Schema)
    (h : schema.read c (.table t) = some d) (key : String) :
    d.get [key] =
      match t.lookup key with
      | some item => (schema.child key).bind (·.read c item)
      | none => schema.missing key := by
  match schema with
  | .plain type =>
    rw [Schema.read] at h
    obtain ⟨item, -, rfl⟩ := Option.map_eq_some_iff.mp h
    cases t.lookup key <;> rfl
  | .optional inner =>
    rw [Schema.read] at h
    exact inner.read_table h key
  | .list inner => simp [Schema.read] at h
  | .map inner =>
    rw [Schema.read] at h
    obtain ⟨values, hvalues, rfl⟩ := Option.map_eq_some_iff.mp h
    have hlookup := lookup_mapM hvalues key
    cases hitem : t.lookup key <;>
      simpa [Datum.get, Schema.child, Schema.missing, hitem] using hlookup
  | .struct deny_unknown fields =>
    rw [Schema.read] at h
    split_ifs at h
    obtain ⟨values, hvalues, rfl⟩ := Option.map_eq_some_iff.mp h
    have hlookup := lookup_readFields hvalues key
    rw [Datum.get, hlookup]
    cases hitem : t.lookup key <;> cases hfield : fields.find? (·.name = key) <;>
      simp [Schema.child, Schema.missing, hfield, Datum.get, Option.bind_fun_some]

/-- Every item that the schema knows is read. -/
theorem Schema.read_child {t : Table} {d : Datum} (schema : Schema)
    (h : schema.read c (.table t) = some d) {key : String} {item : Item} {child : Schema}
    (hitem : t.lookup key = some item) (hchild : schema.child key = some child) :
    ∃ d', child.read c item = some d' ∧ d.get [key] = some d' := by
  have hget : d.get [key] = child.read c item := by
    rw [schema.read_table h key, hitem, hchild]
    rfl
  suffices hsome : (d.get [key]).isSome by
    obtain ⟨d', hd'⟩ := Option.isSome_iff_exists.mp hsome
    exact ⟨d', hget ▸ hd', hd'⟩
  match schema with
  | .plain type => cases hchild
  | .optional inner =>
    rw [Schema.read] at h
    obtain ⟨d', -, hd'⟩ := inner.read_child h hitem hchild
    rw [hd']
    rfl
  | .list inner => cases hchild
  | .map inner =>
    rw [Schema.read] at h
    obtain ⟨values, hvalues, rfl⟩ := Option.map_eq_some_iff.mp h
    have hsome := isSome_lookup_mapM hvalues key
    rw [hitem] at hsome
    simpa [Datum.get] using hsome
  | .struct deny_unknown fields =>
    rw [Schema.read] at h
    split_ifs at h
    obtain ⟨values, hvalues, rfl⟩ := Option.map_eq_some_iff.mp h
    have hsome := isSome_lookup_readFields hvalues key
    obtain ⟨field, hfield, -⟩ := Option.map_eq_some_iff.mp hchild
    rw [hfield] at hsome
    simpa [Datum.get] using hsome

/-- Where the schema has no field, there is no value. -/
theorem Schema.missing_of_child (schema : Schema) {key : String} (h : schema.child key = none) :
    schema.missing key = none := by
  match schema with
  | .plain type | .list inner | .map inner => rfl
  | .optional inner => exact inner.missing_of_child h
  | .struct deny_unknown fields =>
    rw [Schema.missing, Option.map_eq_none_iff.mp h]
    rfl

/-- A path is followed from field to field. -/
theorem Datum.get_cons (key : String) (path : List String) (d : Datum) :
    d.get (key :: path) = (d.get [key]).bind (get path) := by
  cases d with
  | record fields => cases hvalue : fields.lookup key <;> simp [Datum.get, hvalue]
  | _ => rfl

theorem Datum.get_append (path rest : List String) (d : Datum) :
    d.get (path ++ rest) = (d.get path).bind (get rest) := by
  induction path generalizing d with
  | nil => rfl
  | cons key path ih =>
    rw [List.cons_append, Datum.get_cons, Datum.get_cons key path]
    cases d.get [key] with
    | none => rfl
    | some child => exact ih child

end Toml
