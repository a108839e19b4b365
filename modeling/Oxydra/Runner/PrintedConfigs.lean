import Oxydra.Library.TomlLayout
import Oxydra.Runner.WrittenConfigs

/-!
# Configurations as the crate prints them

`toml::to_string_pretty` goes through the fields of a configuration in the order in which they are
declared. What it prints is a layout of the document (`describes_declaredLayout`).
-/

namespace Oxydra

open Option List Toml

variable {names : List String} {t : Table}

/-! ## Lines -/

/-- The digits of a fraction, as far as there are any. -/
def fractionDigits : ℕ → ℚ → String
  | 0, _ => ""
  | fuel + 1, x =>
    if x = 0 then "" else toString (x * 10).floor ++ fractionDigits fuel (x * 10 - (x * 10).floor)

/-- A value on a line. -/
def plainValue : Item → String
  | .string s => "\"" ++ s ++ "\""
  | .integer n => toString n
  | .float x =>
    toString x.floor ++ "." ++ (if x = x.floor then "0" else fractionDigits 17 (x - x.floor))
  | .boolean b => toString b
  | _ => ""

/-- The lines of a key and its value. A string with a newline and an array of more than one element
have several. -/
def crateKeyLines : String × Item → List (List Char)
  | (key, .string s) =>
    if '\n' ∈ s.toList then
      (key ++ " = '''").toList :: (s ++ "'''").toList.splitOn '\n'
    else [(key ++ " = " ++ plainValue (.string s)).toList]
  | (key, .array items) =>
    if items.length ≤ 1 then
      [(key ++ " = [" ++ String.join (items.map plainValue) ++ "]").toList]
    else
      (key ++ " = [").toList ::
        (items.map fun item => ("    " ++ plainValue item ++ ",").toList) ++ ["]".toList]
  | (key, item) => [(key ++ " = " ++ plainValue item).toList]

/-- How `toml::to_string_pretty` prints keys that need no quotes and strings without quotes. -/
def crateFormat : LineFormat where
  header path := ("[" ++ ".".intercalate path ++ "]").toList
  keyLines := crateKeyLines

/-! ## The document of a configuration -/

theorem distinct_of_find {fields : List (FieldSpec Schema)}
    (h : Schema.distinctFields fields = true) {key : String} {field : FieldSpec Schema}
    (hfield : fields.find? (·.name = key) = some field) : field.schema.distinct = true := by
  induction fields with
  | nil => cases hfield
  | cons first fields ih =>
    obtain ⟨name, default, skip, schema⟩ := first
    obtain ⟨hschema, hrest⟩ := Bool.and_eq_true_iff.mp h
    rw [List.find?_cons] at hfield
    split at hfield
    · cases hfield
      exact hschema
    · exact ih hrest hfield

/-- A table that is written is that of a struct or of a map. -/
theorem written_cases (schema : Schema) (hdistinct : schema.distinct = true) {d : Datum}
    (h : schema.holds d = true) (ht : schema.write d = some (.table t)) :
    (∃ fields values, (fields.map FieldSpec.name).Nodup ∧ Schema.distinctFields fields = true ∧
      Schema.holdFields fields values = true ∧ t = Schema.writeFields fields values) ∨
    ∃ (inner : Schema) (values : List (String × Datum)), inner.distinct = true ∧
      (Fields.keys values).Pairwise (· < ·) ∧
      (∀ value ∈ values, inner.holds value.2 = true) ∧
      t = values.filterMap fun f => (inner.write f.2).map (f.1, ·) := by
  match schema, d with
  | .plain type, .plain item =>
    cases ht
    cases type <;> cases h
  | .optional inner, .absent => exact nomatch inner.write_absent.symm.trans ht
  | .optional inner, .plain item => exact written_cases inner hdistinct h ht
  | .optional inner, .list items => exact written_cases inner hdistinct h ht
  | .optional inner, .record values => exact written_cases inner hdistinct h ht
  | .list inner, .list items => cases ht
  | .map inner, .record values =>
    cases ht
    obtain ⟨hkeys, hall⟩ := Bool.and_eq_true_iff.mp h
    exact .inr ⟨inner, values, hdistinct, of_decide_eq_true hkeys, all_eq_true.mp hall, rfl⟩
  | .struct _ fields, .record values =>
    cases ht
    obtain ⟨hnames, hfields⟩ := Bool.and_eq_true_iff.mp hdistinct
    exact .inl ⟨fields, values, of_decide_eq_true hnames, hfields, h, rfl⟩

theorem keys_filterMap_sublist {α β : Type} (write : α → Option β) (values : List (String × α)) :
    (Fields.keys (values.filterMap fun f => (write f.2).map (f.1, ·))).Sublist
      (Fields.keys values) := by
  induction values with
  | nil => exact .slnil
  | cons value values ih =>
    cases hwrite : write value.2 with
    | none =>
      rw [filterMap_cons_none (by rw [hwrite]; rfl)]
      exact ih.cons _
    | some item =>
      rw [@filterMap_cons_some _ _ _ value values (value.1, item) (by rw [hwrite]; rfl)]
      exact ih.cons_cons _

/-- The tables of a value that is written have different keys. -/
theorem distinctBelow_write {schema : Schema} (hdistinct : schema.distinct = true) {d : Datum}
    (h : schema.holds d = true) (ht : schema.write d = some (.table t)) :
    DistinctBelow t := by
  intro path u hu
  induction path generalizing schema d t with
  | nil =>
    cases hu
    obtain ⟨fields, values, -, -, -, rfl⟩ | ⟨inner, values, -, hkeys, -, rfl⟩ :=
      written_cases schema hdistinct h ht
    · exact (pairwise_writeFields fields values).imp ne_of_lt
    · exact (hkeys.imp ne_of_lt).sublist (keys_filterMap_sublist _ _)
  | cons key path ih =>
    obtain ⟨nested, hlookup, hnested⟩ := tableAt_cons_eq_some hu
    obtain ⟨fields, values, hnames, hfields, hvalues, rfl⟩ |
        ⟨inner, values, hinner, -, hall, rfl⟩ := written_cases schema hdistinct h ht
    · rw [lookup_writeFields hnames hvalues] at hlookup
      obtain ⟨field, hfield, hlookup⟩ := bind_eq_some_iff.mp hlookup
      obtain ⟨d', hd', hlookup⟩ := bind_eq_some_iff.mp hlookup
      obtain ⟨d'', hd'', hholds⟩ := exists_value hvalues hfield
      obtain rfl := some.inj (hd'.symm.trans hd'')
      rw [FieldSpec.write] at hlookup
      split_ifs at hlookup
      exact ih (distinct_of_find hfields hfield) hholds hlookup hnested
    · obtain ⟨value, hvalue, hwrite⟩ := mem_filterMap.mp (Fields.mem_of_lookup hlookup)
      obtain ⟨item, hitem, heq⟩ := map_eq_some_iff.mp hwrite
      cases heq
      exact ih hinner (hall value hvalue) hitem hnested

/-! ## The declared order -/

/-- The type without `Option`. -/
def unwrapped : Schema → Schema
  | .optional inner => unwrapped inner
  | schema => schema

/-- The names of the fields at a path, in the order in which they are declared. -/
def declaredNames : List String → Schema → List String
  | [], schema => (structFields (unwrapped schema)).map FieldSpec.name
  | key :: path, schema => ((schema.child key).map (declaredNames path)).getD []

/-- The keys in the order of the names. -/
def orderKeys (names : List String) (keys : Table) : Table :=
  names.filterMap fun name => (keys.lookup name).map (name, ·)

/-- The layout of a document in which the fields stand in the order in which they are declared. -/
def declaredLayout (schema : Schema) (t : Table) : Layout where
  root := orderKeys (declaredNames [] schema) (layoutOf t).root
  sections := (declaredNames [] schema).flatMap fun name =>
    ((layoutOf t).sections.filter fun s => s.path.head? = some name).map fun s =>
      { s with keys := orderKeys (declaredNames s.path schema) s.keys }

/-- Every key of the document is declared, once. -/
structure Declared (schema : Schema) (t : Table) : Prop where
  root : (declaredNames [] schema).Nodup ∧
    Fields.keys (layoutOf t).root ⊆ declaredNames [] schema
  sections : ∀ s ∈ (layoutOf t).sections, (declaredNames s.path schema).Nodup ∧
    Fields.keys s.keys ⊆ declaredNames s.path schema
  paths : (declaredLayout schema t).paths.Perm (layoutOf t).paths

theorem mem_orderKeys {keys : Table} {field : String × Item} :
    field ∈ orderKeys names keys ↔ field.1 ∈ names ∧ keys.lookup field.1 = some field.2 := by
  obtain ⟨key, item⟩ := field
  rw [orderKeys, mem_filterMap]
  constructor
  · rintro ⟨name, hname, hfield⟩
    obtain ⟨item', hitem, heq⟩ := map_eq_some_iff.mp hfield
    cases heq
    exact ⟨hname, hitem⟩
  · rintro ⟨hname, hitem⟩
    exact ⟨key, hname, by rw [hitem]; rfl⟩

theorem nodup_orderKeys (h : names.Nodup) (keys : Table) :
    (orderKeys names keys).Nodup := by
  refine h.filterMap fun name name' field hfield hfield' => ?_
  obtain ⟨item, -, rfl⟩ := map_eq_some_iff.mp hfield
  obtain ⟨item', -, heq⟩ := map_eq_some_iff.mp hfield'
  exact (Prod.mk.inj heq).1.symm

/-- Declared keys are put in another order. -/
theorem perm_orderKeys {keys : Table} (hnames : names.Nodup) (hkeys : (Fields.keys keys).Nodup)
    (hsub : Fields.keys keys ⊆ names) :
    (orderKeys names keys).Perm keys := by
  refine (perm_ext_iff_of_nodup (nodup_orderKeys hnames keys) hkeys.of_map).mpr fun field => ?_
  rw [mem_orderKeys]
  constructor
  · rintro ⟨-, hlookup⟩
    exact Fields.mem_of_lookup hlookup
  · intro hfield
    exact ⟨hsub (mem_map_of_mem hfield), Fields.lookup_of_mem hkeys hfield⟩

/-- The layout in the declared order is one of the document. -/
theorem describes_declaredLayout {schema : Schema} (h : DistinctBelow t)
    (hdeclared : Declared schema t) : (declaredLayout schema t).Describes t := by
  have hlayout := describes_layoutOf h
  refine hlayout.reorder (perm_orderKeys hdeclared.root.1 hlayout.root.nodup hdeclared.root.2)
    hdeclared.paths fun s' hs' => ?_
  obtain ⟨name, -, hs'⟩ := mem_flatMap.mp hs'
  obtain ⟨s, hs, rfl⟩ := mem_map.mp hs'
  have hmem := (mem_filter.mp hs).1
  obtain ⟨-, u, -, hkeys⟩ := hlayout.sections s hmem
  obtain ⟨hnames, hsub⟩ := hdeclared.sections s hmem
  exact ⟨s, hmem, rfl, perm_orderKeys hnames hkeys.nodup hsub⟩

end Oxydra
