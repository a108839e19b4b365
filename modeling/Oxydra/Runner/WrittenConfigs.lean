import Oxydra.Runner.UnchangedConfigs

/-!
# Configurations that are written and read

What `Serialize` writes of a value is read as this value, by a type in which every field that can be
left out has what was left out as its default (`Schema.Restores`). The agent's configuration is of
such a type, `tools.shell` with its `Default` notwithstanding: the default of the field is `None`.
-/

namespace Toml

open Option

/-- `Option`. -/
def Schema.isOptional : Schema → Bool
  | .optional _ => true
  | _ => false

mutual

/-- Where a value is left out of what is written, its default is this value. -/
def Schema.Restores : Schema → Prop
  | .plain _ => True
  | .optional inner => inner.Restores
  | .list inner | .map inner => inner.isOptional = false ∧ inner.Restores
  | .struct _ fields => Schema.RestoresFields fields

def Schema.RestoresFields : List (FieldSpec Schema) → Prop
  | [] => True
  | ⟨_, default, skip, schema⟩ :: fields =>
    ((∀ d, skip d = true → default = some d) ∧
      (schema.isOptional = true → default = some .absent) ∧ schema.Restores) ∧
      Schema.RestoresFields fields

end

/-! ## What is written -/

/-- Nothing is written for a `None`, and for nothing else. -/
theorem Schema.write_eq_none (schema : Schema) {d : Datum} (h : schema.holds d = true)
    (hnone : schema.write d = none) : d = .absent ∧ schema.isOptional = true := by
  match schema, d with
  | .plain type, .plain item => cases hnone
  | .optional inner, .absent => exact ⟨rfl, rfl⟩
  | .optional inner, .plain item => exact nomatch (inner.write_eq_none h hnone).1
  | .optional inner, .list items => exact nomatch (inner.write_eq_none h hnone).1
  | .optional inner, .record fields => exact nomatch (inner.write_eq_none h hnone).1
  | .list inner, .list items => cases hnone
  | .map inner, .record fields => cases hnone
  | .struct _ fields, .record values => cases hnone

/-- What is absent is not written. -/
theorem Schema.write_absent (schema : Schema) : schema.write .absent = none := by
  match schema with
  | .optional inner => exact inner.write_absent
  | .plain _ | .list _ | .map _ | .struct _ _ => rfl

/-- Only fields are written. -/
theorem not_mem_writeFields {fields : List (FieldSpec Schema)} {name : String}
    (h : name ∉ fields.map FieldSpec.name) (values : List (String × Datum)) :
    name ∉ Fields.keys (Schema.writeFields fields values) := by
  induction fields with
  | nil => exact List.not_mem_nil
  | cons field fields ih =>
    obtain ⟨hne, hrest⟩ := not_or.mp (mt List.mem_cons.mpr h)
    obtain ⟨key, default, skip, schema⟩ := field
    rw [Schema.writeFields]
    split
    · split
      · rw [Fields.mem_keys_insert, not_or]
        exact ⟨hne, ih hrest⟩
      · exact ih hrest
    · exact ih hrest

/-- A value under a name that no field has is not written. -/
theorem writeFields_of_not_mem {fields : List (FieldSpec Schema)} {name : String}
    (h : name ∉ fields.map FieldSpec.name) (d : Datum) (values : List (String × Datum)) :
    Schema.writeFields fields ((name, d) :: values) = Schema.writeFields fields values := by
  induction fields with
  | nil => rfl
  | cons field fields ih =>
    obtain ⟨hne, hrest⟩ := not_or.mp (mt List.mem_cons.mpr h)
    obtain ⟨key, default, skip, schema⟩ := field
    rw [Schema.writeFields, Schema.writeFields, Fields.lookup_cons, if_neg (Ne.symm hne), ih hrest]

/-- The item of a field, where it is written. -/
def FieldSpec.write (field : FieldSpec Schema) (d : Datum) : Option Item :=
  if field.skip d then none else field.schema.write d

/-- The fields of a struct, from the first one on. -/
theorem writeFields_cons {field : FieldSpec Schema} {fields : List (FieldSpec Schema)}
    (h : field.name ∉ fields.map FieldSpec.name) (d : Datum) (values : List (String × Datum)) :
    Schema.writeFields (field :: fields) ((field.name, d) :: values) =
      match field.write d with
      | some item => Fields.insert field.name item (Schema.writeFields fields values)
      | none => Schema.writeFields fields values := by
  obtain ⟨key, default, skip, schema⟩ := field
  rw [Schema.writeFields, Fields.lookup_cons, if_pos rfl, writeFields_of_not_mem h]
  rfl

/-- What is found under the names of a struct. -/
theorem lookup_writeFields {fields : List (FieldSpec Schema)}
    (hnames : (fields.map FieldSpec.name).Nodup) {values : List (String × Datum)}
    (h : Schema.holdFields fields values = true) (key : String) :
    (Schema.writeFields fields values).lookup key =
      (fields.find? (·.name = key)).bind fun field => (values.lookup key).bind field.write := by
  induction fields generalizing values with
  | nil => cases values <;> rfl
  | cons field fields ih =>
    cases values with
    | nil => cases h
    | cons value values =>
      obtain ⟨name, default, skip, schema⟩ := field
      obtain ⟨name', d⟩ := value
      obtain ⟨hfirst, hrest⟩ := Bool.and_eq_true_iff.mp h
      obtain rfl := of_decide_eq_true (Bool.and_eq_true_iff.mp hfirst).1
      obtain ⟨hnot, hnames⟩ := List.nodup_cons.mp hnames
      have hwrite := @writeFields_cons ⟨name', default, skip, schema⟩ fields hnot d values
      have hlookup := ih hnames hrest
      rw [hwrite, List.find?_cons, Fields.lookup_cons]
      by_cases hkey : key = name'
      · subst hkey
        simp only [decide_true, if_pos, Option.bind_some]
        have hnone := Fields.lookup_eq_none (not_mem_writeFields hnot values)
        cases FieldSpec.write ⟨key, default, skip, schema⟩ d with
        | none => exact hnone
        | some item => simp [Fields.lookup_insert]
      · simp only [Ne.symm hkey, decide_false, if_neg hkey]
        rw [← hlookup]
        cases FieldSpec.write ⟨name', default, skip, schema⟩ d with
        | none => rfl
        | some item => simp [Fields.lookup_insert, hkey]

/-- What is written of a struct is in key order. -/
theorem pairwise_writeFields (fields : List (FieldSpec Schema)) (values : List (String × Datum)) :
    (Fields.keys (Schema.writeFields fields values)).Pairwise (· < ·) := by
  induction fields with
  | nil => exact .nil
  | cons field fields ih =>
    obtain ⟨key, default, skip, schema⟩ := field
    rw [Schema.writeFields]
    split
    · split
      · exact Fields.pairwise_insert ih
      · exact ih
    · exact ih

/-! ## What is read again -/

variable {c : Coercions}

/-- A plain value is read as it is. -/
theorem Plain.read_of_holds {type : Plain} {item : Item} (h : type.holds item = true) :
    type.read item = some item := by
  cases type <;> cases item <;> simp_all [Plain.holds, Plain.read]

/-- Values that are written and read back. -/
theorem mapM_filterMap_eq {α β : Type} {write : α → Option β} {read : β → Option α} {xs : List α}
    (h : ∀ x ∈ xs, ∃ y, write x = some y ∧ read y = some x) :
    (xs.filterMap write).mapM read = some xs := by
  induction xs with
  | nil => rfl
  | cons x xs ih =>
    rw [List.forall_mem_cons] at h
    obtain ⟨⟨y, hwrite, hread⟩, hrest⟩ := h
    rw [List.filterMap_cons_some hwrite, List.mapM_cons, hread, ih hrest]
    rfl

mutual

/-- What is written of a value is read as this value. -/
theorem Schema.read_write (schema : Schema) (hdistinct : schema.distinct = true)
    (hrestores : schema.Restores) {d : Datum} (h : schema.holds d = true) {item : Item}
    (hitem : schema.write d = some item) : schema.read c item = some d := by
  match schema, d with
  | .plain type, .plain item' =>
    cases hitem
    rw [Schema.read, Plain.read_of_holds h]
    rfl
  | .optional inner, .absent => exact nomatch inner.write_absent.symm.trans hitem
  | .optional inner, .plain item' =>
    rw [Schema.read]
    exact inner.read_write hdistinct hrestores h hitem
  | .optional inner, .list items =>
    rw [Schema.read]
    exact inner.read_write hdistinct hrestores h hitem
  | .optional inner, .record fields =>
    rw [Schema.read]
    exact inner.read_write hdistinct hrestores h hitem
  | .list inner, .list items =>
    cases hitem
    have hitems : (items.filterMap inner.write).mapM (inner.read c) = some items := by
      refine mapM_filterMap_eq fun d hd => ?_
      have hholds := List.all_eq_true.mp h d hd
      obtain ⟨item, hwrite⟩ := Option.ne_none_iff_exists'.mp fun hnone =>
        absurd (inner.write_eq_none hholds hnone).2 (by rw [hrestores.1]; decide)
      exact ⟨item, hwrite, inner.read_write hdistinct hrestores.2 hholds hwrite⟩
    rw [Schema.read, hitems]
    rfl
  | .map inner, .record fields =>
    cases hitem
    obtain ⟨-, hall⟩ := Bool.and_eq_true_iff.mp h
    have hfields : (fields.filterMap fun f => (inner.write f.2).map (f.1, ·)).mapM
        (fun f => (inner.read c f.2).map (f.1, ·)) = some fields := by
      refine mapM_filterMap_eq fun field hfield => ?_
      have hholds := List.all_eq_true.mp hall field hfield
      obtain ⟨item, hwrite⟩ := Option.ne_none_iff_exists'.mp fun hnone =>
        absurd (inner.write_eq_none hholds hnone).2 (by rw [hrestores.1]; decide)
      refine ⟨(field.1, item), by rw [hwrite]; rfl, ?_⟩
      rw [inner.read_write hdistinct hrestores.2 hholds hwrite]
      rfl
    rw [Schema.read, hfields]
    rfl
  | .struct deny_unknown fields, .record values =>
    cases hitem
    obtain ⟨hnames, hfields⟩ := Bool.and_eq_true_iff.mp hdistinct
    have hnames := of_decide_eq_true hnames
    have hknown : ¬(deny_unknown = true ∧ ∃ f ∈ Schema.writeFields fields values,
        ∀ field ∈ fields, field.name ≠ f.1) := by
      rintro ⟨-, f, hf, hunknown⟩
      refine not_mem_writeFields (fun hmem => ?_) values (List.mem_map_of_mem hf)
      obtain ⟨field, hfield, hname⟩ := List.mem_map.mp hmem
      exact hunknown field hfield hname
    rw [Schema.read, if_neg hknown,
      readFields_write fields hnames hfields hrestores h fun name _ => rfl]
    rfl

/-- `Schema.read_write` of fields. -/
theorem readFields_write (fields : List (FieldSpec Schema))
    (hnames : (fields.map FieldSpec.name).Nodup) (hdistinct : Schema.distinctFields fields = true)
    (hrestores : Schema.RestoresFields fields) {values : List (String × Datum)}
    (h : Schema.holdFields fields values = true) {t : Table}
    (ht : ∀ name ∈ fields.map FieldSpec.name,
      t.lookup name = (Schema.writeFields fields values).lookup name) :
    Schema.readFields c fields t = some values := by
  match fields, values with
  | [], [] => rfl
  | ⟨name, default, skip, schema⟩ :: fields, (name', d) :: values =>
    have hlookup := lookup_writeFields hnames h
    obtain ⟨hfirst, hrest⟩ := Bool.and_eq_true_iff.mp h
    obtain ⟨hname, hd⟩ := Bool.and_eq_true_iff.mp hfirst
    obtain rfl := of_decide_eq_true hname
    obtain ⟨hnot, hnames⟩ := List.nodup_cons.mp hnames
    obtain ⟨hschema, hdistinct⟩ := Bool.and_eq_true_iff.mp hdistinct
    obtain ⟨⟨hskip, habsent, hrestores⟩, hrestoreFields⟩ := hrestores
    have hread : Schema.readFields c fields t = some values := by
      refine readFields_write fields hnames hdistinct hrestoreFields hrest fun name hmem => ?_
      have hne : name ≠ name' := fun heq => hnot (heq ▸ hmem)
      rw [ht name (List.mem_cons_of_mem _ hmem), hlookup, lookup_writeFields hnames hrest,
        List.find?_cons, Fields.lookup_cons, if_neg hne]
      simp [Ne.symm hne]
    have hown : t.lookup name' = if skip d then none else schema.write d := by
      rw [ht name' List.mem_cons_self, hlookup, List.find?_cons, Fields.lookup_cons, if_pos rfl]
      simp [FieldSpec.write]
    rw [Schema.readFields, hown]
    cases hskipped : skip d with
    | true =>
      simp only [if_true, hskip d hskipped, hread]
      rfl
    | false =>
      simp only [Bool.false_eq_true, if_false]
      cases hwrite : schema.write d with
      | some item =>
        simp only [schema.read_write hschema hrestores hd hwrite, hread]
        rfl
      | none =>
        obtain ⟨rfl, hoptional⟩ := schema.write_eq_none hd hwrite
        simp only [habsent hoptional, hread]
        rfl

end

/-! ## A value that is replaced -/

/-- The values of a struct, the one of a field replaced. -/
def putValue (key : String) (f : Datum → Datum) (values : List (String × Datum)) :
    List (String × Datum) :=
  values.map fun value => if value.1 = key then (value.1, f value.2) else value

/-- The value at a path of field names replaced. -/
def Datum.put : List String → Datum → Datum → Datum
  | [], _, x => x
  | key :: path, .record values, x => .record (putValue key (Datum.put path · x) values)
  | _, d, _ => d

/-- The first value. -/
theorem putValue_cons (key name : String) (f : Datum → Datum) (d : Datum)
    (values : List (String × Datum)) : putValue key f ((name, d) :: values) =
      (name, if name = key then f d else d) :: putValue key f values := by
  rw [putValue, List.map_cons]
  split_ifs <;> rfl

/-- One value is changed. -/
theorem lookup_putValue (key key' : String) (f : Datum → Datum) (values : List (String × Datum)) :
    (putValue key f values).lookup key' =
      if key' = key then (values.lookup key').map f else values.lookup key' := by
  induction values with
  | nil => simp [putValue]
  | cons value values ih =>
    obtain ⟨name, d⟩ := value
    rw [putValue_cons, Fields.lookup_cons, ih, Fields.lookup_cons]
    by_cases hname : key' = name
    · subst hname
      split_ifs <;> simp
    · rw [if_neg hname, if_neg hname]

/-- A value of the field's type in place of one. -/
theorem holdFields_putValue {fields : List (FieldSpec Schema)} {values : List (String × Datum)}
    (h : Schema.holdFields fields values = true) {key : String} {f : Datum → Datum}
    (hf : ∀ field ∈ fields, field.name = key → ∀ d, field.schema.holds d = true →
      field.schema.holds (f d) = true) :
    Schema.holdFields fields (putValue key f values) = true := by
  induction fields generalizing values with
  | nil =>
    cases values with
    | nil => rfl
    | cons value values => cases h
  | cons first fields ih =>
    cases values with
    | nil => cases h
    | cons value values =>
      obtain ⟨name, default, skip, schema⟩ := first
      obtain ⟨name', d⟩ := value
      obtain ⟨hfirst, hrest⟩ := Bool.and_eq_true_iff.mp h
      obtain ⟨hname, hd⟩ := Bool.and_eq_true_iff.mp hfirst
      obtain rfl := of_decide_eq_true hname
      rw [List.forall_mem_cons] at hf
      rw [putValue_cons, Schema.holdFields, Bool.and_eq_true_iff, Bool.and_eq_true_iff]
      refine ⟨⟨decide_eq_true rfl, ?_⟩, ih hrest hf.2⟩
      split_ifs with hkey
      · exact hf.1 hkey d hd
      · exact hd

/-- The item of the field is replaced. -/
theorem writeFields_putValue {fields : List (FieldSpec Schema)}
    (hnames : (fields.map FieldSpec.name).Nodup) {values : List (String × Datum)}
    (h : Schema.holdFields fields values = true) {key : String} {f : Datum → Datum}
    (h' : Schema.holdFields fields (putValue key f values) = true) {field : FieldSpec Schema}
    (hfield : fields.find? (·.name = key) = some field) {d : Datum}
    (hd : values.lookup key = some d) {item : Item} (hitem : field.write (f d) = some item) :
    Schema.writeFields fields (putValue key f values) =
      Fields.insert key item (Schema.writeFields fields values) := by
  refine Fields.ext_lookup (pairwise_writeFields _ _)
    (Fields.pairwise_insert (pairwise_writeFields _ _)) fun name => ?_
  rw [Fields.lookup_insert, lookup_writeFields hnames h', lookup_writeFields hnames h,
    lookup_putValue]
  by_cases hname : name = key
  · rw [if_pos hname, if_pos hname, hname, hfield, hd]
    exact hitem
  · rw [if_neg hname, if_neg hname]

/-! ## The fields of a struct -/

/-- The fields of a struct. -/
def structFields : Schema → List (FieldSpec Schema)
  | .struct _ fields => fields
  | _ => []

/-- No struct has two fields of a name. -/
theorem nodup_names {schema : Schema} (h : schema.distinct = true) :
    ((structFields schema).map FieldSpec.name).Nodup := by
  cases schema with
  | struct deny_unknown fields => exact of_decide_eq_true (Bool.and_eq_true_iff.mp h).1
  | _ => exact List.nodup_nil

/-- Each field has a value. -/
theorem exists_value {fields : List (FieldSpec Schema)} {values : List (String × Datum)}
    (h : Schema.holdFields fields values = true) {key : String} {field : FieldSpec Schema}
    (hfield : fields.find? (·.name = key) = some field) :
    ∃ d, values.lookup key = some d ∧ field.schema.holds d = true := by
  induction fields generalizing values with
  | nil => cases hfield
  | cons first fields ih =>
    cases values with
    | nil => cases h
    | cons value values =>
      obtain ⟨name, default, skip, schema⟩ := first
      obtain ⟨name', d⟩ := value
      obtain ⟨hfirst, hrest⟩ := Bool.and_eq_true_iff.mp h
      obtain ⟨hname, hd⟩ := Bool.and_eq_true_iff.mp hfirst
      obtain rfl := of_decide_eq_true hname
      rw [List.find?_cons] at hfield
      rw [Fields.lookup_cons]
      by_cases hkey : name' = key
      · simp only [hkey, decide_true, some.injEq] at hfield
        subst hfield
        exact ⟨d, if_pos hkey.symm, hd⟩
      · simp only [hkey, decide_false] at hfield
        rw [if_neg (Ne.symm hkey)]
        exact ih hrest hfield

/-- A value of a struct has the values of its fields. -/
theorem exists_values {deny_unknown : Bool} {fields : List (FieldSpec Schema)} {d : Datum}
    (h : (Schema.struct deny_unknown fields).holds d = true) :
    ∃ values, d = .record values ∧ Schema.holdFields fields values = true := by
  cases d with
  | record values => exact ⟨values, rfl, h⟩
  | _ => cases h

end Toml
