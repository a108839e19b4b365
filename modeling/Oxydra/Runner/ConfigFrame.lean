import Oxydra.Library.Effect
import Oxydra.Runner.ConfigPatch

/-!
# What a patch leaves alone

The patch is applied to the document, and the configuration is read from the document, so a field
that the patch does not mention is read from the item that was there before. Where the document had
no table for a section, the section had its value from somewhere else: from the `Default` of its
type, or from an item that is no table. The patch puts a table there, and the fields that it does
not mention now have the defaults of the fields.

`frame_iff` says that the fields keep their values exactly if these defaults are the values that
they had. In an agent configuration without a `memory` table they are not: a patch of one of the
fields of `memory` disables the memory.
-/

namespace Oxydra

open Except Option List Toml Effect

/-! ## Paths in a patch -/

/-- The value at a path of keys. -/
def Value.getPath : List String → Value → Option Value
  | [], v => some v
  | key :: path, v => (v.get? key).bind (getPath path)

/-- The patch mentions a field: the field itself, something in it, or something that it is in and
that the patch sets to no object. -/
def Value.mentions : List String → Value → Bool
  | [], _ => true
  | key :: path, .object fields =>
    match fields.lookup key with
    | some v => v.mentions path
    | none => false
  | _ :: _, _ => true

/-- The keys of each object that the patch consists of are different, as they are in a
`serde_json::Map`. -/
def Value.DistinctKeys (patch : Value) : Prop :=
  ∀ path fields, patch.getPath path = some (.object fields) → (Fields.keys fields).Nodup

theorem Value.DistinctKeys.below {fields : List (String × Value)} {key : String} {v : Value}
    (h : (Value.object fields).DistinctKeys) (hv : fields.lookup key = some v) :
    v.DistinctKeys := by
  intro path nested hnested
  refine h (key :: path) nested ?_
  rw [Value.getPath, Value.get?, hv]
  exact hnested

/-- Only an object has objects in it. -/
theorem exists_object_of_getPath {path : List String} {v : Value} {fields : List (String × Value)}
    (h : v.getPath path = some (.object fields)) : ∃ nested, v = .object nested := by
  cases path with
  | nil => exact ⟨fields, some.inj h⟩
  | cons key path =>
    cases v with
    | object nested => exact ⟨nested, rfl⟩
    | _ => cases h

/-- A field is not mentioned where an object of the patch lacks a key. -/
theorem mentions_eq_false_iff {patch : Value} {path : List String} :
    patch.mentions path = false ↔ ∃ front fields key rest, path = front ++ key :: rest ∧
      patch.getPath front = some (.object fields) ∧ fields.lookup key = none := by
  induction path generalizing patch with
  | nil => simp [Value.mentions]
  | cons name path ih =>
    constructor
    · intro h
      cases patch with
      | object fields =>
        rw [Value.mentions] at h
        cases hv : fields.lookup name with
        | none => exact ⟨[], fields, name, path, rfl, rfl, hv⟩
        | some v =>
          rw [hv] at h
          obtain ⟨front, nested, key, rest, rfl, hnested, hkey⟩ := ih.mp h
          refine ⟨name :: front, nested, key, rest, rfl, ?_, hkey⟩
          rw [Value.getPath, Value.get?, hv]
          exact hnested
      | _ => cases h
    · rintro ⟨front, nested, key, rest, hpath, hnested, hkey⟩
      obtain ⟨fields, rfl⟩ := exists_object_of_getPath hnested
      rw [Value.mentions]
      cases front with
      | nil =>
        obtain ⟨rfl, -⟩ := List.cons.inj hpath
        cases hnested
        rw [hkey]
      | cons name' front =>
        cases hpath
        rw [Value.getPath, Value.get?] at hnested
        obtain ⟨v, hv, hnested⟩ := bind_eq_some_iff.mp hnested
        rw [hv]
        exact ih.mpr ⟨front, nested, key, rest, rfl, hnested, hkey⟩

/-! ## The patched table -/

section Patched

variable {secret_sentinel : String} {t t' : Table}

/-- A step of the loop changes the item of its key only. -/
theorem lookup_applyPatchValue {key key' : String} {v : Value}
    (h : applyPatchValue secret_sentinel key v t = .ok t') (hne : key' ≠ key) :
    t'.lookup key' = t.lookup key' := by
  have hinsert : ∀ item, (Fields.insert key item t).lookup key' = t.lookup key' := by
    intro item
    rw [Fields.lookup_insert, if_neg hne]
  cases v with
  | null =>
    rw [applyPatchValue] at h
    rw [← ok.inj h, Fields.lookup_remove hne]
  | object nested =>
    rw [applyPatchValue] at h
    obtain ⟨nested_table, -, h⟩ := except_bind_eq_ok.mp h
    rw [← ok.inj h, hinsert]
  | string value =>
    rw [applyPatchValue] at h
    split_ifs at h
    · rw [ok.inj h]
    · obtain ⟨item, -, h⟩ := except_bind_eq_ok.mp h
      rw [← ok.inj h, hinsert]
  | _ =>
    simp only [applyPatchValue] at h
    obtain ⟨item, -, h⟩ := except_bind_eq_ok.mp h
    rw [← ok.inj h, hinsert]

/-- The items of keys that the patch lacks stay. -/
theorem lookup_applyPatchToTable {patch_obj : List (String × Value)} {key : String}
    (h : applyPatchToTable secret_sentinel patch_obj t = .ok t')
    (hkey : patch_obj.lookup key = none) : t'.lookup key = t.lookup key := by
  induction patch_obj generalizing t with
  | nil =>
    rw [applyPatchToTable] at h
    rw [ok.inj h]
  | cons entry patch_obj ih =>
    obtain ⟨name, v⟩ := entry
    rw [applyPatchToTable] at h
    obtain ⟨t₁, hstep, h⟩ := except_bind_eq_ok.mp h
    rw [Fields.lookup_cons] at hkey
    split_ifs at hkey with hne
    rw [ih h hkey, lookup_applyPatchValue hstep hne]

/-- Where the patch has an object, there is a table, patched with it. -/
theorem lookup_applyPatchToTable_object {patch_obj nested : List (String × Value)} {key : String}
    (h : applyPatchToTable secret_sentinel patch_obj t = .ok t')
    (hkeys : (Fields.keys patch_obj).Nodup)
    (hnested : patch_obj.lookup key = some (.object nested)) :
    ∃ nested_table, applyPatchToTable secret_sentinel nested (nestedTable (t.lookup key)) =
        .ok nested_table ∧ t'.lookup key = some (.table nested_table) := by
  induction patch_obj generalizing t with
  | nil => cases hnested
  | cons entry patch_obj ih =>
    obtain ⟨name, v⟩ := entry
    obtain ⟨hnot, hkeys⟩ := nodup_cons.mp hkeys
    rw [applyPatchToTable] at h
    obtain ⟨t₁, hstep, hrest⟩ := except_bind_eq_ok.mp h
    rw [Fields.lookup_cons] at hnested
    split_ifs at hnested with heq
    · -- the patch has no other entry of this key
      cases hnested
      subst heq
      rw [applyPatchValue] at hstep
      obtain ⟨nested_table, hpatched, hstep⟩ := except_bind_eq_ok.mp hstep
      refine ⟨nested_table, hpatched, ?_⟩
      rw [lookup_applyPatchToTable hrest (Fields.lookup_eq_none hnot), ← ok.inj hstep,
        Fields.lookup_insert, if_pos rfl]
    · rw [← lookup_applyPatchValue hstep heq]
      exact ih hrest hkeys hnested

end Patched

/-! ## The values of fields that are not mentioned -/

section Values

variable {c : Coercions} {secret_sentinel : String} {schema : Schema}
  {patch_obj fields : List (String × Value)} {path : List String} {key : String}

/-- In a table that the patch creates, such a field has its default. -/
theorem get_of_created {t' : Table} {d' : Datum}
    (h : applyPatchToTable secret_sentinel patch_obj [] = .ok t')
    (hkeys : (Value.object patch_obj).DistinctKeys) (hread : schema.read c (.table t') = some d')
    (hfields : (Value.object patch_obj).getPath path = some (.object fields))
    (hkey : fields.lookup key = none) :
    d'.get (path ++ [key]) = schema.missingAt path key := by
  induction path generalizing schema patch_obj t' d' with
  | nil =>
    cases hfields
    rw [nil_append, schema.read_table hread, lookup_applyPatchToTable h hkey]
    rfl
  | cons name path ih =>
    rw [Value.getPath, Value.get?] at hfields
    obtain ⟨v, hv, hfields⟩ := bind_eq_some_iff.mp hfields
    obtain ⟨nested, rfl⟩ := exists_object_of_getPath hfields
    obtain ⟨t₁, hpatched, hitem⟩ := lookup_applyPatchToTable_object h (hkeys [] _ rfl) hv
    rw [cons_append, Datum.get_cons, Schema.missingAt]
    cases hchild : schema.child name with
    | none =>
      rw [schema.read_table hread, hitem, hchild]
      rfl
    | some child =>
      obtain ⟨d₁, hread₁, hget⟩ := schema.read_child hread hitem hchild
      rw [hget]
      exact ih hpatched (hkeys.below hv) hread₁ hfields

/-- Below a table of the document, such a field keeps its value; below one that is not there, it has
its default. -/
theorem get_of_patched {t t' : Table} {d d' : Datum}
    (h : applyPatchToTable secret_sentinel patch_obj t = .ok t')
    (hkeys : (Value.object patch_obj).DistinctKeys) (hbefore : schema.read c (.table t) = some d)
    (hafter : schema.read c (.table t') = some d')
    (hfields : (Value.object patch_obj).getPath path = some (.object fields))
    (hkey : fields.lookup key = none) :
    d'.get (path ++ [key]) =
      if (tableAt path t).isSome then d.get (path ++ [key]) else schema.missingAt path key := by
  induction path generalizing schema patch_obj t t' d d' with
  | nil =>
    cases hfields
    rw [nil_append, schema.read_table hafter, lookup_applyPatchToTable h hkey,
      schema.read_table hbefore]
    rfl
  | cons name path ih =>
    rw [Value.getPath, Value.get?] at hfields
    obtain ⟨v, hv, hfields⟩ := bind_eq_some_iff.mp hfields
    obtain ⟨nested, rfl⟩ := exists_object_of_getPath hfields
    obtain ⟨t₁, hpatched, hitem⟩ := lookup_applyPatchToTable_object h (hkeys [] _ rfl) hv
    rw [cons_append, Datum.get_cons, Datum.get_cons name (path ++ [key]) d, Schema.missingAt]
    cases hchild : schema.child name with
    | none =>
      have hnone : d.get [name] = none := by
        rw [schema.read_table hbefore, hchild, schema.missing_of_child hchild]
        cases t.lookup name <;> rfl
      rw [schema.read_table hafter, hitem, hchild, hnone]
      simp
    | some child =>
      obtain ⟨d'₁, hafter₁, hget'⟩ := schema.read_child hafter hitem hchild
      rw [hget']
      have hcreated : nestedTable (t.lookup name) = [] →
          d'₁.get (path ++ [key]) = child.missingAt path key := by
        intro hnil
        rw [hnil] at hpatched
        exact get_of_created hpatched (hkeys.below hv) hafter₁ hfields hkey
      cases hold : t.lookup name with
      | none =>
        rw [tableAt, hold]
        exact hcreated (by rw [hold]; rfl)
      | some item =>
        cases item with
        | table t₀ =>
          obtain ⟨d₁, hbefore₁, hget⟩ := schema.read_child hbefore hold hchild
          rw [hold] at hpatched
          rw [hget, tableAt, hold]
          exact ih hpatched (hkeys.below hv) hbefore₁ hafter₁ hfields
        | _ =>
          rw [tableAt, hold]
          exact hcreated (by rw [hold]; rfl)

end Values

/-! ## The frame -/

/-- Of each section that the configuration has before, the fields that the patch does not mention
are the same after. -/
def KeepsUnmentioned (patch : Value) (before after : Datum) : Prop :=
  ∀ path key fields, before.get path = some (.record fields) →
    patch.mentions (path ++ [key]) = false →
      before.get (path ++ [key]) = after.get (path ++ [key])

/-- Where the patch has an object and the document no table, the fields that the object lacks have
their own defaults already. -/
def CreatesAlike (schema : Schema) (document : Table) (before : Datum) (patch : Value) : Prop :=
  ∀ path nested fields key, patch.getPath path = some (.object nested) →
    tableAt path document = none → before.get path = some (.record fields) →
      nested.lookup key = none → before.get (path ++ [key]) = schema.missingAt path key

/-- A patch of a table keeps the other fields exactly if it creates its sections alike. -/
theorem keepsUnmentioned_iff {c : Coercions} {secret_sentinel : String} {schema : Schema}
    {patch_obj : List (String × Value)} {t t' : Table} {before after : Datum}
    (h : applyPatchToTable secret_sentinel patch_obj t = .ok t')
    (hkeys : (Value.object patch_obj).DistinctKeys)
    (hbefore : schema.read c (.table t) = some before)
    (hafter : schema.read c (.table t') = some after) :
    KeepsUnmentioned (.object patch_obj) before after ↔
      CreatesAlike schema t before (.object patch_obj) := by
  constructor
  · intro hkeeps path nested fields key hnested hcreated hsection hkey
    have hnot : (Value.object patch_obj).mentions (path ++ [key]) = false :=
      mentions_eq_false_iff.mpr ⟨path, nested, key, [], rfl, hnested, hkey⟩
    rw [hkeeps path key fields hsection hnot,
      get_of_patched h hkeys hbefore hafter hnested hkey, hcreated]
    rfl
  · intro halike path key fields hsection hnot
    obtain ⟨front, nested, name, rest, hpath, hnested, hname⟩ := mentions_eq_false_iff.mp hnot
    -- the section in which the patch lacks the name is one of the configuration before
    obtain ⟨outer, houter⟩ : ∃ outer, before.get front = some (.record outer) := by
      rcases eq_nil_or_concat rest with rfl | ⟨init, last, rfl⟩
      · obtain ⟨rfl, -⟩ := append_inj' hpath rfl
        exact ⟨fields, hsection⟩
      · rw [concat_eq_append, ← cons_append, ← append_assoc] at hpath
        obtain ⟨rfl, -⟩ := append_inj' hpath rfl
        rw [Datum.get_append] at hsection
        obtain ⟨d, hd, hrest⟩ := bind_eq_some_iff.mp hsection
        cases d with
        | record outer => exact ⟨outer, hd⟩
        | _ => cases hrest
    have hsame : before.get (front ++ [name]) = after.get (front ++ [name]) := by
      rw [get_of_patched h hkeys hbefore hafter hnested hname]
      split_ifs with htable
      · rfl
      · exact halike front nested outer name hnested (not_isSome_iff_eq_none.mp htable)
          houter hname
    rw [hpath, append_cons, Datum.get_append, Datum.get_append _ _ after, hsame]

section Runs

variable {toml : TomlCrate} {type : ConfigType} {validate : Datum → Except String Unit}
  {path : String} {file : ConfigFile} {patch : Value} {prepared : PreparedPatch}

section

variable (toml : TomlCrate) (type : ConfigType) (path : String) (file : ConfigFile)

/-- The document that is patched, and the configuration that is read from it. -/
def existingConfig :
    Option (Table × Datum) := do
  let (existing_toml, _) ← (existingToml toml type path file).toOption
  let document ← (toml.parse existing_toml).toOption
  let before_typed ← type.schema.read toml.coercions (.table document)
  return (document, before_typed)

/-- The configuration of the rendered text has the fields of the one before that the patch does not
mention. -/
def PreservesFrame (patch : Value) (prepared : PreparedPatch) : Prop :=
  ∃ document before after, existingConfig toml type path file = some (document, before) ∧
    toml.fromStr type.schema prepared.rendered_toml = .ok after ∧
    KeepsUnmentioned patch before after

/-- What `toml_edit` prints of the patched document is read as this document. -/
def TomlCrate.PrintsBack (patch : Value) : Prop :=
  ∀ existing_toml file_exists document patched,
    existingToml toml type path file = .ok (existing_toml, file_exists) →
    toml.parse existing_toml = .ok document →
    applyJsonMergePatch document patch secretSentinel = .ok patched →
      toml.parse (toml.edited existing_toml patched) = .ok patched

end

theorem fromStr_eq_ok {schema : Schema} {text : String} {d : Datum} :
    toml.fromStr schema text = .ok d ↔
      ∃ document, toml.parse text = .ok document ∧
        schema.read toml.coercions (.table document) = some d := by
  unfold TomlCrate.fromStr
  rw [except_bind_eq_ok]
  refine exists_congr fun document => and_congr_right fun _ => ?_
  cases schema.read toml.coercions (.table document) <;> simp

/-- What a patch that is accepted went through. -/
theorem preparePatch_eq_ok (h : preparePatch toml type validate path file patch = .ok prepared) :
    ∃ patch_obj existing_toml file_exists document before patched after,
      patch = .object patch_obj ∧
      existingToml toml type path file = .ok (existing_toml, file_exists) ∧
      toml.parse existing_toml = .ok document ∧
      type.schema.read toml.coercions (.table document) = some before ∧
      applyPatchToTable secretSentinel patch_obj document = .ok patched ∧
      prepared.rendered_toml = toml.edited existing_toml patched ∧
      toml.fromStr type.schema prepared.rendered_toml = .ok after ∧
      prepared.changed_fields =
        computeChangedFields (toJson type.schema before) (toJson type.schema after) := by
  cases patch with
  | object patch_obj =>
    unfold preparePatch at h
    obtain ⟨⟨existing_toml, file_exists⟩, hexisting, h⟩ := except_bind_eq_ok.mp h
    obtain ⟨before, hbefore, h⟩ := except_bind_eq_ok.mp h
    obtain ⟨document, hdocument, h⟩ := except_bind_eq_ok.mp h
    obtain ⟨patched, hpatched, h⟩ := except_bind_eq_ok.mp h
    obtain ⟨after, hafter, h⟩ := except_bind_eq_ok.mp h
    obtain ⟨-, -, h⟩ := except_bind_eq_ok.mp h
    cases h
    obtain ⟨document', hdocument', hread⟩ := fromStr_eq_ok.mp (mapError_eq_ok.mp hbefore)
    obtain rfl := ok.inj (hdocument'.symm.trans (mapError_eq_ok.mp hdocument))
    exact ⟨patch_obj, existing_toml, file_exists, document', before, patched, after, rfl, hexisting,
      hdocument', hread, mapError_eq_ok.mp hpatched, rfl, mapError_eq_ok.mp hafter, rfl⟩
  | _ => cases h

/-- A patch that is accepted keeps the fields that it does not mention exactly if it creates its
sections alike. -/
theorem frame_iff (h : preparePatch toml type validate path file patch = .ok prepared)
    (hkeys : patch.DistinctKeys) (hprint : toml.PrintsBack type path file patch) :
    PreservesFrame toml type path file patch prepared ↔
      ∃ document before, existingConfig toml type path file = some (document, before) ∧
        CreatesAlike type.schema document before patch := by
  obtain ⟨patch_obj, existing_toml, file_exists, document, before, patched, after, rfl, hexisting,
    hdocument, hbefore, hpatched, hrendered, hafter, -⟩ := preparePatch_eq_ok h
  have hconfig : existingConfig toml type path file = some (document, before) := by
    simp [existingConfig, hexisting, hdocument, hbefore, Except.toOption]
  have hread : type.schema.read toml.coercions (.table patched) = some after := by
    obtain ⟨document', hdocument', hread⟩ := fromStr_eq_ok.mp hafter
    have hback := hprint existing_toml file_exists document patched hexisting hdocument hpatched
    rw [hrendered, hback] at hdocument'
    rwa [ok.inj hdocument']
  have hiff := keepsUnmentioned_iff hpatched hkeys hbefore hread
  constructor
  · rintro ⟨document', before', after', hconfig', hafter', hkeeps⟩
    obtain ⟨rfl, rfl⟩ := Prod.mk.inj (some.inj (hconfig.symm.trans hconfig'))
    obtain rfl := ok.inj (hafter.symm.trans hafter')
    exact ⟨document, before, hconfig, hiff.mp hkeeps⟩
  · rintro ⟨document', before', hconfig', halike⟩
    obtain ⟨rfl, rfl⟩ := Prod.mk.inj (some.inj (hconfig.symm.trans hconfig'))
    exact ⟨document, before, after, hconfig, hafter, hiff.mpr halike⟩

end Runs

section Examples

/-- A patch of the turns of a scheduled run. -/
def turnsPatch : Value := .object [("scheduler", .object [("max_turns", .number 5)])]

/-- The objects that the patch consists of. -/
theorem objects_turnsPatch {path : List String} {fields : List (String × Value)}
    (h : turnsPatch.getPath path = some (.object fields)) :
    (path = [] ∨ path = ["scheduler"]) ∧ (Fields.keys fields).length = 1 := by
  cases path with
  | nil =>
    cases h
    exact ⟨.inl rfl, rfl⟩
  | cons name path =>
    obtain ⟨v, hv, hbelow⟩ := bind_eq_some_iff.mp h
    obtain ⟨rfl, rfl⟩ : name = "scheduler" ∧ .object [("max_turns", .number 5)] = v := by
      have hlookup := (Fields.lookup_cons name "scheduler" _ []).symm.trans hv
      split_ifs at hlookup with hname
      · exact ⟨hname, some.inj hlookup⟩
      · cases hlookup
    cases path with
    | nil =>
      cases hbelow
      exact ⟨.inr rfl, rfl⟩
    | cons name path =>
      obtain ⟨w, hw, hdeep⟩ := bind_eq_some_iff.mp hbelow
      obtain rfl : .number 5 = w := by
        have hlookup := (Fields.lookup_cons name "max_turns" _ []).symm.trans hw
        split_ifs at hlookup
        · exact some.inj hlookup
        · cases hlookup
      cases path <;> cases hdeep

/-- The two lines of the patch, behind what was there before. -/
def turnsText : String := "[scheduler]\nmax_turns = 5\n"

/-- What `toml_edit` reads and prints where an empty file is patched. -/
def emptyFileToml : TomlCrate where
  parse text :=
    if text = "" then .ok []
    else if text = turnsText then .ok [("scheduler", .table [("max_turns", .integer 5)])]
    else .error "not read here"
  pretty _ := .error "not printed here"
  edited _ _ := turnsText
  coercions := ⟨fun _ _ => none, fun _ _ => none⟩
  mismatch _ _ := "not read here"

/-- The truth value of a field. -/
def asBoolean : Datum → Option Bool
  | .plain (.boolean b) => some b
  | _ => none

/-- The patch of the turns disables the scheduler. -/
theorem turnsPatch_disables_scheduler :
    ∃ prepared, preparePatch emptyFileToml agentConfig (fun _ => .ok ()) "agent.toml"
        (some (.ok "")) turnsPatch = .ok prepared ∧
      ¬PreservesFrame emptyFileToml agentConfig "agent.toml" (some (.ok "")) turnsPatch
        prepared := by
  have haccepted : (preparePatch emptyFileToml agentConfig (fun _ => .ok ()) "agent.toml"
      (some (.ok "")) turnsPatch).toOption.isSome := by
    decide
  obtain ⟨prepared, hsome⟩ := isSome_iff_exists.mp haccepted
  have hprepared := mem_toOption.mp hsome
  refine ⟨prepared, hprepared, ?_⟩
  obtain ⟨_, _, _, _, _, _, _, -, -, -, -, -, hrendered, -⟩ := preparePatch_eq_ok hprepared
  rintro ⟨document, before, after, hconfig, hafter, hkeeps⟩
  have henabled : ((existingConfig emptyFileToml agentConfig "agent.toml" (some (.ok ""))).bind
      fun config => config.2.get ["scheduler", "enabled"]).bind asBoolean = some true := by
    decide
  have hdisabled : ((emptyFileToml.fromStr agentConfig.schema turnsText).toOption.bind
      fun config => config.get ["scheduler", "enabled"]).bind asBoolean = some false := by
    decide
  rw [hconfig] at henabled
  rw [← show prepared.rendered_toml = turnsText from hrendered, hafter] at hdisabled
  obtain ⟨enabled, hget, hbefore⟩ := bind_eq_some_iff.mp henabled
  obtain ⟨scheduler, hscheduler, hfield⟩ := bind_eq_some_iff.mp
    ((Datum.get_append ["scheduler"] ["enabled"] before).symm.trans hget)
  cases scheduler with
  | record fields =>
    have hsame := hkeeps ["scheduler"] "enabled" fields hscheduler (by decide)
    have hkept : after.get ["scheduler", "enabled"] = some enabled := hsame.symm.trans hget
    have hfalse : asBoolean enabled = some false := by
      simpa [Except.toOption, hkept] using hdisabled
    exact absurd (hbefore.symm.trans hfalse) (by decide)
  | _ => cases hfield

/-- The lines of the scheduler, before and after the patch. -/
def schedulerText : String := "[scheduler]\nenabled = true\n"
def schedulerTurnsText : String := "[scheduler]\nenabled = true\nmax_turns = 5\n"

/-- What `toml_edit` reads and prints where these lines are patched. -/
def schedulerToml : TomlCrate where
  parse text :=
    if text = schedulerText then .ok [("scheduler", .table [("enabled", .boolean true)])]
    else if text = schedulerTurnsText then
      .ok [("scheduler", .table [("enabled", .boolean true), ("max_turns", .integer 5)])]
    else .error "not read here"
  pretty _ := .error "not printed here"
  edited _ _ := schedulerTurnsText
  coercions := ⟨fun _ _ => none, fun _ _ => none⟩
  mismatch _ _ := "not read here"

/-- Where the file has the table, the patch leaves it enabled. -/
theorem turnsPatch_keeps_scheduler :
    ∃ prepared, preparePatch schedulerToml agentConfig (fun _ => .ok ()) "agent.toml"
        (some (.ok schedulerText)) turnsPatch = .ok prepared ∧
      PreservesFrame schedulerToml agentConfig "agent.toml" (some (.ok schedulerText)) turnsPatch
        prepared := by
  have haccepted : (preparePatch schedulerToml agentConfig (fun _ => .ok ()) "agent.toml"
      (some (.ok schedulerText)) turnsPatch).toOption.isSome := by
    decide
  obtain ⟨prepared, hsome⟩ := isSome_iff_exists.mp haccepted
  have hprepared := mem_toOption.mp hsome
  have hkeys : turnsPatch.DistinctKeys := by
    intro path fields hfields
    obtain ⟨key, hkey⟩ := length_eq_one_iff.mp (objects_turnsPatch hfields).2
    rw [hkey]
    exact nodup_singleton key
  have hprint : schedulerToml.PrintsBack agentConfig "agent.toml" (some (.ok schedulerText))
      turnsPatch := by
    rintro text file_exists document patched htext hdocument hpatched
    cases htext
    cases hdocument
    cases hpatched
    rfl
  refine ⟨prepared, hprepared, (frame_iff hprepared hkeys hprint).mpr ?_⟩
  have htable : ((existingConfig schedulerToml agentConfig "agent.toml"
      (some (.ok schedulerText))).bind fun config => tableAt ["scheduler"] config.1).isSome := by
    decide
  obtain ⟨t, ht⟩ := isSome_iff_exists.mp htable
  obtain ⟨⟨document, before⟩, hconfig, ht⟩ := bind_eq_some_iff.mp ht
  refine ⟨document, before, hconfig, fun path nested fields key hnested hcreated _ _ => ?_⟩
  -- the patch creates no section
  rcases (objects_turnsPatch hnested).1 with rfl | rfl
  · cases hcreated
  · cases ht.symm.trans hcreated

end Examples

end Oxydra
