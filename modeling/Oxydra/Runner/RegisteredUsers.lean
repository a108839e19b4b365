import Oxydra.Runner.ConfigFileCalls
import Oxydra.Runner.ConfigFrame

/-!
# The registered users of a runner configuration

A user is registered by a table below `users` in the document. The patches that register, rename, and
remove users set some of these registrations; a patch that reports no changed field has changed no
registration.
-/

namespace Oxydra

open Except List Toml Effect

/-! ## Registrations -/

/-- `RunnerUserRegistration`. -/
def userRegistrationSchema : Schema := .struct false [requiredField "config_path" stringSchema]

/-- The `config_path` of a registration. -/
def registeredPath (registration : Datum) : Option String :=
  match registration.get ["config_path"] with
  | some (.plain (.string path)) => some path
  | _ => none

/-- The `config_path` of a user of a `RunnerGlobalConfig`. -/
def userConfigPath (config : Datum) (user_id : String) : Option String :=
  (config.get ["users", user_id]).bind registeredPath

/-- The `config_path` of a user of a table of users. -/
def usersOfTable (c : Coercions) (users : Table) (user_id : String) : Option String :=
  ((users.lookup user_id).bind (userRegistrationSchema.read c)).bind registeredPath

/-- The users of a document, with their `config_path`. -/
def documentUsers (c : Coercions) (document : Table) : String → Option String :=
  usersOfTable c (nestedTable (document.lookup "users"))

/-- The users of a text. -/
def textUsers (toml : TomlCrate) (text : String) : String → Option String :=
  match toml.parse text with
  | .ok document => documentUsers toml.coercions document
  | .error _ => fun _ => none

/-- The registered users of a file with these bytes. -/
def registeredUsers (toml : TomlCrate) (bytes : Option ByteArray) : String → Option String :=
  match bytes.bind String.fromUTF8? with
  | some text => textUsers toml text
  | none => fun _ => none

/-- A map is read from a table only. -/
def MapsAreTables (c : Coercions) : Prop :=
  ∀ inner item, (∀ t, item ≠ .table t) → c.table (.map inner) item = none

theorem read_map_eq_none {c : Coercions} (hmap : MapsAreTables c) {inner : Schema} {item : Item}
    (h : ∀ t, item ≠ .table t) : (Schema.map inner).read c item = none := by
  cases item with
  | table t => exact absurd rfl (h t)
  | _ => simp [Schema.read, hmap inner _ h]

/-- The configuration that is read from a document has the users of the document. -/
theorem userConfigPath_of_read {c : Coercions} (hmap : MapsAreTables c) {document : Table}
    {config : Datum} (h : runnerGlobalConfig.schema.read c (.table document) = some config) :
    userConfigPath config = documentUsers c document := by
  have hchild : runnerGlobalConfig.schema.child "users" = some (.map userRegistrationSchema) := rfl
  funext user_id
  unfold userConfigPath documentUsers
  rw [Datum.get_cons]
  cases hitem : document.lookup "users" with
  | none =>
    rw [runnerGlobalConfig.schema.read_table h, hitem]
    rfl
  | some item =>
    obtain ⟨users, hread, hget⟩ := runnerGlobalConfig.schema.read_child h hitem hchild
    rw [hget, Option.bind_some]
    cases item with
    | table t =>
      rw [(Schema.map userRegistrationSchema).read_table hread]
      unfold nestedTable usersOfTable
      cases t.lookup user_id <;> rfl
    | _ =>
      rw [read_map_eq_none hmap (by simp)] at hread
      cases hread

/-! ## Patches of the users -/

/-- What a patch has for a user: an object with the `config_path`, or `null`. -/
def registrationPatch : Option String → Value
  | some config_path => .object [("config_path", .string config_path)]
  | none => .null

/-- A `runner_patch`. -/
def usersPatch (changes : List (String × Option String)) : Value :=
  .object [("users", .object (changes.map fun change => (change.1, registrationPatch change.2)))]

/-- Users with some of them set or removed, one after the other. -/
def changeUsers (changes : List (String × Option String)) (users : String → Option String) :
    String → Option String :=
  changes.foldl (fun users change => Function.update users change.1 change.2) users

section Patches

variable {c : Coercions} {sentinel : String} {t t' : Table}

theorem lookup_remove_self (key : String) (fields : Table) :
    (Fields.remove key fields).lookup key = none := by
  refine Fields.lookup_eq_none fun hmem => ?_
  obtain ⟨field, hfield, rfl⟩ := mem_map.mp hmem
  simp [Fields.remove] at hfield

/-- A table with a `config_path` is a registration. -/
theorem registeredPath_of_read {registration : Table} {config_path : String}
    (h : registration.lookup "config_path" = some (.string config_path)) :
    (userRegistrationSchema.read c (.table registration)).bind registeredPath =
      some config_path := by
  have hfields : Schema.readFields c [requiredField "config_path" stringSchema] registration =
      some [("config_path", .plain (.string config_path))] := by
    simp [Schema.readFields, requiredField, stringSchema, h, Schema.read, Plain.read]
  rw [userRegistrationSchema, Schema.read, if_neg (by simp), hfields]
  rfl

/-- One user is set or removed, and no other one. -/
theorem usersOfTable_applyPatchValue {user_id : String} {change : Option String}
    (h : applyPatchValue sentinel user_id (registrationPatch change) t = .ok t')
    (hsentinel : change ≠ some sentinel) :
    usersOfTable c t' = Function.update (usersOfTable c t) user_id change := by
  funext other
  by_cases hother : other = user_id
  · subst hother
    rw [Function.update_self, usersOfTable]
    cases change with
    | none =>
      rw [registrationPatch, applyPatchValue] at h
      rw [← ok.inj h, lookup_remove_self]
      rfl
    | some config_path =>
      rw [registrationPatch, applyPatchValue] at h
      obtain ⟨registration, hpatched, h⟩ := except_bind_eq_ok.mp h
      rw [← ok.inj h, Fields.lookup_insert, if_pos rfl, Option.bind_some]
      refine registeredPath_of_read ?_
      rw [applyPatchToTable, applyPatchValue, if_neg fun heq => hsentinel (congrArg some heq),
        jsonToTomlValue] at hpatched
      rw [← ok.inj hpatched, Fields.lookup_insert, if_pos rfl]
  · rw [Function.update_of_ne hother, usersOfTable, lookup_applyPatchValue h hother]
    rfl

theorem usersOfTable_applyPatchToTable {changes : List (String × Option String)}
    (h : applyPatchToTable sentinel
      (changes.map fun change => (change.1, registrationPatch change.2)) t = .ok t')
    (hsentinel : ∀ change ∈ changes, change.2 ≠ some sentinel) :
    usersOfTable c t' = changeUsers changes (usersOfTable c t) := by
  induction changes generalizing t with
  | nil =>
    rw [map_nil, applyPatchToTable] at h
    rw [← ok.inj h]
    rfl
  | cons change changes ih =>
    obtain ⟨hfirst, hrest⟩ := forall_mem_cons.mp hsentinel
    rw [map_cons, applyPatchToTable] at h
    obtain ⟨t₁, hstep, h⟩ := except_bind_eq_ok.mp h
    rw [ih h hrest, usersOfTable_applyPatchValue hstep hfirst]
    rfl

/-- The patch of a document changes its users. -/
theorem documentUsers_applyJsonMergePatch {document patched : Table}
    {changes : List (String × Option String)}
    (h : applyJsonMergePatch document (usersPatch changes) sentinel = .ok patched)
    (hsentinel : ∀ change ∈ changes, change.2 ≠ some sentinel) :
    documentUsers c patched = changeUsers changes (documentUsers c document) := by
  unfold usersPatch at h
  set entries := changes.map fun change => (change.1, registrationPatch change.2) with hentries
  have hfound : [("users", Value.object entries)].lookup "users" = some (.object entries) := by
    rw [Fields.lookup_cons, if_pos rfl]
  obtain ⟨users, husers, hlookup⟩ :=
    lookup_applyPatchToTable_object h (nodup_singleton "users") hfound
  unfold documentUsers
  rw [hlookup]
  exact usersOfTable_applyPatchToTable husers hsentinel

end Patches

/-! ## Changed fields -/

theorem diffFields_eq_nil {path : String} {before_obj after_obj : List (String × Value)}
    (h : diffFields path after_obj before_obj = []) {key : String} {before_value : Value}
    (hkey : before_obj.lookup key = some before_value) :
    ∃ after_value, after_obj.lookup key = some after_value ∧
      diffValues (nextPath path key) before_value after_value = [] := by
  induction before_obj with
  | nil => cases hkey
  | cons entry before_obj ih =>
    obtain ⟨name, value⟩ := entry
    rw [diffFields] at h
    obtain ⟨hfirst, hrest⟩ := append_eq_nil_iff.mp h
    rw [Fields.lookup_cons] at hkey
    split_ifs at hkey with hname
    · cases hkey
      subst hname
      cases hafter : after_obj.lookup key with
      | none =>
        rw [hafter] at hfirst
        cases hfirst
      | some after_value =>
        rw [hafter] at hfirst
        exact ⟨after_value, rfl, hfirst⟩
    · exact ih hrest hkey

/-- An object without a difference from another one has its keys, with values without one. -/
theorem lookup_of_diffValues {path : String} {before_obj after_obj : List (String × Value)}
    (h : diffValues path (.object before_obj) (.object after_obj) = []) (key : String) :
    before_obj.lookup key = none ∧ after_obj.lookup key = none ∨
      ∃ before_value after_value, before_obj.lookup key = some before_value ∧
        after_obj.lookup key = some after_value ∧
        diffValues (nextPath path key) before_value after_value = [] := by
  rw [diffValues] at h
  obtain ⟨hfields, hkeys⟩ := append_eq_nil_iff.mp h
  cases hbefore : before_obj.lookup key with
  | some before_value =>
    obtain ⟨after_value, hafter, hdiff⟩ := diffFields_eq_nil hfields hbefore
    exact .inr ⟨before_value, after_value, rfl, hafter, hdiff⟩
  | none =>
    refine .inl ⟨rfl, Fields.lookup_eq_none fun hmem => ?_⟩
    -- a key of the second object only would be a difference
    have hold : key ∈ Fields.keys before_obj := by
      by_contra hnot
      have hnew : key ∈ (Fields.keys after_obj).filter (· ∉ Fields.keys before_obj) :=
        mem_filter.mpr ⟨hmem, by simpa using hnot⟩
      rw [map_eq_nil_iff.mp hkeys] at hnew
      cases hnew
    rw [Fields.keys, mem_map] at hold
    obtain ⟨field, hfield, rfl⟩ := hold
    have hne := lookup_eq_none_iff.mp hbefore field hfield
    simp at hne

/-- Values without a difference have the same strings at all paths. -/
theorem asStr_of_diffValues {path : String} {before after : Value}
    (h : diffValues path before after = []) (keys : List String) :
    (before.getPath keys).bind Value.asStr = (after.getPath keys).bind Value.asStr := by
  induction keys generalizing path before after with
  | nil =>
    rw [Value.getPath, Value.getPath, Option.bind_some, Option.bind_some]
    cases before <;> cases after <;> simp_all [diffValues, Value.asStr]
  | cons key keys ih =>
    rw [Value.getPath, Value.getPath]
    by_cases hobjects : ∃ before_obj after_obj, before = .object before_obj ∧
        after = .object after_obj
    · obtain ⟨before_obj, after_obj, rfl, rfl⟩ := hobjects
      rw [Value.get?, Value.get?]
      obtain ⟨hbefore, hafter⟩ | ⟨before_value, after_value, hbefore, hafter, hdiff⟩ :=
        lookup_of_diffValues h key
      · rw [hbefore, hafter]
      · rw [hbefore, hafter]
        exact ih hdiff
    · have hget : before.get? key = after.get? key := by
        cases before <;> cases after <;> simp_all [diffValues, Value.get?]
      rw [hget]

/-- What is written under the name of a field. -/
theorem lookup_toJsonFields {fields : List (FieldSpec Schema)} {values : List (String × Datum)}
    (hnames : (fields.map FieldSpec.name).Nodup) {field : FieldSpec Schema}
    (hfield : field ∈ fields) (hskip : ∀ d, field.skip d = false) :
    (toJsonFields fields values).lookup field.name =
      (values.lookup field.name).map (toJson field.schema) := by
  induction fields with
  | nil => cases hfield
  | cons other fields ih =>
    obtain ⟨hnot, hnames⟩ := nodup_cons.mp hnames
    obtain rfl | hmem := mem_cons.mp hfield
    · rw [toJsonFields]
      cases hvalue : values.lookup field.name with
      | none => exact Fields.lookup_eq_none (not_mem_toJsonFields hnot values)
      | some d =>
        dsimp only
        rw [if_neg (by simp [hskip]), Fields.lookup_insert, if_pos rfl]
        rfl
    · have hne : field.name ≠ other.name := fun heq => hnot (heq ▸ mem_map_of_mem hmem)
      rw [toJsonFields, ← ih hnames hmem]
      split
      · split_ifs
        · rfl
        · rw [Fields.lookup_insert, if_neg hne]
      · rfl

/-- The path of a registration, in what `serde_json` writes of it. -/
theorem asStr_registration (registration : Datum) :
    ((toJson userRegistrationSchema registration).getPath ["config_path"]).bind Value.asStr =
      registeredPath registration := by
  cases registration with
  | record values =>
    have hlookup : (toJsonFields [requiredField "config_path" stringSchema] values).lookup
        "config_path" = (values.lookup "config_path").map (toJson stringSchema) :=
      @lookup_toJsonFields [requiredField "config_path" stringSchema] values (by decide)
        (requiredField "config_path" stringSchema) mem_cons_self fun _ => rfl
    rw [userRegistrationSchema, toJson, Value.getPath, Value.get?, hlookup, registeredPath,
      Datum.get]
    cases values.lookup "config_path" with
    | none => rfl
    | some value =>
      cases value with
      | plain item => cases item <;> rfl
      | _ => rfl
  | _ => rfl

/-- The path of a user, in what `serde_json` writes of the configuration. -/
theorem asStr_toJson (config : Datum) (user_id : String) :
    ((toJson runnerGlobalConfig.schema config).getPath ["users", user_id, "config_path"]).bind
      Value.asStr = userConfigPath config user_id := by
  unfold userConfigPath
  cases config with
  | record values =>
    obtain ⟨fields, hschema, hnames, hfield⟩ : ∃ fields,
        runnerGlobalConfig.schema = .struct false fields ∧
        (fields.map FieldSpec.name).Nodup ∧
        defaultField "users" (.record []) (.map userRegistrationSchema) ∈ fields := by
      refine ⟨_, rfl, by decide, ?_⟩
      exact .tail _ (.tail _ (.head _))
    have hlookup : (toJsonFields fields values).lookup "users" =
        (values.lookup "users").map (toJson (.map userRegistrationSchema)) :=
      lookup_toJsonFields hnames hfield fun _ => rfl
    rw [hschema, toJson, Value.getPath, Value.get?, hlookup, Datum.get]
    cases values.lookup "users" with
    | none => rfl
    | some value =>
      cases value with
      | record users =>
        rw [Option.map_some, Option.bind_some, Option.bind_some, toJson, Value.getPath, Value.get?,
          Fields.lookup_map_snd, Datum.get]
        cases users.lookup user_id with
        | none => rfl
        | some registration => exact asStr_registration registration
      | _ => rfl
  | _ => rfl

/-- A patch without changed fields has changed no user. -/
theorem userConfigPath_of_changed_fields {before after : Datum}
    (h : computeChangedFields (toJson runnerGlobalConfig.schema before)
      (toJson runnerGlobalConfig.schema after) = []) :
    userConfigPath before = userConfigPath after := by
  unfold computeChangedFields at h
  have hdiff := (destutter_eq_nil _).mp h
  rw [← length_eq_zero_iff, length_mergeSort, length_eq_zero_iff] at hdiff
  funext user_id
  rw [← asStr_toJson, ← asStr_toJson]
  exact asStr_of_diffValues hdiff _

/-! ## Prepared patches -/

section Prepared

variable {toml : TomlCrate} {validate : Datum → Except String Unit} {path : FilePath}
  {files : ConfigFiles} {changes : List (String × Option String)} {prepared : PreparedPatch}

theorem textUsers_of_parse {text : String} {document : Table} (h : toml.parse text = .ok document) :
    textUsers toml text = documentUsers toml.coercions document := by
  rw [textUsers, h]

theorem registeredUsers_toUTF8 (text : String) :
    registeredUsers toml (some text.toUTF8) = textUsers toml text := by
  rw [registeredUsers, Option.bind_some, fromUTF8?_toUTF8]

theorem registeredUsers_of_textOf {text : String} (h : textOf files path = some text) :
    registeredUsers toml (files.lookup path) = textUsers toml text := by
  have hbytes : (files.lookup path).bind String.fromUTF8? = some text := h
  unfold registeredUsers
  rw [hbytes]

/-- `toml` reads a `RunnerGlobalConfig::default()` as it was written. -/
def PrintsDefault (toml : TomlCrate) : Prop :=
  ∀ text, toml.pretty (nestedTable (runnerGlobalConfig.schema.write runnerGlobalConfig.default)) =
    .ok text → toml.parse text =
      .ok (nestedTable (runnerGlobalConfig.schema.write runnerGlobalConfig.default))

/-- The text that is patched has the users of the file; the default one has none. -/
theorem textUsers_existingToml (hdefault : PrintsDefault toml) {existing_toml : String}
    {file_exists : Bool}
    (h : existingToml toml runnerGlobalConfig path.display (configFileOf files path) =
      .ok (existing_toml, file_exists)) :
    textUsers toml existing_toml = registeredUsers toml (files.lookup path) := by
  unfold configFileOf at h
  unfold registeredUsers
  cases hbytes : files.lookup path with
  | none =>
    rw [hbytes] at h
    obtain ⟨text, htext, h⟩ := except_bind_eq_ok.mp h
    cases h
    rw [textUsers_of_parse (hdefault _ (mapError_eq_ok.mp htext))]
    rfl
  | some bytes =>
    rw [hbytes, Option.map_some] at h
    rw [Option.bind_some]
    cases htext : String.fromUTF8? bytes with
    | none =>
      rw [htext] at h
      cases h
    | some text =>
      rw [htext] at h
      cases h
      rfl

/-- What `toml_edit` prints of the patched document is read with the users of this document. -/
def PrintsUsers (toml : TomlCrate) (path : String) (file : ConfigFile) (patch : Value) : Prop :=
  ∀ existing_toml file_exists document patched,
    existingToml toml runnerGlobalConfig path file = .ok (existing_toml, file_exists) →
    toml.parse existing_toml = .ok document →
    applyJsonMergePatch document patch secretSentinel = .ok patched →
      ∃ printed, toml.parse (toml.edited existing_toml patched) = .ok printed ∧
        documentUsers toml.coercions printed = documentUsers toml.coercions patched

/-- What a prepared patch writes has the users changed, and it writes nothing only where that
changes no user. -/
theorem registeredUsers_prepared (hmap : MapsAreTables toml.coercions)
    (hdefault : PrintsDefault toml)
    (hprint : PrintsUsers toml path.display (configFileOf files path) (usersPatch changes))
    (hsentinel : ∀ change ∈ changes, change.2 ≠ some secretSentinel)
    (h : preparePatch toml runnerGlobalConfig validate path.display (configFileOf files path)
      (usersPatch changes) = .ok prepared) :
    registeredUsers toml (some prepared.rendered_toml.toUTF8) =
        changeUsers changes (registeredUsers toml (files.lookup path)) ∧
      (prepared.changed_fields = [] →
        changeUsers changes (registeredUsers toml (files.lookup path)) =
          registeredUsers toml (files.lookup path)) := by
  obtain ⟨patch_obj, existing_toml, file_exists, document, before, patched, after, hpatch,
    hexisting, hdocument, hbefore, hpatched, hrendered, hafter, hchanged⟩ := preparePatch_eq_ok h
  have hmerge : applyJsonMergePatch document (usersPatch changes) secretSentinel =
      .ok patched := by
    rw [hpatch]
    exact hpatched
  obtain ⟨printed, hback, husers⟩ :=
    hprint existing_toml file_exists document patched hexisting hdocument hmerge
  rw [← hrendered] at hback
  have hold : documentUsers toml.coercions document = registeredUsers toml (files.lookup path) := by
    rw [← textUsers_existingToml hdefault hexisting, textUsers_of_parse hdocument]
  have hnew : documentUsers toml.coercions printed =
      changeUsers changes (registeredUsers toml (files.lookup path)) := by
    rw [husers, documentUsers_applyJsonMergePatch hmerge hsentinel, hold]
  constructor
  · rw [registeredUsers_toUTF8, textUsers_of_parse hback, hnew]
  · intro hnone
    rw [hchanged] at hnone
    have hread : runnerGlobalConfig.schema.read toml.coercions (.table printed) = some after := by
      obtain ⟨document', hdocument', hread⟩ := fromStr_eq_ok.mp hafter
      rwa [ok.inj (hdocument'.symm.trans hback)] at hread
    rw [← hnew, ← hold, ← userConfigPath_of_read hmap hread, ← userConfigPath_of_read hmap hbefore,
      userConfigPath_of_changed_fields hnone]

end Prepared

end Oxydra
