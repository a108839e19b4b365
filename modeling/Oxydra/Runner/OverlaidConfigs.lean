import Oxydra.Runner.PrintedConfigs
import Oxydra.Runner.ShellOverlay

/-!
# Configurations with the shell overlay

The text with the overlay is a layout of the document whose `tools.shell` is the overlaid one
(`describes_overlaidLayout`), so a reader that takes the tables of a document in any order reads the
configuration with its shell replaced (`overlay_replaces`). A text value with the header on a line
of its own is cut in two.
-/

namespace Oxydra

open List Toml Text

/-! ## The sections -/

/-- The path and the keys of a section. -/
def sectionEntry (s : Toml.Section) : List String × Table := (s.path, s.keys)

/-- The entries, without what stands before them. -/
theorem exists_gap_iff {sections : List Toml.Section} {path : List String} {keys : Table} :
    (∃ gap, ⟨gap, path, keys⟩ ∈ sections) ↔ (path, keys) ∈ sections.map sectionEntry := by
  rw [mem_map]
  constructor
  · rintro ⟨gap, hs⟩
    exact ⟨_, hs, rfl⟩
  · rintro ⟨⟨gap, path, keys⟩, hs, heq⟩
    cases heq
    exact ⟨gap, hs⟩

/-- The section comes to the end. -/
theorem entries_movedUp (gap : ℕ) (keys : Table) (sections : List Toml.Section) :
    (movedUp gap keys sections).map sectionEntry =
      sections.map sectionEntry ++ [(shellPath, keys)] := by
  cases sections with
  | nil => rfl
  | cons s sections => simp [movedUp, sectionEntry]

/-- The section of the shell is replaced in the layout. -/
theorem replaces_overlaidLayout {L : Layout} (h : L.paths.Nodup) (keys : Table) :
    L.Replaces (overlaidLayout L keys) shellPath keys := by
  have hpaths : ∀ sections : List Toml.Section,
      sections.map Section.path = (sections.map sectionEntry).map Prod.fst := by
    intro sections
    rw [map_map]
    rfl
  -- the other sections, in their order
  obtain ⟨others, hothers, hsame, hnodup, hnew⟩ : ∃ others : List (List String × Table),
      shellPath ∉ others.map Prod.fst ∧
        (∀ entry : List String × Table, entry.1 ≠ shellPath →
          (entry ∈ L.sections.map sectionEntry ↔ entry ∈ others)) ∧
        (others.map Prod.fst).Nodup ∧
        (shellLast keys L.sections).map sectionEntry = others ++ [(shellPath, keys)] := by
    obtain ⟨hnot, -, hlast⟩ | ⟨before, s, after, hbetween, hs, -, -, hlast⟩ :=
      shellLast_eq keys L.sections
    · refine ⟨L.sections.map sectionEntry, hpaths _ ▸ hnot, fun _ _ => Iff.rfl, hpaths _ ▸ h, ?_⟩
      rw [hlast, map_append]
      rfl
    · have hnodup : ((before ++ s :: after).map Section.path).Nodup := hbetween ▸ h
      rw [map_append, map_cons, hs, nodup_middle, nodup_cons,
        ← map_append, hpaths] at hnodup
      refine ⟨(before ++ after).map sectionEntry, hnodup.1, fun entry hentry => ?_, hnodup.2, ?_⟩
      · have hne : entry ≠ sectionEntry s := fun heq => hentry (heq ▸ hs)
        rw [hbetween]
        simp [hne]
      · rw [hlast, map_append, entries_movedUp, map_append, append_assoc]
  refine ⟨rfl, ?_, fun path keys' => ?_⟩
  · show ((shellLast keys L.sections).map Section.path).Nodup
    rw [hpaths, hnew, map_append]
    refine nodup_append.mpr ⟨hnodup, nodup_singleton _, ?_⟩
    rintro p hp q hq rfl
    obtain rfl : p = shellPath := mem_singleton.mp hq
    exact hothers hp
  · show (∃ gap, ⟨gap, path, keys'⟩ ∈ shellLast keys L.sections) ↔ _
    rw [exists_gap_iff, exists_gap_iff, hnew, mem_append, mem_singleton, Prod.mk.injEq]
    by_cases hpath : path = shellPath
    · have hnot : (path, keys') ∉ others := fun hmem =>
        hothers (hpath ▸ mem_map_of_mem hmem)
      simp [hpath, hpath ▸ hnot]
    · simp only [hpath, false_and, or_false, false_or, ne_eq, not_false_eq_true, true_and]
      exact (hsame (path, keys') hpath).symm

/-! ## The document -/

/-- An optional field. -/
theorem restoresFields_optionField (name : String) (schema : Schema)
    (fields : List (FieldSpec Schema)) :
    Schema.RestoresFields (optionField name schema :: fields) ↔
      schema.Restores ∧ Schema.RestoresFields fields := by
  have habsent : ∀ d : Datum, d.isAbsent = true → some Datum.absent = some d := by
    intro d hd
    cases d with
    | absent => rfl
    | _ => cases hd
  rw [optionField, Schema.RestoresFields, Schema.Restores]
  exact and_congr_left fun _ => ⟨fun h => h.2.2, fun h => ⟨habsent, fun _ => rfl, h⟩⟩

/-- A field with a default. -/
theorem restoresFields_defaultField (name : String) (default : Datum) (schema : Schema)
    (fields : List (FieldSpec Schema)) :
    Schema.RestoresFields (defaultField name default schema :: fields) ↔
      ((schema.isOptional = true → default = .absent) ∧ schema.Restores) ∧
        Schema.RestoresFields fields := by
  rw [defaultField, Schema.RestoresFields]
  simp

/-- A required field. -/
theorem restoresFields_requiredField (name : String) (schema : Schema)
    (fields : List (FieldSpec Schema)) :
    Schema.RestoresFields (requiredField name schema :: fields) ↔
      (schema.isOptional = false ∧ schema.Restores) ∧ Schema.RestoresFields fields := by
  rw [requiredField, Schema.RestoresFields]
  simp

/-- No field. -/
theorem restoresFields_nil : Schema.RestoresFields [] ↔ True := Iff.rfl

/-- Every field of the agent's configuration that can be left out is `None` without an item. -/
theorem restores_agentConfig : agentConfig.schema.Restores := by
  simp only [agentConfig, runtimeConfig, contextBudgetConfig, summarizationConfig, memoryConfig,
    retrievalConfig, providerSelection, providerConfigs, providerRegistryEntrySchema,
    reliabilityConfig, catalogConfig, toolsConfig, webSearchSchema, shellConfig, browserSchema,
    attachmentSaveSchema, schedulerConfig, gatewayConfig, agentDefinitionSchema, sectionField,
    restoresFields_optionField, restoresFields_defaultField, restoresFields_requiredField,
    restoresFields_nil, Schema.Restores, Schema.isOptional, stringSchema, booleanSchema,
    floatSchema, unsignedSchema, Bool.false_eq_true, false_implies, implies_true, and_true]

/-- No struct has two fields of a name. -/
theorem distinct_agentConfig : agentConfig.schema.distinct = true :=
  distinct_patchedConfigs mem_cons_self

/-- An option of a well-typed value. -/
theorem holds_optionDatum {α : Type} {inner : Schema} {datum : α → Datum}
    (h : ∀ a, inner.holds (datum a) = true) (value : Option α) :
    (Schema.optional inner).holds (optionDatum datum value) = true := by
  cases value with
  | none => rfl
  | some a =>
    have hd := h a
    rw [optionDatum]
    generalize datum a = d at hd ⊢
    cases d with
    | absent => rfl
    | _ => exact hd

/-- The configuration of a shell is a value of its type. -/
theorem holds_datum (config : FullShellConfig) : shellConfig.schema.holds config.datum = true := by
  have hstrings : ∀ strings, (Schema.list stringSchema).holds (stringsDatum strings) = true := by
    intro strings
    rw [stringsDatum, Schema.holds, all_map, all_eq_true]
    exact fun _ _ => rfl
  have hsecs : ∀ secs : UInt64,
      (unsignedSchema 64).holds (unsignedDatum secs.toNat) = true := by
    intro secs
    have hlt := secs.toNat_lt
    rw [unsignedDatum, unsignedSchema, Schema.holds, Plain.holds, decide_eq_true_eq]
    omega
  have hboolean : ∀ b, booleanSchema.holds (booleanDatum b) = true := fun _ => rfl
  rw [FullShellConfig.datum, shellConfig, Schema.holds]
  simp only [optionField, Schema.holdFields, decide_true, Bool.true_and, Bool.and_eq_true, and_true]
  exact ⟨holds_optionDatum hboolean _, holds_optionDatum hstrings _, holds_optionDatum hstrings _,
    holds_optionDatum hboolean _, holds_optionDatum hboolean _, holds_optionDatum hstrings _,
    holds_optionDatum hsecs _⟩

/-- Values of the type are written as items that are no tables. -/
def isFlatSchema : Schema → Bool
  | .plain _ | .list _ => true
  | .optional inner => isFlatSchema inner
  | _ => false

/-- A flat value is written in one line. -/
theorem isTable_of_isFlatSchema (schema : Schema) (hflat : isFlatSchema schema = true) {d : Datum}
    (h : schema.holds d = true) {item : Item} (hitem : schema.write d = some item) :
    item.isTable = false := by
  cases schema with
  | plain type =>
    cases d with
    | plain item' =>
      obtain rfl := Option.some.inj hitem
      rw [Schema.holds] at h
      cases item' with
      | table t => cases type <;> cases h
      | _ => rfl
    | _ => cases h
  | list inner =>
    cases d with
    | list items =>
      cases hitem
      rfl
    | _ => cases h
  | optional inner =>
    cases d with
    | absent => cases inner.write_absent.symm.trans hitem
    | _ => exact isTable_of_isFlatSchema inner hflat h hitem
  | map | struct => cases hflat

/-- The tools have different names. -/
theorem nodup_toolsNames : ((structFields toolsConfig.schema).map FieldSpec.name).Nodup :=
  nodup_names (by decide)

/-- So have the shell's fields. -/
theorem nodup_shellNames : ((structFields shellConfig.schema).map FieldSpec.name).Nodup :=
  nodup_names (by decide)

/-- What is written of the shell's configuration has no tables. -/
theorem flat_shellTable {d : Datum} (h : shellConfig.schema.holds d = true) :
    Flat (nestedTable (shellConfig.schema.write d)) := by
  obtain ⟨values, rfl, hvalues⟩ := exists_values h
  have hnames := nodup_shellNames
  have hflat : ∀ field ∈ structFields shellConfig.schema, isFlatSchema field.schema = true := by
    decide
  intro key item hitem
  obtain ⟨field, hfield, hitem⟩ :=
    Option.bind_eq_some_iff.mp ((lookup_writeFields hnames hvalues key).symm.trans hitem)
  obtain ⟨d, hd, hholds⟩ := exists_value hvalues hfield
  rw [hd, Option.bind_some, FieldSpec.write] at hitem
  split_ifs at hitem
  exact isTable_of_isFlatSchema field.schema (hflat field (mem_of_find?_eq_some hfield))
    hholds hitem

/-- The field of the agent's configuration that holds the tools. -/
theorem find_tools : (structFields agentConfig.schema).find? (·.name = "tools") =
    some (sectionField "tools" toolsConfig) := rfl

/-- The field of the tools that holds the shell. -/
theorem find_shell : (structFields toolsConfig.schema).find? (·.name = "shell") =
    some (optionField "shell" shellConfig.schema) := rfl

/-- The tables of a configuration, down to the one of the tools. -/
theorem exists_tools {merged : Datum} (hmerged : agentConfig.schema.holds merged = true) :
    ∃ values tools, merged = .record values ∧
      Schema.holdFields (structFields agentConfig.schema) values = true ∧
      values.lookup "tools" = some (.record tools) ∧
      Schema.holdFields (structFields toolsConfig.schema) tools = true ∧
      (agentTable merged).lookup "tools" =
        some (.table (Schema.writeFields (structFields toolsConfig.schema) tools)) := by
  obtain ⟨values, rfl, hvalues⟩ := exists_values hmerged
  obtain ⟨d, hd, hholds⟩ := exists_value hvalues find_tools
  obtain ⟨tools, rfl, htools⟩ := exists_values (show toolsConfig.schema.holds d = true from hholds)
  refine ⟨values, tools, rfl, hvalues, hd, htools, ?_⟩
  have hlookup := lookup_writeFields (nodup_names distinct_agentConfig) hvalues "tools"
  rw [show (agentTable (.record values)).lookup "tools" = _ from hlookup, hd]
  rfl

/-- A field is found under its name. -/
theorem eq_of_find {fields : List (FieldSpec Schema)} (hnames : (fields.map FieldSpec.name).Nodup)
    {key : String} {field field' : FieldSpec Schema}
    (hfind : fields.find? (·.name = key) = some field) (hmem : field' ∈ fields)
    (hname : field'.name = key) : field' = field := by
  have hkey : field.name = key := by simpa using List.find?_some hfind
  exact inj_on_of_nodup_map hnames hmem (mem_of_find?_eq_some hfind)
    (hname.trans hkey.symm)

/-- The tools with the shell replaced. -/
theorem holds_putShell {tools : List (String × Datum)} (shell_config : FullShellConfig)
    (h : Schema.holdFields (structFields toolsConfig.schema) tools = true) :
    Schema.holdFields (structFields toolsConfig.schema)
      (putValue "shell" (Datum.put [] · shell_config.datum) tools) = true := by
  have hnames := nodup_toolsNames
  refine holdFields_putValue h fun field hfield hname d _ => ?_
  rw [eq_of_find hnames find_shell hfield hname]
  exact holds_datum shell_config

/-- The document of a configuration whose shell is replaced. -/
theorem agentTable_put {merged : Datum} (hmerged : agentConfig.schema.holds merged = true)
    (shell_config : FullShellConfig) :
    agentConfig.schema.holds (merged.put shellPath shell_config.datum) = true ∧
      agentTable (merged.put shellPath shell_config.datum) =
        putTable shellPath (shellTable shell_config) (agentTable merged) := by
  obtain ⟨values, tools, rfl, hvalues, hlookup, htools, htable⟩ := exists_tools hmerged
  have hnames := nodup_names distinct_agentConfig
  have hholds : Schema.holdFields (structFields agentConfig.schema)
      (putValue "tools" (Datum.put ["shell"] · shell_config.datum) values) = true := by
    refine holdFields_putValue hvalues fun field hfield hname d hd => ?_
    obtain rfl := eq_of_find hnames find_tools hfield hname
    obtain ⟨tools', rfl, htools'⟩ :=
      exists_values (show toolsConfig.schema.holds d = true from hd)
    exact holds_putShell shell_config htools'
  refine ⟨hholds, ?_⟩
  have hshell : (optionField "shell" shellConfig.schema).write shell_config.datum =
      some (.table (shellTable shell_config)) := rfl
  have hnewTools := writeFields_putValue
    nodup_toolsNames htools
    (holds_putShell shell_config htools) find_shell
    (exists_value htools find_shell).choose_spec.1 hshell
  have hwrite : (sectionField "tools" toolsConfig).write
      (Datum.put ["shell"] (.record tools) shell_config.datum) =
        some (.table (Schema.writeFields (structFields toolsConfig.schema)
          (putValue "shell" (Datum.put [] · shell_config.datum) tools))) := rfl
  have hnew := writeFields_putValue hnames hvalues hholds find_tools hlookup hwrite
  rw [shellPath, putTable_cons htable]
  refine hnew.trans ?_
  rw [hnewTools]
  rfl

section Overlay

variable {toml : TomlCrate} {f : LineFormat} {merged : Datum} {shell_config : FullShellConfig}
  {L Ls : Layout}

/-- The text with the overlay is laid out as the document with the shell replaced. -/
theorem describes_overlaidLayout (hmerged : agentConfig.schema.holds merged = true)
    (hdescribes : L.Describes (agentTable merged))
    (hshell : Ls.Describes (shellTable shell_config)) :
    (overlaidLayout L Ls.root).Describes
      (agentTable (merged.put shellPath shell_config.datum)) := by
  obtain ⟨values, tools, rfl, hvalues, hlookup, htools, htable⟩ := exists_tools hmerged
  rw [(agentTable_put hmerged shell_config).2]
  have hnames := nodup_toolsNames
  obtain ⟨d, hd, hholds⟩ := exists_value htools find_shell
  have hfound := lookup_writeFields hnames htools "shell"
  rw [find_shell, Option.bind_some, hd, Option.bind_some] at hfound
  -- the table of the shell, if there is one
  have hold : ∀ item, (optionField "shell" shellConfig.schema).write d = some item →
      ∃ u, item = .table u ∧ Flat u := by
    intro item hitem
    cases d with
    | record values =>
      cases hitem
      exact ⟨_, rfl, flat_shellTable hholds⟩
    | absent => cases hitem
    | _ => cases hholds
  show (overlaidLayout L Ls.root).Describes (putTable (["tools"] ++ ["shell"]) _ _)
  refine hdescribes.replace (replaces_overlaidLayout hdescribes.nodup Ls.root)
    ((tableAt_cons htable []).trans rfl)
    (fun item hitem => ?_) (fun v hv => ?_) (flat_shellTable (holds_datum shell_config)) hshell.root
  · obtain ⟨u, rfl, -⟩ := hold item (hfound.symm.trans hitem)
    rfl
  · obtain ⟨u, hu, hv⟩ := tableAt_cons_eq_some ((tableAt_cons htable ["shell"]).symm.trans hv)
    cases hv
    obtain ⟨w, hw, hflat⟩ := hold _ (hfound.symm.trans hu)
    cases hw
    exact hflat

/-- The crate reads the tables of a document in any order, with any blank lines above them. -/
def ReadsTables (toml : TomlCrate) (f : LineFormat) (t : Table) : Prop :=
  ∀ L : Layout, L.Describes t → toml.parse (L.text f) = .ok t

/-- The file with the overlay holds the configuration that was copied, with the overlaid shell and
otherwise unchanged. -/
def OverlayRight (toml : TomlCrate) (merged : Datum) (shell_config : FullShellConfig)
    (internal : String) (files : ConfigFiles) : Prop :=
  ∀ copied, copyAgentConfigToWorkspace toml merged internal files = .ok copied →
    ∃ text, textOf (writeShellOverlay toml shell_config applyBrowserShellOverlay internal copied)
        (agentConfigPath internal) = some text ∧
      toml.fromStr agentConfig.schema text =
        .ok (merged.put shellPath (applyBrowserShellOverlay shell_config).datum)

/-- The text of the file with the overlay. -/
theorem textOf_writeShellOverlay {serialized internal : String} {files copied : ConfigFiles}
    (hpretty : toml.pretty (agentTable merged) = .ok serialized)
    (hcopied : copyAgentConfigToWorkspace toml merged internal files = .ok copied) :
    textOf (writeShellOverlay toml shell_config applyBrowserShellOverlay internal copied)
        (agentConfigPath internal) =
      some (overlaid toml (applyBrowserShellOverlay shell_config) (serialized ++ "\n")) := by
  rw [copyAgentConfigToWorkspace, hpretty] at hcopied
  cases hcopied
  have hne : agentConfigPath internal ≠ providersConfigPath internal := fun heq =>
    absurd (FilePath.mk.inj heq).2 (by decide)
  have hcontents : textOf
      ((files.insert (agentConfigPath internal) (serialized ++ "\n").toUTF8).erase
        (providersConfigPath internal)) (agentConfigPath internal) =
          some (serialized ++ "\n") := by
    rw [textOf, AList.lookup_erase_ne hne, AList.lookup_insert, Option.bind_some, fromUTF8?_toUTF8]
  rw [writeShellOverlay, hcontents, textOf, AList.lookup_insert, Option.bind_some,
    fromUTF8?_toUTF8]

/-- A configuration has its version at the root. -/
theorem root_ne_nil (hmerged : agentConfig.schema.holds merged = true)
    (hdescribes : L.Describes (agentTable merged)) : L.root ≠ [] := by
  obtain ⟨values, rfl, hvalues⟩ := exists_values hmerged
  obtain ⟨d, hd, hholds⟩ := exists_value hvalues
    (show (structFields agentConfig.schema).find? (·.name = "config_version") =
      some (defaultField "config_version" (stringDatum "1.0.0") stringSchema) from rfl)
  have hlookup := lookup_writeFields (nodup_names distinct_agentConfig) hvalues "config_version"
  cases d with
  | plain item =>
    have hstring : item.isTable = false := by
      cases item with
      | table t => cases hholds
      | _ => rfl
    have hitem : (agentTable (.record values)).lookup "config_version" = some item := by
      refine hlookup.trans ?_
      rw [hd]
      rfl
    exact ne_nil_of_mem ((hdescribes.root.mem_iff _ _).mpr ⟨hitem, hstring⟩)
  | _ => cases hholds

/-- Where no line of a value is taken for a header, the overlay replaces the shell of the
configuration, and nothing else. -/
theorem overlay_replaces (hmerged : agentConfig.schema.holds merged = true)
    (hprinted : PrintedAs toml f (agentTable merged) L)
    (hshell : PrintedAs toml f (shellTable (applyBrowserShellOverlay shell_config)) Ls)
    (hreads : ReadsTables toml f
      (agentTable (merged.put shellPath (applyBrowserShellOverlay shell_config).datum)))
    (hapart : SectionApart f L) (internal : String) (files : ConfigFiles) :
    OverlayRight toml merged shell_config internal files := by
  intro copied hcopied
  have hsections : Ls.sections = [] := by
    by_contra hne
    obtain ⟨s, sections, hs⟩ := exists_cons_of_ne_nil hne
    obtain ⟨hpath, u, hu, -⟩ := hshell.describes.sections s (hs ▸ mem_cons_self)
    cases ((flat_shellTable (holds_datum _)).tableAt_eq_none hpath).symm.trans hu
  have htext := overlaid_text hprinted hshell hsections
    (root_ne_nil hmerged hprinted.describes) hapart
  refine ⟨_, textOf_writeShellOverlay hprinted.pretty hcopied, ?_⟩
  rw [htext, fromStr_eq_ok]
  refine ⟨_, hreads _ (describes_overlaidLayout hmerged hprinted.describes hshell.describes), ?_⟩
  have hholds := (agentTable_put hmerged (applyBrowserShellOverlay shell_config)).1
  obtain ⟨values, hvalues, -⟩ := exists_values hholds
  refine Schema.read_write agentConfig.schema distinct_agentConfig restores_agentConfig hholds ?_
  rw [hvalues]
  rfl

end Overlay

/-! ## Two configurations -/

section Examples

open Classical in
/-- The crate, of which only the reading of one document counts: it reads every layout of it. -/
noncomputable def crateFor (t : Table) : TomlCrate where
  parse text :=
    if ∃ L : Layout, L.Describes t ∧ L.text crateFormat = text then .ok t
    else .error "not read here"
  pretty table :=
    let schema := if (table.lookup "config_version").isSome then agentConfig.schema
      else shellConfig.schema
    .ok ((declaredLayout schema table).text crateFormat)
  edited _ _ := "not edited here"
  coercions := ⟨fun _ _ => none, fun _ _ => none⟩
  mismatch _ _ := "not read here"

/-- The crate reads what it printed. -/
theorem readsTables_crateFor (t : Table) : ReadsTables (crateFor t) crateFormat t :=
  fun L hdescribes => if_pos ⟨L, hdescribes, rfl⟩

/-- What is checked of a document and of its lines. -/
structure PrintsPlainly (schema : Schema) (t : Table) : Prop where
  declared : Declared schema t
  lines : ∀ line ∈ (declaredLayout schema t).lines crateFormat, '\n' ∉ line
  keyLines : ∀ field ∈ (declaredLayout schema t).root, crateFormat.keyLines field ≠ []
  headers : ∀ path ∈ (declaredLayout schema t).paths, ['['] <+: crateFormat.header path ∧
    (shellHeader <+: crateFormat.header path → path = shellPath)

instance (schema : Schema) (t : Table) : Decidable (Declared schema t) :=
  decidable_of_iff (_ ∧ _ ∧ _) ⟨fun h => ⟨h.1, h.2.1, h.2.2⟩, fun h => ⟨h.1, h.2, h.3⟩⟩

instance (schema : Schema) (t : Table) : Decidable (PrintsPlainly schema t) :=
  decidable_of_iff (_ ∧ _ ∧ _ ∧ _)
    ⟨fun h => ⟨h.1, h.2.1, h.2.2.1, h.2.2.2⟩, fun h => ⟨h.1, h.2, h.3, h.4⟩⟩

instance (f : LineFormat) (L : Layout) : Decidable (SectionApart f L) :=
  decidable_of_iff (_ ∧ _) ⟨fun h => ⟨h.1, h.2⟩, fun h => ⟨h.1, h.2⟩⟩

/-- Printed plainly, a document is printed as header lines and key lines. -/
theorem printedAs_declaredLayout {toml : TomlCrate} {schema : Schema} {t : Table}
    (hdistinct : DistinctBelow t) (hplain : PrintsPlainly schema t)
    (hpretty : toml.pretty t = .ok ((declaredLayout schema t).text crateFormat)) :
    PrintedAs toml crateFormat t (declaredLayout schema t) where
  describes := describes_declaredLayout hdistinct hplain.declared
  pretty := hpretty
  lines := hplain.lines
  keyLines := hplain.keyLines
  shell := by decide +kernel
  headers := hplain.headers

/-- `ShellConfig::default`. -/
def defaultShell : FullShellConfig where
  enabled := some true
  allow := some ["*"]
  replace_defaults := some false
  allow_operators := some true

/-- The default shell section is plain. -/
theorem printsPlainly_defaultShell :
    PrintsPlainly shellConfig.schema (shellTable (applyBrowserShellOverlay defaultShell)) := by
  decide +kernel

/-- It is printed as it is declared. -/
theorem printedAs_defaultShell (t : Table) :
    PrintedAs (crateFor t) crateFormat (shellTable (applyBrowserShellOverlay defaultShell))
      (declaredLayout shellConfig.schema (shellTable (applyBrowserShellOverlay defaultShell))) := by
  have hwrite : shellConfig.schema.write (applyBrowserShellOverlay defaultShell).datum =
      some (.table (shellTable (applyBrowserShellOverlay defaultShell))) := rfl
  exact printedAs_declaredLayout (distinctBelow_write (by decide) (holds_datum _) hwrite)
    printsPlainly_defaultShell rfl

/-- So is the default configuration. -/
theorem plain_default : PrintsPlainly agentConfig.schema (agentTable agentConfig.default) ∧
    SectionApart crateFormat
      (declaredLayout agentConfig.schema (agentTable agentConfig.default)) := by
  decide +kernel

/-- The document of the default configuration with the overlaid shell. -/
def defaultOverlaid : Table :=
  agentTable (agentConfig.default.put shellPath (applyBrowserShellOverlay defaultShell).datum)

/-- The shell of the default configuration is replaced. -/
theorem overlay_replaces_default : OverlayRight (crateFor defaultOverlaid) agentConfig.default
    defaultShell "/srv/oxydra/alice/internal" ∅ := by
  have hwrite : agentConfig.schema.write agentConfig.default =
      some (.table (agentTable agentConfig.default)) := rfl
  have hprinted : PrintedAs (crateFor defaultOverlaid) crateFormat
      (agentTable agentConfig.default)
      (declaredLayout agentConfig.schema (agentTable agentConfig.default)) :=
    printedAs_declaredLayout (distinctBelow_write distinct_agentConfig rfl hwrite) plain_default.1
      rfl
  exact overlay_replaces rfl hprinted (printedAs_defaultShell _) (readsTables_crateFor _)
    plain_default.2 _ _

/-- A prompt that quotes the section. -/
def sectionPrompt : String := "Never write this:\n[tools.shell]\nenabled = false!"

/-- A configuration with a browser, without a section of the shell, and with an agent whose prompt
quotes one. -/
def promptConfig : Datum :=
  (agentConfig.default.put ["tools"] (.record [("web_search", .absent), ("shell", .absent),
    ("browser", .record [("enabled", booleanDatum true), ("cdp_url", .absent)]),
    ("attachment_save", .absent)])).put ["agents"]
      (.record [("helper", .record [("system_prompt", stringDatum sectionPrompt),
        ("system_prompt_file", .absent), ("selection", .absent), ("tools", .absent),
        ("max_turns", .absent), ("max_cost", .absent)])])

/-- Its document with the overlaid shell. -/
def promptOverlaid : Table :=
  agentTable (promptConfig.put shellPath (applyBrowserShellOverlay defaultShell).datum)

/-- And the one with a prompt. -/
theorem plain_prompt : PrintsPlainly agentConfig.schema (agentTable promptConfig) := by
  decide +kernel

/-- What is left of its text, and the overlay. -/
def cutPrompt : List Char :=
  cutOut "\n[tools.shell]".toList "\n[".toList
      (((declaredLayout agentConfig.schema (agentTable promptConfig)).lines crateFormat).flatMap
        (· ++ ['\n']) ++ ['\n']) ++
    ("\n[tools.shell]\n".toList ++
      ((declaredLayout shellConfig.schema
        (shellTable (applyBrowserShellOverlay defaultShell))).lines crateFormat).flatMap
          (· ++ ['\n']))

/-- The prompt is cut at its line. -/
theorem toList_overlaid_prompt : (overlaid (crateFor promptOverlaid)
    (applyBrowserShellOverlay defaultShell)
    ((declaredLayout agentConfig.schema (agentTable promptConfig)).text crateFormat ++
      "\n")).toList = cutPrompt := by
  rw [overlaid, overlayToml, (printedAs_defaultShell promptOverlaid).pretty]
  simp only [String.toList_append, String.toList_ofList, Layout.text, textOfLines,
    Except.toOption, Option.getD_some]
  rfl

/-- The characters of a layout's lines are in its text. -/
theorem mem_text {f : LineFormat} {L : Layout} {line : List Char} {c : Char}
    (h : line ∈ L.lines f) (hc : c ∈ line) : c ∈ (L.text f).toList := by
  rw [Layout.text, textOfLines, String.toList_ofList]
  exact mem_flatMap.mpr ⟨line, h, mem_append_left _ hc⟩

/-- The end of the prompt is not in the text that is left. -/
theorem closing_not_mem : '!' ∉ cutPrompt := by
  decide +kernel

/-- The prompt of the agent is in the document with the overlaid shell. -/
theorem lookup_prompt : ∃ u, tableAt ["agents", "helper"] promptOverlaid = some u ∧
    u.lookup "system_prompt" = some (.string sectionPrompt) := ⟨_, rfl, rfl⟩

/-- Every layout of this document has the end of the prompt. -/
theorem closing_mem {L : Layout} (h : L.Describes promptOverlaid) :
    '!' ∈ (L.text crateFormat).toList := by
  obtain ⟨u, hu, hprompt⟩ := lookup_prompt
  have hpath : ["agents", "helper"] ∈ L.paths := by
    by_contra hnot
    have hall := (h.complete _ u (cons_ne_nil _ _) hu hnot).2
    cases hall _ (Fields.mem_of_lookup hprompt)
  obtain ⟨s, hs, hspath⟩ := mem_map.mp hpath
  obtain ⟨-, v, hv, hkeys⟩ := h.sections s hs
  rw [hspath] at hv
  obtain rfl := Option.some.inj (hu.symm.trans hv)
  have hkey := (hkeys.mem_iff _ _).mpr ⟨hprompt, rfl⟩
  obtain ⟨line, hline, hclosing⟩ : ∃ line ∈
      crateFormat.keyLines ("system_prompt", .string sectionPrompt), '!' ∈ line := by
    decide +kernel
  refine mem_text (mem_append_right _ (mem_flatMap.mpr ⟨s, hs, ?_⟩)) hclosing
  exact mem_append_right _ (mem_cons_of_mem _ (mem_flatMap.mpr ⟨_, hkey, hline⟩))

/-- The prompt is cut in two, and the file is not read. -/
theorem prompt_is_cut :
    agentConfig.schema.holds promptConfig = true ∧
      PrintedAs (crateFor promptOverlaid) crateFormat (agentTable promptConfig)
        (declaredLayout agentConfig.schema (agentTable promptConfig)) ∧
      PrintedAs (crateFor promptOverlaid) crateFormat
        (shellTable (applyBrowserShellOverlay defaultShell))
        (declaredLayout shellConfig.schema (shellTable (applyBrowserShellOverlay defaultShell))) ∧
      ReadsTables (crateFor promptOverlaid) crateFormat promptOverlaid ∧
      ¬OverlayRight (crateFor promptOverlaid) promptConfig defaultShell
        "/srv/oxydra/alice/internal" ∅ := by
  have hholds : agentConfig.schema.holds promptConfig = true := rfl
  have hwrite : agentConfig.schema.write promptConfig = some (.table (agentTable promptConfig)) :=
    rfl
  have hprinted : PrintedAs (crateFor promptOverlaid) crateFormat (agentTable promptConfig)
      (declaredLayout agentConfig.schema (agentTable promptConfig)) :=
    printedAs_declaredLayout (distinctBelow_write distinct_agentConfig hholds hwrite) plain_prompt
      rfl
  refine ⟨hholds, hprinted, printedAs_defaultShell _, readsTables_crateFor _, fun hright => ?_⟩
  obtain ⟨copied, hcopied⟩ : ∃ copied, copyAgentConfigToWorkspace (crateFor promptOverlaid)
      promptConfig "/srv/oxydra/alice/internal" ∅ = .ok copied := by
    rw [copyAgentConfigToWorkspace, hprinted.pretty]
    exact ⟨_, rfl⟩
  obtain ⟨text, htext, hread⟩ := hright _ hcopied
  obtain rfl := Option.some.inj
    ((textOf_writeShellOverlay hprinted.pretty hcopied).symm.trans htext)
  obtain ⟨document, hparse, -⟩ := fromStr_eq_ok.mp hread
  have hnot : ¬∃ L : Layout, L.Describes promptOverlaid ∧ L.text crateFormat =
      overlaid (crateFor promptOverlaid) (applyBrowserShellOverlay defaultShell)
        ((declaredLayout agentConfig.schema (agentTable promptConfig)).text crateFormat ++
          "\n") := by
    rintro ⟨L, hdescribes, hsame⟩
    have hin := closing_mem hdescribes
    rw [hsame, toList_overlaid_prompt] at hin
    exact closing_not_mem hin
  have herror : (crateFor promptOverlaid).parse _ = .error "not read here" := if_neg hnot
  cases herror.symm.trans hparse

end Examples

end Oxydra
