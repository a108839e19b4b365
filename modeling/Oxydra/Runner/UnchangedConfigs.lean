import Oxydra.Runner.ChangedFields
import Oxydra.Runner.ConfigFileCalls
import Oxydra.Runner.ConfigFrame

/-!
# When a patch is not written

`persist_patch` (`crates/runner/src/web/config_write.rs`) leaves the file alone where no field is
reported as changed. The fields are compared as JSON, and JSON has no number for `inf` and `nan`:
`serde_json` makes them `null`, as it does with a `None` that is written. So the file is left alone
exactly where the two configurations are equal but for such floats.
-/

namespace Toml

/-! ## Values of a type -/

/-- An item is a value of a plain type. -/
def Plain.holds : Plain → Item → Bool
  | .string, .string _ => true
  | .boolean, .boolean _ => true
  | .float, .float _ | .float, .special _ => true
  | .unsigned bits, .integer n => 0 ≤ n ∧ n < 2^bits
  | .name names, .string s => s ∈ names
  | _, _ => false

mutual

/-- A datum is a value of a type, with the keys of a map in order. -/
def Schema.holds : Schema → Datum → Bool
  | .plain type, .plain item => type.holds item
  | .optional _, .absent => true
  | .optional inner, d => inner.holds d
  | .list inner, .list items => items.all inner.holds
  | .map inner, .record fields =>
    decide ((Fields.keys fields).Pairwise (· < ·)) && fields.all fun field => inner.holds field.2
  | .struct _ fields, .record values => Schema.holdFields fields values
  | _, _ => false

/-- The values of the fields of a struct, in their order. -/
def Schema.holdFields : List (FieldSpec Schema) → List (String × Datum) → Bool
  | [], [] => true
  | ⟨name, _, _, schema⟩ :: fields, (key, d) :: values =>
    decide (key = name) && schema.holds d && Schema.holdFields fields values
  | _, _ => false

end

mutual

/-- The fields of every struct have different names. -/
def Schema.distinct : Schema → Bool
  | .plain _ => true
  | .optional inner | .list inner | .map inner => inner.distinct
  | .struct _ fields =>
    decide ((fields.map FieldSpec.name).Nodup) && Schema.distinctFields fields

def Schema.distinctFields : List (FieldSpec Schema) → Bool
  | [] => true
  | ⟨_, _, _, schema⟩ :: fields => schema.distinct && Schema.distinctFields fields

end

/-- A float that is not finite. -/
def Datum.isSpecial : Datum → Bool
  | .plain (.special _) => true
  | _ => false

mutual

/-- Two values of a type differ at most in floats that are not finite, on both sides; where a `None`
is written, it counts as one of them. -/
def Schema.Blurred : Schema → Datum → Datum → Prop
  | .plain _, d, d' => d = d' ∨ d.isSpecial ∧ d'.isSpecial
  | .optional inner, d, d' =>
    (d.isAbsent ∨ d.isSpecial) ∧ (d'.isAbsent ∨ d'.isSpecial) ∨ inner.Blurred d d'
  | .list inner, .list items, .list items' => List.Forall₂ inner.Blurred items items'
  | .map inner, .record fields, .record fields' =>
    List.Forall₂ (fun f f' => f.1 = f'.1 ∧ inner.Blurred f.2 f'.2) fields fields'
  | .struct _ fields, .record values, .record values' => Schema.BlurredFields fields values values'
  | _, _, _ => False

/-- A field that is left out of the one value is left out of the other. -/
def Schema.BlurredFields : List (FieldSpec Schema) → List (String × Datum) →
    List (String × Datum) → Prop
  | [], _, _ => True
  | ⟨_, _, skip, schema⟩ :: fields, (_, d) :: values, (_, d') :: values' =>
    (skip d = skip d' ∧ (skip d = false → schema.Blurred d d')) ∧
      Schema.BlurredFields fields values values'
  | _, _, _ => False

end

end Toml

namespace Oxydra

open List Toml
open Value (KeysHold)

/-! ## The JSON form of a configuration -/

/-- Special floats look alike in JSON. -/
theorem itemToJson_eq_iff {type : Plain} {item item' : Item} (h : type.holds item = true)
    (h' : type.holds item' = true) : itemToJson item = itemToJson item' ↔
      Datum.plain item = .plain item' ∨
        (Datum.plain item).isSpecial ∧ (Datum.plain item').isSpecial := by
  cases type <;> cases item <;> cases item' <;>
    simp_all [Plain.holds, itemToJson, Datum.isSpecial]

/-- What is written as `null`. -/
theorem toJson_eq_null (schema : Schema) {d : Datum} (h : schema.holds d = true) :
    toJson schema d = .null ↔ d.isAbsent = true ∨ d.isSpecial = true := by
  match schema, d with
  | .plain type, .plain item =>
    rw [Schema.holds] at h
    cases type <;> cases item <;>
      simp_all [Plain.holds, toJson, itemToJson, Datum.isAbsent, Datum.isSpecial]
  | .optional inner, .absent => simp [toJson, Datum.isAbsent]
  | .optional inner, .plain item => exact toJson_eq_null inner h
  | .optional inner, .list items => exact toJson_eq_null inner h
  | .optional inner, .record fields => exact toJson_eq_null inner h
  | .list inner, .list items => simp [toJson, Datum.isAbsent, Datum.isSpecial]
  | .map inner, .record fields => simp [toJson, Datum.isAbsent, Datum.isSpecial]
  | .struct _ fields, .record values => simp [toJson, Datum.isAbsent, Datum.isSpecial]

/-- What counts as `null` stays so. -/
theorem nullish_of_blurred (schema : Schema) {d d' : Datum} (h : schema.Blurred d d') :
    d.isAbsent = true ∨ d.isSpecial = true ↔ d'.isAbsent = true ∨ d'.isSpecial = true := by
  match schema, d, d' with
  | .plain type, d, d' =>
    obtain rfl | ⟨hd, hd'⟩ := h
    · exact Iff.rfl
    · exact iff_of_true (.inr hd) (.inr hd')
  | .optional inner, d, d' =>
    obtain ⟨hd, hd'⟩ | h := h
    · exact iff_of_true hd hd'
    · exact nullish_of_blurred inner h
  | .list inner, .list items, .list items' => exact Iff.rfl
  | .map inner, .record fields, .record fields' => exact Iff.rfl
  | .struct _ fields, .record values, .record values' => exact Iff.rfl

/-- Lists with equal images. -/
theorem map_eq_iff_forall₂ {α β : Type} {f : α → β} {R : α → α → Prop} {xs ys : List α}
    (h : ∀ x ∈ xs, ∀ y ∈ ys, f x = f y ↔ R x y) :
    xs.map f = ys.map f ↔ List.Forall₂ R xs ys := by
  induction xs generalizing ys with
  | nil => cases ys <;> simp
  | cons x xs ih =>
    cases ys with
    | nil => simp
    | cons y ys =>
      have hrest := ih fun x hx y hy =>
        h x (mem_cons_of_mem _ hx) y (mem_cons_of_mem _ hy)
      rw [map_cons, map_cons, List.cons.injEq, forall₂_cons, hrest,
        h x mem_cons_self y mem_cons_self]

/-- A value under a name that no field has is not written. -/
theorem toJsonFields_of_not_mem {fields : List (FieldSpec Schema)} {name : String}
    (h : name ∉ fields.map FieldSpec.name) (d : Datum) (values : List (String × Datum)) :
    toJsonFields fields ((name, d) :: values) = toJsonFields fields values := by
  induction fields with
  | nil => rfl
  | cons field fields ih =>
    obtain ⟨hne, hrest⟩ := not_or.mp (mt mem_cons.mpr h)
    obtain ⟨key, default, skip, schema⟩ := field
    rw [toJsonFields, toJsonFields, Fields.lookup_cons, if_neg (Ne.symm hne), ih hrest]

/-- The fields of a struct, from the first one on. -/
theorem toJsonFields_cons {field : FieldSpec Schema} {fields : List (FieldSpec Schema)}
    (h : field.name ∉ fields.map FieldSpec.name) (d : Datum) (values : List (String × Datum)) :
    toJsonFields (field :: fields) ((field.name, d) :: values) =
      if field.skip d then toJsonFields fields values
      else Fields.insert field.name (toJson field.schema d) (toJsonFields fields values) := by
  obtain ⟨key, default, skip, schema⟩ := field
  rw [toJsonFields, Fields.lookup_cons, if_pos rfl, toJsonFields_of_not_mem h]

mutual

/-- Two values of a type have one JSON form exactly if they are equal but for special floats. -/
theorem toJson_eq_iff (schema : Schema) (hdistinct : schema.distinct = true) {d d' : Datum}
    (h : schema.holds d = true) (h' : schema.holds d' = true) :
    toJson schema d = toJson schema d' ↔ schema.Blurred d d' := by
  match schema, d, d' with
  | .plain type, .plain item, .plain item' => exact itemToJson_eq_iff h h'
  | .optional inner, d, d' =>
    have hnull := toJson_eq_null (.optional inner) h
    have hnull' := toJson_eq_null (.optional inner) h'
    rw [Schema.Blurred]
    by_cases hd : d.isAbsent = true ∨ d.isSpecial = true
    · by_cases hd' : d'.isAbsent = true ∨ d'.isSpecial = true
      · exact iff_of_true ((hnull.mpr hd).trans (hnull'.mpr hd').symm) (.inl ⟨hd, hd'⟩)
      · refine iff_of_false (fun heq => hd' (hnull'.mp (heq ▸ hnull.mpr hd))) ?_
        rintro (⟨-, hd''⟩ | hblurred)
        · exact hd' hd''
        · exact hd' ((nullish_of_blurred inner hblurred).mp hd)
    · by_cases hd' : d'.isAbsent = true ∨ d'.isSpecial = true
      · refine iff_of_false (fun heq => hd (hnull.mp (heq ▸ hnull'.mpr hd'))) ?_
        rintro (⟨hd'', -⟩ | hblurred)
        · exact hd hd''
        · exact hd ((nullish_of_blurred inner hblurred).mpr hd')
      · have hinner : ∀ {d : Datum}, ¬(d.isAbsent = true ∨ d.isSpecial = true) →
            Schema.holds (.optional inner) d = true →
            toJson (.optional inner) d = toJson inner d ∧ inner.holds d = true := by
          intro d hd h
          cases d with
          | absent => exact absurd (.inl rfl) hd
          | _ => exact ⟨by rw [toJson], h⟩
        obtain ⟨heq, h⟩ := hinner hd h
        obtain ⟨heq', h'⟩ := hinner hd' h'
        rw [heq, heq', toJson_eq_iff inner hdistinct h h']
        exact (or_iff_right fun hboth => hd hboth.1).symm
  | .list inner, .list items, .list items' =>
    rw [toJson, toJson, Value.array.injEq, Schema.Blurred]
    refine map_eq_iff_forall₂ fun item hitem item' hitem' => ?_
    exact toJson_eq_iff inner hdistinct (all_eq_true.mp h item hitem)
      (all_eq_true.mp h' item' hitem')
  | .map inner, .record fields, .record fields' =>
    obtain ⟨-, hall⟩ := Bool.and_eq_true_iff.mp h
    obtain ⟨-, hall'⟩ := Bool.and_eq_true_iff.mp h'
    rw [toJson, toJson, Value.object.injEq, Schema.Blurred]
    refine map_eq_iff_forall₂ fun field hfield field' hfield' => ?_
    rw [Prod.mk.injEq, toJson_eq_iff inner hdistinct (all_eq_true.mp hall field hfield)
      (all_eq_true.mp hall' field' hfield')]
  | .struct _ fields, .record values, .record values' =>
    obtain ⟨hnames, hfields⟩ := Bool.and_eq_true_iff.mp hdistinct
    rw [toJson, toJson, Value.object.injEq, Schema.Blurred]
    exact toJsonFields_eq_iff fields (of_decide_eq_true hnames) hfields h h'

/-- `toJson_eq_iff` of fields. -/
theorem toJsonFields_eq_iff (fields : List (FieldSpec Schema))
    (hnames : (fields.map FieldSpec.name).Nodup) (hdistinct : Schema.distinctFields fields = true)
    {values values' : List (String × Datum)} (h : Schema.holdFields fields values = true)
    (h' : Schema.holdFields fields values' = true) :
    toJsonFields fields values = toJsonFields fields values' ↔
      Schema.BlurredFields fields values values' := by
  match fields, values, values' with
  | [], values, values' => simp [toJsonFields, Schema.BlurredFields]
  | ⟨name, default, skip, schema⟩ :: fields, (key, d) :: values, (key', d') :: values' =>
    obtain ⟨hfirst, hrest⟩ := Bool.and_eq_true_iff.mp h
    obtain ⟨hkey, hd⟩ := Bool.and_eq_true_iff.mp hfirst
    obtain ⟨hfirst', hrest'⟩ := Bool.and_eq_true_iff.mp h'
    obtain ⟨hkey', hd'⟩ := Bool.and_eq_true_iff.mp hfirst'
    obtain rfl := of_decide_eq_true hkey
    obtain rfl := of_decide_eq_true hkey'
    obtain ⟨hnot, hnames⟩ := nodup_cons.mp hnames
    obtain ⟨hschema, hdistinct⟩ := Bool.and_eq_true_iff.mp hdistinct
    have hwrite : ∀ d values, toJsonFields (⟨key', default, skip, schema⟩ :: fields)
        ((key', d) :: values) = if skip d then toJsonFields fields values
          else Fields.insert key' (toJson schema d) (toJsonFields fields values) :=
      toJsonFields_cons hnot
    have hne : ∀ (v : Value) (values values' : List (String × Datum)),
        toJsonFields fields values ≠ Fields.insert key' v (toJsonFields fields values') := by
      intro v values values' heq
      exact not_mem_toJsonFields hnot values (heq ▸ Fields.mem_keys_insert.mpr (.inl rfl))
    have hiff := toJsonFields_eq_iff fields hnames hdistinct hrest hrest'
    rw [hwrite, hwrite, Schema.BlurredFields]
    cases hskip : skip d <;> cases hskip' : skip d'
    · simp only [Bool.false_eq_true, if_false]
      rw [Fields.insert_eq_insert (not_mem_toJsonFields hnot _) (not_mem_toJsonFields hnot _), hiff,
        toJson_eq_iff schema hschema hd hd']
      simp
    · simpa using (hne _ _ _).symm
    · simpa using hne _ _ _
    · simpa using hiff

end

/-! ## Configurations -/

mutual

/-- The JSON form of a value is in order. -/
theorem isOrdered_toJson (schema : Schema) (hdistinct : schema.distinct = true) {d : Datum}
    (h : schema.holds d = true) :
    (toJson schema d).IsOrdered := by
  match schema, d with
  | .plain type, .plain item => cases item <;> exact KeysHold.leaf rfl nofun
  | .optional inner, .absent => exact KeysHold.leaf rfl nofun
  | .optional inner, .plain item => exact isOrdered_toJson inner hdistinct h
  | .optional inner, .list items => exact isOrdered_toJson inner hdistinct h
  | .optional inner, .record fields => exact isOrdered_toJson inner hdistinct h
  | .list inner, .list items =>
    rw [toJson]
    refine KeysHold.array fun item hitem => ?_
    obtain ⟨d, hd, rfl⟩ := mem_map.mp hitem
    exact isOrdered_toJson inner hdistinct (all_eq_true.mp h d hd)
  | .map inner, .record fields =>
    obtain ⟨hkeys, hall⟩ := Bool.and_eq_true_iff.mp h
    have hsame : Fields.keys (fields.map fun f => (f.1, toJson inner f.2)) =
        Fields.keys fields := by
      simp [Fields.keys]
    rw [toJson]
    refine KeysHold.object (hsame ▸ of_decide_eq_true hkeys) fun field hfield => ?_
    obtain ⟨f, hf, rfl⟩ := mem_map.mp hfield
    exact isOrdered_toJson inner hdistinct (all_eq_true.mp hall f hf)
  | .struct _ fields, .record values =>
    obtain ⟨hnames, hfields⟩ := Bool.and_eq_true_iff.mp hdistinct
    obtain ⟨hkeys, hall⟩ := isOrdered_toJsonFields fields (of_decide_eq_true hnames) hfields h
    rw [toJson]
    exact KeysHold.object hkeys hall

/-- `isOrdered_toJson` of fields. -/
theorem isOrdered_toJsonFields (fields : List (FieldSpec Schema))
    (hnames : (fields.map FieldSpec.name).Nodup) (hdistinct : Schema.distinctFields fields = true)
    {values : List (String × Datum)} (h : Schema.holdFields fields values = true) :
    (Fields.keys (toJsonFields fields values)).Pairwise (· < ·) ∧
      ∀ field ∈ toJsonFields fields values, field.2.IsOrdered := by
  match fields, values with
  | [], [] => exact ⟨.nil, fun field hfield => absurd hfield not_mem_nil⟩
  | ⟨name, default, skip, schema⟩ :: fields, (key, d) :: values =>
    obtain ⟨hfirst, hrest⟩ := Bool.and_eq_true_iff.mp h
    obtain ⟨hkey, hd⟩ := Bool.and_eq_true_iff.mp hfirst
    obtain rfl := of_decide_eq_true hkey
    obtain ⟨hnot, hnames⟩ := nodup_cons.mp hnames
    obtain ⟨hschema, hdistinct⟩ := Bool.and_eq_true_iff.mp hdistinct
    obtain ⟨hkeys, hall⟩ := isOrdered_toJsonFields fields hnames hdistinct hrest
    have hwrite : toJsonFields (⟨key, default, skip, schema⟩ :: fields) ((key, d) :: values) =
        if skip d then toJsonFields fields values
        else Fields.insert key (toJson schema d) (toJsonFields fields values) :=
      toJsonFields_cons hnot d values
    rw [hwrite]
    split_ifs
    · exact ⟨hkeys, hall⟩
    · refine ⟨Fields.pairwise_insert hkeys, fun field hfield => ?_⟩
      obtain rfl | hfield := Fields.mem_insert hfield
      · exact isOrdered_toJson schema hschema hd
      · exact hall field hfield

end

/-- The configurations that are patched. -/
def patchedConfigs : List ConfigType := [agentConfig, runnerGlobalConfig, runnerUserConfig]

/-- No patched type has two fields of a name. -/
theorem distinct_patchedConfigs {type : ConfigType} (h : type ∈ patchedConfigs) :
    type.schema.distinct = true := by
  unfold patchedConfigs at h
  simp only [mem_cons, not_mem_nil, or_false] at h
  obtain rfl | rfl | rfl := h <;> decide

/-- The file is left alone. -/
def SkipsWrite (prepared : PreparedPatch) : Prop :=
  ∀ host now path files, persistPatch host now path prepared files = .ok none files

/-- Nothing is written without a changed field. -/
theorem skipsWrite_iff {prepared : PreparedPatch} :
    SkipsWrite prepared ↔ prepared.changed_fields = [] := by
  refine ⟨fun h => ?_, fun h host now path files => persistPatch_unchanged h now path⟩
  by_contra hchanged
  have hhost := FileHost.reliable_reliable 0
  set path : FilePath := ⟨"/etc/oxydra", "runner.toml"⟩
  cases hexists : prepared.file_exists with
  | false =>
    have hrun := h (.reliable 0) ⟨0, 0⟩ path ∅
    rw [hhost.persistPatch_new hchanged hexists] at hrun
    injection hrun with _ hfiles
    have hlookup := congrArg (AList.lookup path) hfiles
    rw [lookup_written, if_pos rfl, AList.lookup_empty] at hlookup
    exact nomatch hlookup
  | true =>
    have hfile : (AList.singleton path ByteArray.empty : ConfigFiles).lookup path =
        some ByteArray.empty := rfl
    obtain ⟨files', hrun, -⟩ := hhost.persistPatch_existing hchanged hexists ⟨0, 0⟩ hfile rfl
    rw [h] at hrun
    exact nomatch hrun

section Prepared

variable {toml : TomlCrate} {type : ConfigType} {validate : Datum → Except String Unit}
  {path : String} {file : ConfigFile} {patch : Value} {prepared : PreparedPatch}
  {document : Table} {before after : Value} {typed typed' : Datum}

/-- What is compared in `prepare_patch`. -/
theorem changed_fields_of_prepared
    (h : preparePatch toml type validate path file patch = .ok prepared)
    (hexisting : existingConfig toml type path file = some (document, typed))
    (hrendered : toml.fromStr type.schema prepared.rendered_toml = .ok typed') :
    prepared.changed_fields =
      computeChangedFields (toJson type.schema typed) (toJson type.schema typed') := by
  obtain ⟨patch_obj, existing_toml, file_exists, document', before', patched, after', -, htext,
    hdocument, hbefore, -, -, hafter, hchanged⟩ := preparePatch_eq_ok h
  have hconfig : existingConfig toml type path file = some (document', before') := by
    simp [existingConfig, htext, hdocument, hbefore, Except.toOption]
  rw [hconfig] at hexisting
  obtain ⟨-, rfl⟩ := Prod.mk.inj (Option.some_inj.mp hexisting)
  obtain rfl := Except.ok.inj (hafter.symm.trans hrendered)
  exact hchanged

/-- A patch is not written exactly if the configurations are equal but for special floats. -/
theorem skipsWrite_iff_blurred (hdistinct : type.schema.distinct = true)
    (h : preparePatch toml type validate path file patch = .ok prepared)
    (hexisting : existingConfig toml type path file = some (document, typed))
    (hrendered : toml.fromStr type.schema prepared.rendered_toml = .ok typed')
    (htyped : type.schema.holds typed = true) (htyped' : type.schema.holds typed' = true) :
    SkipsWrite prepared ↔ type.schema.Blurred typed typed' := by
  have hexact := computeChangedFields_eq_nil (isOrdered_toJson type.schema hdistinct htyped)
    (isOrdered_toJson type.schema hdistinct htyped')
  rw [skipsWrite_iff, changed_fields_of_prepared h hexisting hrendered, hexact,
    toJson_eq_iff type.schema hdistinct htyped htyped']

/-- Changes are found exactly, and a patch is written exactly if there are any, where no empty key
is lost and not only special floats are changed. -/
theorem changeDetection_iff (hbefore : before.IsOrdered) (hafter : after.IsOrdered)
    (htype : type ∈ patchedConfigs)
    (h : preparePatch toml type validate path file patch = .ok prepared)
    (hexisting : existingConfig toml type path file = some (document, typed))
    (hrendered : toml.fromStr type.schema prepared.rendered_toml = .ok typed')
    (htyped : type.schema.holds typed = true) (htyped' : type.schema.holds typed' = true) :
    ChangesExact before after ∧ (SkipsWrite prepared ↔ typed = typed') ↔
      NoEmptyKeyLost before after ∧ (type.schema.Blurred typed typed' → typed = typed') := by
  have hdistinct := distinct_patchedConfigs htype
  have hsame : typed = typed' → type.schema.Blurred typed typed' := by
    rintro rfl
    exact (toJson_eq_iff type.schema hdistinct htyped htyped).mp rfl
  rw [changesExact_iff hbefore hafter,
    skipsWrite_iff_blurred hdistinct h hexisting hrendered htyped htyped']
  exact and_congr_right fun _ => ⟨fun hiff => hiff.mp, fun himp => ⟨himp, hsame⟩⟩

end Prepared

/-! ## A cost without a limit -/

/-- What `toml_edit` reads and prints where an infinite cost is removed. -/
def costToml : TomlCrate where
  parse text :=
    if text = "runtime.max_cost = inf\n" then
      .ok [("runtime", .table [("max_cost", .special "inf")])]
    else .ok [("runtime", .table [])]
  pretty _ := .error "not printed here"
  edited _ _ := "[runtime]\n"
  coercions := ⟨fun _ _ => none, fun _ _ => none⟩
  mismatch _ _ := "not read here"

/-- The configuration of a runtime section. -/
def configOfRuntime (runtime : Table) : Datum :=
  (agentConfig.schema.read costToml.coercions (.table [("runtime", .table runtime)])).getD .absent

/-- The configuration whose cost is infinite. -/
def infiniteCost : Datum := configOfRuntime [("max_cost", .special "inf")]

/-- The configuration without a cost. -/
def noCost : Datum := configOfRuntime []

/-- The patch that removes the cost. -/
def removeCost : Value := .object [("runtime", .object [("max_cost", .null)])]

/-- A cost is not no cost. -/
theorem infiniteCost_ne : infiniteCost ≠ noCost := fun heq =>
  nomatch congrArg (Datum.get ["runtime", "max_cost"]) heq

/-- The patch that removes an infinite cost. -/
theorem preparePatch_removeCost :
    preparePatch costToml agentConfig (fun _ => .ok ()) "agent.toml"
      (some (.ok "runtime.max_cost = inf\n")) removeCost = .ok ⟨"[runtime]\n", [], true⟩ := by
  have hrun : preparePatch costToml agentConfig (fun _ => .ok ()) "agent.toml"
      (some (.ok "runtime.max_cost = inf\n")) removeCost =
        .ok ⟨"[runtime]\n", computeChangedFields (toJson agentConfig.schema infiniteCost)
          (toJson agentConfig.schema noCost), true⟩ := rfl
  have hordered : ∀ {d : Datum}, agentConfig.schema.holds d = true →
      (toJson agentConfig.schema d).IsOrdered :=
    isOrdered_toJson _ (distinct_patchedConfigs mem_cons_self)
  have hnil : computeChangedFields (toJson agentConfig.schema infiniteCost)
      (toJson agentConfig.schema noCost) = [] :=
    (computeChangedFields_eq_nil (hordered rfl) (hordered rfl)).mpr rfl
  rw [hrun, hnil]

/-- The configuration before it. -/
theorem existingConfig_removeCost :
    existingConfig costToml agentConfig "agent.toml" (some (.ok "runtime.max_cost = inf\n")) =
      some ([("runtime", .table [("max_cost", .special "inf")])], infiniteCost) := rfl

/-- And behind it. -/
theorem fromStr_removeCost : costToml.fromStr agentConfig.schema "[runtime]\n" = .ok noCost := rfl

/-- An object below an empty key. -/
def emptyKeyed (n : Number) : Value := .object [("", .object [("a", .number n)])]

/-- The keys of the example. -/
theorem keysHold_emptyKeyed {p : List String → Prop} (h : p [""]) (h' : p ["a"]) (n : Number) :
    KeysHold p (emptyKeyed n) := by
  refine .object h fun field hfield => ?_
  obtain rfl := mem_singleton.mp hfield
  refine .object h' fun field hfield => ?_
  obtain rfl := mem_singleton.mp hfield
  exact .leaf rfl nofun

/-- They are in order. -/
theorem isOrdered_emptyKeyed (n : Number) : (emptyKeyed n).IsOrdered :=
  keysHold_emptyKeyed (pairwise_singleton _ _) (pairwise_singleton _ _) n

/-- The removed cost is overlooked. -/
theorem changeDetection_removeCost :
    ChangesExact (emptyKeyed 1) (emptyKeyed 1) ∧
        (SkipsWrite ⟨"[runtime]\n", [], true⟩ ↔ infiniteCost = noCost) ↔
      NoEmptyKeyLost (emptyKeyed 1) (emptyKeyed 1) ∧
        (agentConfig.schema.Blurred infiniteCost noCost → infiniteCost = noCost) :=
  changeDetection_iff (isOrdered_emptyKeyed 1) (isOrdered_emptyKeyed 1) mem_cons_self
    preparePatch_removeCost existingConfig_removeCost fromStr_removeCost rfl rfl

/-- A change below an empty key is reported where there is none, and an infinite cost that is
removed is not. -/
theorem changeDetection_lost :
    ¬ChangesExact (emptyKeyed 1) (emptyKeyed 2) ∧
      ∃ prepared document, preparePatch costToml agentConfig (fun _ => .ok ()) "agent.toml"
          (some (.ok "runtime.max_cost = inf\n")) removeCost = .ok prepared ∧
        existingConfig costToml agentConfig "agent.toml"
          (some (.ok "runtime.max_cost = inf\n")) = some (document, infiniteCost) ∧
        costToml.fromStr agentConfig.schema prepared.rendered_toml = .ok noCost ∧
        SkipsWrite prepared ∧ infiniteCost ≠ noCost := by
  constructor
  · intro hexact
    have hdots : ∀ n, (emptyKeyed n).IsDotFree :=
      keysHold_emptyKeyed (by simp) (by simp)
    have hmem : "a" ∈ computeChangedFields (emptyKeyed 1) (emptyKeyed 2) := by
      rw [mem_computeChangedFields]
      decide +kernel
    exact hexact.leads (hdots 1) (hdots 2) "a" hmem (by decide +kernel)
  · exact ⟨_, _, preparePatch_removeCost, existingConfig_removeCost, fromStr_removeCost,
      skipsWrite_iff.mpr rfl, infiniteCost_ne⟩

end Oxydra
