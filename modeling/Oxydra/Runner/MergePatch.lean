import Oxydra.Runner.ChangedFields
import Oxydra.Runner.ConfigFrame

/-!
# The merge patch and RFC 7396

`apply_json_merge_patch` (`crates/runner/src/web/config_write.rs`) walks over a patch and changes
the tables of a document. Seen as JSON, the document becomes what RFC 7396 says, with the patch
without the members that are the sentinel. A patch does not reach into arrays, it replaces them; so
the sentinel means nothing in an array, and an object in one is written as it stands.
-/

namespace Oxydra

open Except List Toml Effect
open Value (KeysHold)

variable {key : String} {t : Table} {v : Value}

/-! ## RFC 7396 -/

mutual

/-- `MergePatch` of RFC 7396, of a patch and a target. -/
def mergePatch : Value → Value → Value
  | .object patch, .object target => .object (mergeFields patch target)
  | .object patch, _ => .object (mergeFields patch [])
  | patch, _ => patch

/-- Its loop over the members of the patch. -/
def mergeFields : List (String × Value) → List (String × Value) → List (String × Value)
  | [], target => target
  | (name, .null) :: patch, target => mergeFields patch (Fields.remove name target)
  | (name, value) :: patch, target =>
    mergeFields patch
      (Fields.insert name (mergePatch value ((target.lookup name).getD .null)) target)

end

mutual

/-- A patch without the members that are the sentinel, in arrays also or only outside of them. -/
def withoutSentinel (in_arrays : Bool) (sentinel : String) : Value → Value
  | .object fields => .object (withoutSentinelFields in_arrays sentinel fields)
  | .array items =>
    .array (if in_arrays then withoutSentinelItems in_arrays sentinel items else items)
  | v => v

def withoutSentinelItems (in_arrays : Bool) (sentinel : String) : List Value → List Value
  | [] => []
  | item :: items =>
    withoutSentinel in_arrays sentinel item :: withoutSentinelItems in_arrays sentinel items

def withoutSentinelFields (in_arrays : Bool) (sentinel : String) :
    List (String × Value) → List (String × Value)
  | [] => []
  | (name, v) :: fields =>
    if v = .string sentinel then withoutSentinelFields in_arrays sentinel fields
    else (name, withoutSentinel in_arrays sentinel v) ::
      withoutSentinelFields in_arrays sentinel fields

end

/-! ## Documents as JSON -/

/-- What stands for an item that JSON has no counterpart of, a date or a special float. -/
structure ForeignItems where
  value : Item → Value
  no_object : ∀ item fields, value item ≠ .object fields

mutual

/-- An item as JSON. -/
def jsonView (foreign : ForeignItems) : Item → Value
  | .string s => .string s
  | .integer n => .number (.integer n)
  | .float x => .number (.float x)
  | .boolean b => .bool b
  | .array items => .array (jsonViewItems foreign items)
  | .table fields => .object (jsonViewFields foreign fields)
  | item => foreign.value item

def jsonViewItems (foreign : ForeignItems) : List Item → List Value
  | [] => []
  | item :: items => jsonView foreign item :: jsonViewItems foreign items

def jsonViewFields (foreign : ForeignItems) : Table → List (String × Value)
  | [] => []
  | (key, item) :: fields => (key, jsonView foreign item) :: jsonViewFields foreign fields

end

variable {foreign : ForeignItems} {sentinel : String}

/-- Field by field. -/
theorem jsonViewFields_eq_map (t : Table) :
    jsonViewFields foreign t = t.map fun field => (field.1, jsonView foreign field.2) := by
  induction t with
  | nil => rfl
  | cons field t ih => rw [jsonViewFields, ih, map_cons]

/-- What is inserted. -/
theorem jsonViewFields_insert (key : String) (item : Item) (t : Table) :
    jsonViewFields foreign (Fields.insert key item t) =
      Fields.insert key (jsonView foreign item) (jsonViewFields foreign t) := by
  rw [jsonViewFields_eq_map, jsonViewFields_eq_map, Fields.insert_map_snd]

/-- What is removed. -/
theorem jsonViewFields_remove (key : String) (t : Table) :
    jsonViewFields foreign (Fields.remove key t) =
      Fields.remove key (jsonViewFields foreign t) := by
  rw [jsonViewFields_eq_map, jsonViewFields_eq_map, Fields.remove_map_snd]

/-- What is looked up. -/
theorem lookup_jsonViewFields (key : String) (t : Table) :
    (jsonViewFields foreign t).lookup key = (t.lookup key).map (jsonView foreign) := by
  rw [jsonViewFields_eq_map, Fields.lookup_map_snd]

mutual

/-- A value that is written is viewed as itself. -/
theorem jsonView_jsonToTomlValue {v : Value} {item : Item} (hv : v.IsOrdered)
    (h : jsonToTomlValue v = .ok item) : jsonView foreign item = v := by
  match v with
  | .null => exact nomatch h
  | .bool value =>
    cases h
    rfl
  | .number (.integer value) =>
    rw [jsonToTomlValue] at h
    split_ifs at h
    cases h
    rfl
  | .number (.float value) =>
    cases h
    rfl
  | .string value =>
    cases h
    rfl
  | .array elements =>
    rw [jsonToTomlValue] at h
    obtain ⟨items, hitems, h⟩ := except_bind_eq_ok.mp h
    cases h
    rw [jsonView, jsonViewItems_jsonToTomlElements hv.of_array hitems]
  | .object fields =>
    rw [jsonToTomlValue] at h
    obtain ⟨t, ht, h⟩ := except_bind_eq_ok.mp h
    cases h
    obtain ⟨hkeys, hfields⟩ := hv.of_object
    rw [jsonView, jsonViewFields_jsonToTomlFields hkeys hfields ht]

/-- Elements come back. -/
theorem jsonViewItems_jsonToTomlElements {elements : List Value} {items : List Item}
    (helements : ∀ element ∈ elements, element.IsOrdered)
    (h : jsonToTomlElements elements = .ok items) : jsonViewItems foreign items = elements := by
  match elements with
  | [] =>
    cases h
    rfl
  | element :: elements =>
    rw [jsonToTomlElements] at h
    obtain ⟨item, hitem, h⟩ := except_bind_eq_ok.mp h
    obtain ⟨rest, hrest, h⟩ := except_bind_eq_ok.mp h
    cases h
    obtain ⟨hfirst, hothers⟩ := forall_mem_cons.mp helements
    rw [jsonViewItems, jsonView_jsonToTomlValue hfirst hitem,
      jsonViewItems_jsonToTomlElements hothers hrest]

/-- Fields come back. -/
theorem jsonViewFields_jsonToTomlFields {fields : List (String × Value)} {t : Table}
    (hkeys : (Fields.keys fields).Pairwise (· < ·))
    (hfields : ∀ field ∈ fields, field.2.IsOrdered)
    (h : jsonToTomlFields fields = .ok t) : jsonViewFields foreign t = fields := by
  match fields with
  | [] =>
    cases h
    rfl
  | (key, v) :: fields =>
    rw [jsonToTomlFields] at h
    obtain ⟨item, hitem, h⟩ := except_bind_eq_ok.mp h
    obtain ⟨rest, hrest, h⟩ := except_bind_eq_ok.mp h
    cases h
    obtain ⟨hfirst, hothers⟩ := forall_mem_cons.mp hfields
    obtain ⟨hmin, hkeys⟩ := pairwise_cons.mp hkeys
    rw [jsonViewFields_insert, jsonView_jsonToTomlValue hfirst hitem,
      jsonViewFields_jsonToTomlFields hkeys hothers hrest, Fields.insert_of_lt hmin]

end

/-! ## The patched document -/

/-- What a member of a patch makes of a target. -/
theorem mergeFields_cons (name : String) (value : Value) (patch target : List (String × Value)) :
    mergeFields ((name, value) :: patch) target = mergeFields patch
      (if value = .null then Fields.remove name target
        else Fields.insert name (mergePatch value ((target.lookup name).getD .null)) target) := by
  cases value <;> rfl

/-- One field after the other. -/
theorem mergeFields_append (patch patch' target : List (String × Value)) :
    mergeFields (patch ++ patch') target = mergeFields patch' (mergeFields patch target) := by
  induction patch generalizing target with
  | nil => rfl
  | cons field patch ih => rw [cons_append, mergeFields_cons, mergeFields_cons, ih]

/-- The first field. -/
theorem withoutSentinelFields_cons (in_arrays : Bool) (name : String) (v : Value)
    (fields : List (String × Value)) :
    withoutSentinelFields in_arrays sentinel ((name, v) :: fields) =
      (if v = .string sentinel then [] else [(name, withoutSentinel in_arrays sentinel v)]) ++
        withoutSentinelFields in_arrays sentinel fields := by
  rw [withoutSentinelFields]
  split_ifs <;> rfl

/-- No object is merged as an empty one. -/
theorem mergePatch_of_not_object {target : Value} (h : ∀ fields, target ≠ .object fields)
    (patch : List (String × Value)) :
    mergePatch (.object patch) target = .object (mergeFields patch []) := by
  cases target with
  | object fields => exact absurd rfl (h fields)
  | _ => rfl

/-- A nested patch is merged into the table of a key, or into a new one. -/
theorem mergePatch_object (patch : List (String × Value)) (item : Option Item) :
    mergePatch (.object patch) ((item.map (jsonView foreign)).getD .null) =
      .object (mergeFields patch (jsonViewFields foreign (nestedTable item))) := by
  cases item with
  | none => rfl
  | some item =>
    cases item with
    | special text => exact mergePatch_of_not_object (foreign.no_object _) patch
    | datetime text => exact mergePatch_of_not_object (foreign.no_object _) patch
    | _ => rfl

/-- A member that is written as it stands replaces what was there. -/
theorem jsonViewFields_replaced {key : String} {v : Value} {t t' : Table} (hv : v.IsOrdered)
    (hnull : v ≠ .null) (hobject : ∀ fields, v ≠ .object fields) (hsentinel : v ≠ .string sentinel)
    (h : (do return Fields.insert key (← jsonToTomlValue v) t) = Except.ok t') :
    jsonViewFields foreign t' =
      mergeFields (withoutSentinelFields false sentinel [(key, v)]) (jsonViewFields foreign t) := by
  obtain ⟨item, hitem, h⟩ := except_bind_eq_ok.mp h
  cases h
  have hsame : withoutSentinel false sentinel v = v := by
    cases v with
    | object fields => exact absurd rfl (hobject fields)
    | _ => rfl
  have hmerge : ∀ target, mergePatch v target = v := by
    intro target
    cases v with
    | object fields => exact absurd rfl (hobject fields)
    | _ => rfl
  rw [withoutSentinelFields_cons, if_neg hsentinel, hsame, withoutSentinelFields, append_nil,
    mergeFields_cons, if_neg hnull, hmerge, mergeFields, jsonViewFields_insert,
    jsonView_jsonToTomlValue hv hitem]

mutual

/-- A step of the loop, seen as JSON. -/
theorem jsonViewFields_applyPatchValue {key : String} {v : Value} {t t' : Table}
    (hv : v.IsOrdered) (h : applyPatchValue sentinel key v t = .ok t') :
    jsonViewFields foreign t' =
      mergeFields (withoutSentinelFields false sentinel [(key, v)]) (jsonViewFields foreign t) := by
  match v with
  | .null =>
    rw [applyPatchValue] at h
    cases h
    exact jsonViewFields_remove key t
  | .object nested =>
    rw [applyPatchValue] at h
    obtain ⟨nested_table, hnested, h⟩ := except_bind_eq_ok.mp h
    cases h
    rw [withoutSentinelFields_cons, if_neg nofun, withoutSentinel, withoutSentinelFields,
      append_nil, mergeFields_cons, if_neg nofun, lookup_jsonViewFields, mergePatch_object,
      mergeFields, jsonViewFields_insert, jsonView,
      jsonViewFields_applyPatchToTable hv.of_object.2 hnested]
  | .string value =>
    rw [applyPatchValue] at h
    split_ifs at h with hsentinel
    · cases h
      rw [withoutSentinelFields_cons, if_pos (congrArg Value.string hsentinel)]
      rfl
    · exact jsonViewFields_replaced hv nofun nofun (fun heq => hsentinel (Value.string.inj heq)) h
  | .bool value => exact jsonViewFields_replaced hv nofun nofun nofun h
  | .number number => exact jsonViewFields_replaced hv nofun nofun nofun h
  | .array elements => exact jsonViewFields_replaced hv nofun nofun nofun h

/-- The whole loop, seen as JSON. -/
theorem jsonViewFields_applyPatchToTable {patch_obj : List (String × Value)} {t t' : Table}
    (hpatch : ∀ field ∈ patch_obj, field.2.IsOrdered)
    (h : applyPatchToTable sentinel patch_obj t = .ok t') :
    jsonViewFields foreign t' =
      mergeFields (withoutSentinelFields false sentinel patch_obj) (jsonViewFields foreign t) := by
  match patch_obj with
  | [] =>
    rw [applyPatchToTable] at h
    cases h
    rfl
  | (key, v) :: patch_obj =>
    rw [applyPatchToTable] at h
    obtain ⟨t₁, hstep, h⟩ := except_bind_eq_ok.mp h
    obtain ⟨hfirst, hrest⟩ := forall_mem_cons.mp hpatch
    have hone := jsonViewFields_applyPatchValue hfirst hstep
    rw [withoutSentinelFields_cons, withoutSentinelFields, append_nil] at hone
    rw [withoutSentinelFields_cons, mergeFields_append, ← hone,
      jsonViewFields_applyPatchToTable hrest h]

end

/-! ## The same patch again -/

/-- The tables of a document have their keys in order. -/
inductive OrderedItem : Item → Prop
  | table {t : Table} : (Fields.keys t).Pairwise (· < ·) → (∀ field ∈ t, OrderedItem field.2) →
    OrderedItem (.table t)
  | other {item : Item} : (∀ t, item ≠ .table t) → OrderedItem item

/-- A member of the patch asks for nothing more of the item under its key. -/
def Settled (sentinel : String) : Value → Option Item → Prop
  | .null, item => item = none
  | .object nested, item =>
    ∃ t, item = some (.table t) ∧ applyPatchToTable sentinel nested t = .ok t
  | v, item => v = .string sentinel ∨ ∃ item', jsonToTomlValue v = .ok item' ∧ item = some item'

/-- Then its step changes nothing. -/
theorem applyPatchValue_settled (ht : (Fields.keys t).Pairwise (· < ·))
    (h : Settled sentinel v (t.lookup key)) :
    applyPatchValue sentinel key v t = .ok t := by
  have hwrite : ∀ {item' : Item}, jsonToTomlValue v = .ok item' → t.lookup key = some item' →
      (do return Fields.insert key (← jsonToTomlValue v) t) = Except.ok (ε := String) t := by
    intro item' hitem hlookup
    rw [hitem]
    exact congrArg Except.ok (Fields.insert_of_lookup ht hlookup)
  cases v with
  | null =>
    have hnot : key ∉ Fields.keys t := by
      rw [← Fields.isSome_lookup, show t.lookup key = none from h]
      exact Bool.false_ne_true
    exact congrArg Except.ok (Fields.remove_of_not_mem hnot)
  | object nested =>
    obtain ⟨nested_table, hlookup, hnested⟩ := h
    rw [applyPatchValue, hlookup, nestedTable, hnested]
    exact congrArg Except.ok (Fields.insert_of_lookup ht hlookup)
  | string value =>
    rw [applyPatchValue]
    split_ifs with hsentinel
    · rfl
    · obtain heq | ⟨item', hitem, hlookup⟩ := h
      · exact absurd (Value.string.inj heq) hsentinel
      · exact hwrite hitem hlookup
  | _ =>
    obtain heq | ⟨item', hitem, hlookup⟩ := h
    · exact nomatch heq
    · exact hwrite hitem hlookup

/-- A settled patch changes nothing. -/
theorem applyPatchToTable_settled {patch_obj : List (String × Value)}
    (ht : (Fields.keys t).Pairwise (· < ·))
    (h : ∀ field ∈ patch_obj, Settled sentinel field.2 (t.lookup field.1)) :
    applyPatchToTable sentinel patch_obj t = .ok t := by
  induction patch_obj with
  | nil => rw [applyPatchToTable]
  | cons field patch_obj ih =>
    obtain ⟨key, v⟩ := field
    obtain ⟨hfirst, hrest⟩ := forall_mem_cons.mp h
    rw [applyPatchToTable, applyPatchValue_settled ht hfirst]
    exact ih hrest

/-- The keys are in order. -/
theorem OrderedItem.keys (h : OrderedItem (.table t)) :
    (Fields.keys t).Pairwise (· < ·) ∧ ∀ field ∈ t, OrderedItem field.2 := by
  cases h with
  | table hkeys hfields => exact ⟨hkeys, hfields⟩
  | other hother => exact absurd rfl (hother t)

/-- An ordered item is inserted. -/
theorem OrderedItem.insert {item : Item} (h : OrderedItem (.table t)) (hitem : OrderedItem item) :
    OrderedItem (.table (Fields.insert key item t)) := by
  obtain ⟨hkeys, hfields⟩ := h.keys
  refine .table (Fields.pairwise_insert hkeys) fun field hfield => ?_
  obtain rfl | hfield := Fields.mem_insert hfield
  · exact hitem
  · exact hfields field hfield

/-- A key is removed. -/
theorem OrderedItem.remove (h : OrderedItem (.table t)) (key : String) :
    OrderedItem (.table (Fields.remove key t)) := by
  obtain ⟨hkeys, hfields⟩ := h.keys
  exact .table (Fields.pairwise_remove hkeys) fun field hfield =>
    hfields field (mem_of_mem_filter hfield)

/-- A nested table. -/
theorem OrderedItem.nested (h : OrderedItem (.table t)) :
    OrderedItem (.table (nestedTable (t.lookup key))) := by
  have hempty : OrderedItem (.table []) :=
    .table .nil fun field hfield => absurd hfield not_mem_nil
  cases hitem : t.lookup key with
  | none => exact hempty
  | some item =>
    cases item with
    | table nested => exact h.keys.2 _ (Fields.mem_of_lookup hitem)
    | _ => exact hempty

/-- After a member is written as it stands, it is settled. -/
theorem settled_replaced {t t' : Table} (ht : OrderedItem (.table t))
    (h : (do return Fields.insert key (← jsonToTomlValue v) t) = Except.ok t')
    (hobject : ∀ fields, v ≠ .object fields) :
    (∃ item', jsonToTomlValue v = .ok item' ∧ t'.lookup key = some item') ∧
      OrderedItem (.table t') := by
  obtain ⟨item, hitem, h⟩ := except_bind_eq_ok.mp h
  cases h
  refine ⟨⟨item, hitem, by rw [Fields.lookup_insert, if_pos rfl]⟩, ht.insert (.other ?_)⟩
  rintro nested rfl
  cases v with
  | object fields => exact hobject fields rfl
  | array elements =>
    rw [jsonToTomlValue] at hitem
    obtain ⟨items, -, heq⟩ := except_bind_eq_ok.mp hitem
    exact nomatch heq
  | number number =>
    cases number with
    | integer value =>
      rw [jsonToTomlValue] at hitem
      split_ifs at hitem
      exact nomatch hitem
    | float value => exact nomatch hitem
  | _ => exact nomatch hitem

mutual

/-- The step of a member settles it. -/
theorem settled_applyPatchValue {key : String} {v : Value} {t t' : Table}
    (hv : v.IsOrdered) (ht : OrderedItem (.table t))
    (h : applyPatchValue sentinel key v t = .ok t') :
    Settled sentinel v (t'.lookup key) ∧ OrderedItem (.table t') := by
  match v with
  | .null =>
    rw [applyPatchValue] at h
    cases h
    exact ⟨Fields.lookup_remove_self key t, ht.remove key⟩
  | .object nested =>
    rw [applyPatchValue] at h
    obtain ⟨nested_table, hnested, h⟩ := except_bind_eq_ok.mp h
    cases h
    obtain ⟨hkeys, hfields⟩ := hv.of_object
    obtain ⟨hsettled, hordered⟩ := settled_applyPatchToTable hkeys hfields ht.nested hnested
    refine ⟨⟨nested_table, ?_, applyPatchToTable_settled hordered.keys.1 hsettled⟩,
      ht.insert hordered⟩
    rw [Fields.lookup_insert, if_pos rfl]
  | .string value =>
    rw [applyPatchValue] at h
    split_ifs at h with hsentinel
    · cases h
      exact ⟨.inl (congrArg Value.string hsentinel), ht⟩
    · exact (settled_replaced ht h nofun).imp_left .inr
  | .bool value => exact (settled_replaced ht h nofun).imp_left .inr
  | .number number => exact (settled_replaced ht h nofun).imp_left .inr
  | .array elements => exact (settled_replaced ht h nofun).imp_left .inr

/-- The loop settles all members. -/
theorem settled_applyPatchToTable {patch_obj : List (String × Value)} {t t' : Table}
    (hkeys : (Fields.keys patch_obj).Pairwise (· < ·))
    (hpatch : ∀ field ∈ patch_obj, field.2.IsOrdered) (ht : OrderedItem (.table t))
    (h : applyPatchToTable sentinel patch_obj t = .ok t') :
    (∀ field ∈ patch_obj, Settled sentinel field.2 (t'.lookup field.1)) ∧
      OrderedItem (.table t') := by
  match patch_obj with
  | [] =>
    rw [applyPatchToTable] at h
    cases h
    exact ⟨fun field hfield => absurd hfield not_mem_nil, ht⟩
  | (key, v) :: patch_obj =>
    rw [applyPatchToTable] at h
    obtain ⟨t₁, hstep, h⟩ := except_bind_eq_ok.mp h
    obtain ⟨hfirst, hrest⟩ := forall_mem_cons.mp hpatch
    obtain ⟨hmin, hkeys⟩ := pairwise_cons.mp hkeys
    obtain ⟨hsettled, hordered⟩ := settled_applyPatchValue hfirst ht hstep
    obtain ⟨hothers, hordered'⟩ := settled_applyPatchToTable hkeys hrest hordered h
    refine ⟨forall_mem_cons.mpr ⟨?_, hothers⟩, hordered'⟩
    have hnot : key ∉ Fields.keys patch_obj := fun hmem => lt_irrefl key (hmin key hmem)
    rwa [lookup_applyPatchToTable h (Fields.lookup_eq_none hnot)]

end

/-! ## The patch -/

/-- A patch that succeeds leaves the document that RFC 7396 says, without the members that are the
sentinel, and changes it no further when it is applied again. -/
theorem applyJsonMergePatch_merges {document patched : Table} {patch : Value}
    (hdocument : OrderedItem (.table document)) (hpatch : patch.IsOrdered)
    (h : applyJsonMergePatch document patch sentinel = .ok patched) :
    jsonView foreign (.table patched) =
        mergePatch (withoutSentinel false sentinel patch) (jsonView foreign (.table document)) ∧
      applyJsonMergePatch patched patch sentinel = .ok patched := by
  cases patch with
  | object patch_obj =>
    obtain ⟨hkeys, hfields⟩ := hpatch.of_object
    obtain ⟨hsettled, hordered⟩ := settled_applyPatchToTable hkeys hfields hdocument h
    refine ⟨?_, applyPatchToTable_settled hordered.keys.1 hsettled⟩
    exact congrArg Value.object (jsonViewFields_applyPatchToTable hfields h)
  | _ => exact nomatch h

/-- A view in which foreign items are lost. -/
def plainView : ForeignItems := ⟨fun _ => .null, nofun⟩

/-- A token that stays, and a tier that is new. -/
def webPatch : Value :=
  .object [("default_tier", .string "process"),
    ("web", .object [("auth_token", .string secretSentinel), ("enabled", .bool true)])]

def webDocument : Table := [("web", .table [("auth_token", .string "super-secret")])]

def webPatched : Table :=
  [("default_tier", .string "process"),
    ("web", .table [("auth_token", .string "super-secret"), ("enabled", .boolean true)])]

/-- The web patch, once and again. -/
theorem applyJsonMergePatch_webPatch :
    jsonView plainView (.table webPatched) =
        mergePatch (withoutSentinel false secretSentinel webPatch)
          (jsonView plainView (.table webDocument)) ∧
      applyJsonMergePatch webPatched webPatch secretSentinel = .ok webPatched := by
  have hdocument : OrderedItem (.table webDocument) := by
    refine .table (pairwise_singleton _ _) fun field hfield => ?_
    obtain rfl := mem_singleton.mp hfield
    refine .table (pairwise_singleton _ _) fun field hfield => ?_
    obtain rfl := mem_singleton.mp hfield
    exact .other nofun
  have hpatch : webPatch.IsOrdered := by
    refine .object (by decide) fun field hfield => ?_
    obtain rfl | hfield := mem_cons.mp hfield
    · exact .leaf rfl nofun
    · obtain rfl := mem_singleton.mp hfield
      refine .object (by decide) fun field hfield => ?_
      obtain rfl | hfield := mem_cons.mp hfield
      · exact .leaf rfl nofun
      · obtain rfl := mem_singleton.mp hfield
        exact .leaf rfl nofun
  exact applyJsonMergePatch_merges hdocument hpatch rfl

/-- The sentinel in an object of an array. -/
def sendersPatch : Value :=
  .object [("senders", .array [.object [("display_name", .string secretSentinel)]])]

/-- It is written. -/
theorem applyJsonMergePatch_sendersPatch :
    ∃ patched, applyJsonMergePatch [] sendersPatch secretSentinel = .ok patched ∧
      jsonView plainView (.table patched) ≠
        mergePatch (withoutSentinel true secretSentinel sendersPatch)
          (jsonView plainView (.table [])) :=
  ⟨_, rfl, by decide +kernel⟩

end Oxydra
