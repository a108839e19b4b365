import Oxydra.Library.TomlSchema

/-!
# Tables as lines

A document is printed as the key lines of its root and sections below them, each with a header line
and key lines; a string or an array may take several lines. `Layout.Describes` says of which table a
layout is: every section has the keys of the table at its path that are no tables themselves, and a
table without a section has only tables in it. The order of the sections and of the keys is left
open, and so are the blank lines.

`layoutOf` is a layout of a table. A table without tables in it is replaced where its section is
(`Layout.Describes.replace`), whichever place the new one has.
-/

namespace Toml

open Option List

/-- How headers and keys are printed, the keys on one line or on more. -/
structure LineFormat where
  header : List String → List Char
  keyLines : String × Item → List (List Char)

/-- The keys below a header, which stands below blank lines. -/
structure Section where
  gap : ℕ
  path : List String
  keys : Table

/-- The keys of the root, and the sections. -/
structure Layout where
  root : Table
  sections : List Section

/-- The lines that keys are printed on. -/
def LineFormat.lines (f : LineFormat) (keys : Table) : List (List Char) := keys.flatMap f.keyLines

def Section.lines (f : LineFormat) (s : Section) : List (List Char) :=
  List.replicate s.gap [] ++ f.header s.path :: f.lines s.keys

def Layout.lines (f : LineFormat) (L : Layout) : List (List Char) :=
  f.lines L.root ++ L.sections.flatMap (Section.lines f)

/-- Lines as a text. -/
def textOfLines (lines : List (List Char)) : String :=
  String.ofList (lines.flatMap (· ++ ['\n']))

def Layout.text (f : LineFormat) (L : Layout) : String := textOfLines (L.lines f)

/-- The item is a table. -/
def Item.isTable : Item → Bool
  | .table _ => true
  | _ => false

/-- The keys of a table that are no tables, in any order. -/
structure OwnKeys (keys t : Table) : Prop where
  nodup : (Fields.keys keys).Nodup
  mem_iff : ∀ key item, (key, item) ∈ keys ↔ t.lookup key = some item ∧ item.isTable = false

/-- The paths of the headers. -/
def Layout.paths (L : Layout) : List (List String) := L.sections.map Section.path

/-- The layout is one of the table. -/
structure Layout.Describes (L : Layout) (t : Table) : Prop where
  root : OwnKeys L.root t
  nodup : L.paths.Nodup
  sections : ∀ s ∈ L.sections, s.path ≠ [] ∧ ∃ u, tableAt s.path t = some u ∧ OwnKeys s.keys u
  /-- A table without a header is there for the tables in it. -/
  complete : ∀ path u, path ≠ [] → tableAt path t = some u → path ∉ L.paths →
    u ≠ [] ∧ ∀ field ∈ u, field.2.isTable = true

/-- The order of the keys is free. -/
theorem OwnKeys.perm {keys keys' t : Table} (h : OwnKeys keys t) (hperm : keys'.Perm keys) :
    OwnKeys keys' t where
  nodup := (hperm.map Prod.fst).nodup_iff.mpr h.nodup
  mem_iff key item := hperm.mem_iff.trans (h.mem_iff key item)

/-- Neither the order of the sections nor that of the keys matters. -/
theorem Layout.Describes.reorder {L L' : Layout} {t : Table} (h : L.Describes t)
    (hroot : L'.root.Perm L.root) (hpaths : L'.paths.Perm L.paths)
    (hsections : ∀ s' ∈ L'.sections, ∃ s ∈ L.sections, s.path = s'.path ∧ s'.keys.Perm s.keys) :
    L'.Describes t where
  root := h.root.perm hroot
  nodup := hpaths.nodup_iff.mpr h.nodup
  sections s' hs' := by
    obtain ⟨s, hs, hpath, hperm⟩ := hsections s' hs'
    obtain ⟨hne, u, hu, hkeys⟩ := h.sections s hs
    exact ⟨hpath ▸ hne, u, hpath ▸ hu, hkeys.perm hperm⟩
  complete path u hne hu hnot := h.complete path u hne hu (mt hpaths.mem_iff.mpr hnot)

/-! ## A layout of a table -/

/-- The tables of a document have different keys. -/
def DistinctBelow (t : Table) : Prop :=
  ∀ path u, tableAt path t = some u → (Fields.keys u).Nodup

/-- The keys that are no tables. -/
def ownKeys (t : Table) : Table := t.filter fun field => !field.2.isTable

/-- The table has a header: it is empty, or has keys that are no tables. -/
def headed (t : Table) : Bool := t.isEmpty || !(ownKeys t).isEmpty

mutual

/-- The sections of an item at a path. -/
def itemSections (path : List String) : Item → List Section
  | .table t => (if headed t then [⟨1, path, ownKeys t⟩] else []) ++ fieldSections path t
  | _ => []

/-- The sections of the tables in a table. -/
def fieldSections (path : List String) : Table → List Section
  | [] => []
  | (key, item) :: t => itemSections (path ++ [key]) item ++ fieldSections path t

end

/-- The tables one after the other, each below a blank line. -/
def layoutOf (t : Table) : Layout := ⟨ownKeys t, fieldSections [] t⟩

/-- No key is there twice. -/
theorem DistinctBelow.keys {t : Table} (h : DistinctBelow t) : (Fields.keys t).Nodup := h [] t rfl

/-- A path goes down by its first key. -/
theorem tableAt_cons {key : String} {t u : Table} (h : t.lookup key = some (.table u))
    (path : List String) : tableAt (key :: path) t = tableAt path u := by
  rw [tableAt, h]

/-- A path that leads to a table. -/
theorem tableAt_cons_eq_some {key : String} {path : List String} {t u : Table}
    (h : tableAt (key :: path) t = some u) :
    ∃ nested, t.lookup key = some (.table nested) ∧ tableAt path nested = some u := by
  rw [tableAt] at h
  split at h
  · exact ⟨_, ‹_›, h⟩
  · cases h

/-- So it is below a key. -/
theorem DistinctBelow.nested {t u : Table} {key : String} (h : DistinctBelow t)
    (hu : t.lookup key = some (.table u)) : DistinctBelow u :=
  fun path v hv => h (key :: path) v ((tableAt_cons hu path).trans hv)

/-- The keys that `ownKeys` takes. -/
theorem ownKeys_ownKeys {t : Table} (h : (Fields.keys t).Nodup) : OwnKeys (ownKeys t) t where
  nodup := h.sublist (List.Sublist.map _ filter_sublist)
  mem_iff key item := by
    rw [ownKeys, mem_filter, Bool.not_eq_true']
    exact and_congr_left fun _ => ⟨Fields.lookup_of_mem h, Fields.mem_of_lookup⟩

/-- The sections of fields. -/
theorem mem_fieldSections {path : List String} {t : Table} {s : Section} :
    s ∈ fieldSections path t ↔ ∃ field ∈ t, s ∈ itemSections (path ++ [field.1]) field.2 := by
  induction t with
  | nil => simp [fieldSections]
  | cons field t ih =>
    obtain ⟨key, item⟩ := field
    rw [fieldSections, mem_append, ih]
    simp

/-- The sections of an item are those of the tables that are reached from it. -/
theorem mem_itemSections (path : List String) (t : Table) (h : DistinctBelow t) {s : Section} :
    s ∈ itemSections path (.table t) ↔ ∃ rest u, tableAt rest t = some u ∧ headed u = true ∧
      s = ⟨1, path ++ rest, ownKeys u⟩ := by
  have hnested : ∀ field ∈ t, s ∈ itemSections (path ++ [field.1]) field.2 ↔
      ∃ rest u, tableAt (field.1 :: rest) t = some u ∧ headed u = true ∧
        s = ⟨1, path ++ field.1 :: rest, ownKeys u⟩ := by
    intro field hfield
    obtain ⟨key, item⟩ := field
    have hlookup := Fields.lookup_of_mem h.keys hfield
    cases item with
    | table nested =>
      have hsize : sizeOf nested < sizeOf t := by
        have hlt := sizeOf_lt_of_mem hfield
        simp only [Prod.mk.sizeOf_spec, Item.table.sizeOf_spec] at hlt
        omega
      rw [mem_itemSections _ nested (h.nested hlookup)]
      simp [tableAt_cons hlookup]
    | _ => simp [itemSections, tableAt, hlookup]
  rw [itemSections, mem_append, mem_fieldSections]
  constructor
  · rintro (hhead | ⟨field, hfield, hs⟩)
    · split_ifs at hhead with hheaded
      · obtain rfl := mem_singleton.mp hhead
        exact ⟨[], t, rfl, hheaded, by rw [append_nil]⟩
      · cases hhead
    · obtain ⟨rest, u, hu, hrest⟩ := (hnested field hfield).mp hs
      exact ⟨field.1 :: rest, u, hu, hrest⟩
  · rintro ⟨rest, u, hu, hheaded, rfl⟩
    cases rest with
    | nil =>
      cases hu
      rw [if_pos hheaded, append_nil]
      exact .inl (mem_singleton.mpr rfl)
    | cons key rest =>
      obtain ⟨nested, hlookup, -⟩ := tableAt_cons_eq_some hu
      have hfield := Fields.mem_of_lookup hlookup
      exact .inr ⟨_, hfield, (hnested _ hfield).mpr ⟨rest, u, hu, hheaded, rfl⟩⟩
termination_by sizeOf t

/-- A section for each headed table below. -/
theorem mem_fieldSections_iff {t : Table} (h : DistinctBelow t) (path : List String) {s : Section} :
    s ∈ fieldSections path t ↔ ∃ rest u, rest ≠ [] ∧ tableAt rest t = some u ∧ headed u = true ∧
      s = ⟨1, path ++ rest, ownKeys u⟩ := by
  rw [mem_fieldSections]
  constructor
  · rintro ⟨⟨key, item⟩, hfield, hs⟩
    have hlookup := Fields.lookup_of_mem h.keys hfield
    cases item with
    | table nested =>
      obtain ⟨rest, u, hu, hheaded, rfl⟩ := (mem_itemSections _ nested (h.nested hlookup)).mp hs
      refine ⟨key :: rest, u, cons_ne_nil _ _, (tableAt_cons hlookup rest).trans hu, hheaded,
        ?_⟩
      simp
    | _ => simp [itemSections] at hs
  · rintro ⟨rest, u, hne, hu, hheaded, rfl⟩
    obtain ⟨key, rest, rfl⟩ := exists_cons_of_ne_nil hne
    obtain ⟨nested, hlookup, hnested⟩ := tableAt_cons_eq_some hu
    refine ⟨_, Fields.mem_of_lookup hlookup, ?_⟩
    refine (mem_itemSections _ nested (h.nested hlookup)).mpr ⟨rest, u, hnested, hheaded, ?_⟩
    simp

/-- Where the sections of every field have different paths below its key, so have they all. -/
theorem nodup_fieldSections_of {path : List String} {t : Table} (hkeys : (Fields.keys t).Nodup)
    (hbelow : ∀ field ∈ t, ∀ s ∈ itemSections (path ++ [field.1]) field.2,
      path ++ [field.1] <+: s.path)
    (hnodup : ∀ field ∈ t, ((itemSections (path ++ [field.1]) field.2).map Section.path).Nodup) :
    ((fieldSections path t).map Section.path).Nodup := by
  induction t with
  | nil => exact nodup_nil
  | cons field t ih =>
    obtain ⟨key, item⟩ := field
    rw [forall_mem_cons] at hbelow hnodup
    obtain ⟨hkey, hkeys⟩ := nodup_cons.mp hkeys
    rw [fieldSections, map_append, nodup_append]
    refine ⟨hnodup.1, ih hkeys hbelow.2 hnodup.2, ?_⟩
    rintro p hp q hq rfl
    obtain ⟨s, hs, rfl⟩ := mem_map.mp hp
    obtain ⟨s', hs', hpath⟩ := mem_map.mp hq
    obtain ⟨field, hfield, hs'⟩ := mem_fieldSections.mp hs'
    have hpre := hbelow.1 s hs
    have hpre' := hpath ▸ hbelow.2 field hfield s' hs'
    have heq := List.IsPrefix.eq_of_length (prefix_of_prefix_length_le hpre hpre' (by simp))
      (by simp)
    have hsame : key = field.1 := by simpa using heq
    have hmem : field.1 ∈ Fields.keys t := mem_map_of_mem hfield
    exact hkey (hsame ▸ hmem)

/-- No two sections of a table have a path in common. -/
theorem nodup_itemSections (path : List String) (t : Table) (h : DistinctBelow t) :
    ((itemSections path (.table t)).map Section.path).Nodup := by
  have hfields : ((fieldSections path t).map Section.path).Nodup := by
    refine nodup_fieldSections_of h.keys (fun field hfield s hs => ?_) fun field hfield => ?_
    all_goals
      obtain ⟨key, item⟩ := field
      have hlookup := Fields.lookup_of_mem h.keys hfield
    · cases item with
      | table nested =>
        obtain ⟨rest, u, -, -, rfl⟩ := (mem_itemSections _ nested (h.nested hlookup)).mp hs
        exact prefix_append _ _
      | _ => simp [itemSections] at hs
    · cases item with
      | table nested =>
        have hsize : sizeOf nested < sizeOf t := by
          have hlt := sizeOf_lt_of_mem hfield
          simp only [Prod.mk.sizeOf_spec, Item.table.sizeOf_spec] at hlt
          omega
        exact nodup_itemSections _ nested (h.nested hlookup)
      | _ => exact nodup_nil
  rw [itemSections, map_append, nodup_append]
  refine ⟨by split_ifs <;> simp, hfields, ?_⟩
  rintro p hp q hq rfl
  split_ifs at hp
  · obtain rfl : p = path := by simpa using hp
    obtain ⟨s, hs, hpath⟩ := mem_map.mp hq
    obtain ⟨rest, u, hne, -, -, rfl⟩ := (mem_fieldSections_iff h p).mp hs
    exact hne (append_right_eq_self.mp hpath)
  · cases hp
termination_by sizeOf t

/-- Every table has a layout. -/
theorem describes_layoutOf {t : Table} (h : DistinctBelow t) : (layoutOf t).Describes t where
  root := ownKeys_ownKeys h.keys
  nodup := by
    have hall := nodup_itemSections [] t h
    rw [itemSections, map_append] at hall
    exact hall.of_append_right
  sections s hs := by
    obtain ⟨rest, u, hne, hu, -, rfl⟩ := (mem_fieldSections_iff h []).mp hs
    exact ⟨hne, u, hu, ownKeys_ownKeys (h _ u hu)⟩
  complete path u hne hu hnot := by
    have hheaded : headed u = false := by
      by_contra htrue
      refine hnot (mem_map.mpr ⟨⟨1, path, ownKeys u⟩, ?_, rfl⟩)
      exact (mem_fieldSections_iff h []).mpr
        ⟨path, u, hne, hu, Bool.not_eq_false _ ▸ htrue, rfl⟩
    obtain ⟨hempty, hown⟩ := Bool.or_eq_false_iff.mp hheaded
    refine ⟨by simpa using hempty, fun field hfield => ?_⟩
    have hnil : ownKeys u = [] := by simpa using hown
    simpa using filter_eq_nil_iff.mp hnil field hfield

/-! ## A table that is replaced -/

/-- The table with another one at a path. -/
def putTable : List String → Table → Table → Table
  | [], s, _ => s
  | key :: path, s, t =>
    let nested := match t.lookup key with
      | some (.table u) => u
      | _ => []
    Fields.insert key (.table (putTable path s nested)) t

/-- A table is put below the first key. -/
theorem putTable_cons {key : String} {t u : Table} (h : t.lookup key = some (.table u))
    (path : List String) (s : Table) :
    putTable (key :: path) s t = Fields.insert key (.table (putTable path s u)) t := by
  rw [putTable, h]

/-- At the path there is the new table. -/
theorem tableAt_putTable (path rest : List String) (s t : Table) :
    tableAt (path ++ rest) (putTable path s t) = tableAt rest s := by
  induction path generalizing t with
  | nil => rfl
  | cons key path ih =>
    have hlookup : (putTable (key :: path) s t).lookup key = some (.table (putTable path s _)) :=
      (Fields.lookup_insert key key _ t).trans (if_pos rfl)
    rw [cons_append, tableAt_cons hlookup, ih]

/-- The table has nothing but tables under a key, if there is anything. -/
def TableUnder (key : String) (t : Table) : Prop :=
  ∀ item, t.lookup key = some item → item.isTable = true

/-- Elsewhere the tables stay, but for the next one on the way. -/
theorem tableAt_putTable_of_not_prefix {front : List String} {key : String} {s t u : Table}
    (hfront : tableAt front t = some u) (hkey : TableUnder key u) {path : List String}
    (hpath : ¬front ++ [key] <+: path) :
    tableAt path (putTable (front ++ [key]) s t) = tableAt path t ∨
      ∃ v next nested, tableAt path t = some v ∧ TableUnder next v ∧
        tableAt path (putTable (front ++ [key]) s t) =
          some (Fields.insert next (.table nested) v) := by
  induction front generalizing t path with
  | nil =>
    obtain rfl := some.inj hfront
    cases path with
    | nil => exact .inr ⟨t, key, s, rfl, hkey, rfl⟩
    | cons name path =>
      have hne : name ≠ key := fun heq => hpath (heq ▸ prefix_append [name] path)
      refine .inl ?_
      show tableAt (name :: path) (Fields.insert key (.table s) t) = _
      rw [tableAt, tableAt, Fields.lookup_insert, if_neg hne]
  | cons first front ih =>
    obtain ⟨nested, hlookup, hnested⟩ := tableAt_cons_eq_some hfront
    rw [cons_append, putTable_cons hlookup]
    cases path with
    | nil =>
      refine .inr ⟨t, first, _, rfl, fun item hitem => ?_, rfl⟩
      rw [hlookup] at hitem
      exact some.inj hitem ▸ rfl
    | cons name path =>
      by_cases hname : name = first
      · subst hname
        have hbelow : ¬front ++ [key] <+: path := fun hpre =>
          hpath (cons_prefix_cons.mpr ⟨rfl, hpre⟩)
        have hinserted : (Fields.insert name (.table (putTable (front ++ [key]) s nested)) t).lookup
            name = some (.table (putTable (front ++ [key]) s nested)) :=
          (Fields.lookup_insert name name _ t).trans (if_pos rfl)
        rw [tableAt_cons hinserted, tableAt_cons hlookup]
        exact ih hnested hbelow
      · refine .inl ?_
        rw [tableAt, tableAt, Fields.lookup_insert, if_neg hname]

/-- A table more does not change the other keys. -/
theorem OwnKeys.insert {keys t : Table} (h : OwnKeys keys t) {key : String}
    (hkey : TableUnder key t) (u : Table) : OwnKeys keys (Fields.insert key (.table u) t) where
  nodup := h.nodup
  mem_iff name item := by
    rw [h.mem_iff, Fields.lookup_insert]
    split_ifs with hname
    · subst hname
      refine iff_of_false (fun hown => ?_) (fun hown => ?_)
      · exact Bool.false_ne_true (hown.2.symm.trans (hkey item hown.1))
      · obtain ⟨heq, hnot⟩ := hown
        cases heq
        cases hnot
    · exact Iff.rfl

/-- There is no table in the table. -/
def Flat (t : Table) : Prop := ∀ key item, t.lookup key = some item → item.isTable = false

/-- A flat table has none below. -/
theorem Flat.tableAt_eq_none {t : Table} (h : Flat t) {path : List String} (hne : path ≠ []) :
    tableAt path t = none := by
  obtain ⟨key, path, rfl⟩ := exists_cons_of_ne_nil hne
  by_contra hsome
  obtain ⟨u, hu⟩ := Option.ne_none_iff_exists'.mp hsome
  obtain ⟨nested, hlookup, -⟩ := tableAt_cons_eq_some hu
  cases h key _ hlookup

/-- One path after the other. -/
theorem tableAt_append (path rest : List String) (t : Table) :
    tableAt (path ++ rest) t = (tableAt path t).bind (tableAt rest) := by
  induction path generalizing t with
  | nil => rfl
  | cons key path ih =>
    rw [cons_append]
    cases hlookup : t.lookup key with
    | none => rw [tableAt, tableAt, hlookup]; rfl
    | some item =>
      cases item with
      | table nested => rw [tableAt_cons hlookup, tableAt_cons hlookup, ih]
      | _ => rw [tableAt, tableAt, hlookup]; rfl

/-- The one layout has the sections of the other, but for the one at a path. -/
structure Layout.Replaces (L L' : Layout) (path : List String) (keys : Table) : Prop where
  root : L'.root = L.root
  nodup : L'.paths.Nodup
  mem_iff : ∀ path' keys', (∃ gap, ⟨gap, path', keys'⟩ ∈ L'.sections) ↔
    path' = path ∧ keys' = keys ∨ path' ≠ path ∧ ∃ gap, ⟨gap, path', keys'⟩ ∈ L.sections

/-- The paths of a layout. -/
theorem Layout.mem_paths {L : Layout} {path : List String} :
    path ∈ L.paths ↔ ∃ keys gap, ⟨gap, path, keys⟩ ∈ L.sections := by
  constructor
  · intro h
    obtain ⟨⟨gap, path', keys⟩, hs, rfl⟩ := mem_map.mp h
    exact ⟨keys, gap, hs⟩
  · rintro ⟨keys, gap, hs⟩
    exact mem_map.mpr ⟨_, hs, rfl⟩

/-- With its section, a table without tables in it is replaced. -/
theorem Layout.Describes.replace {L L' : Layout} {t s u keys : Table} {front : List String}
    {key : String} (h : L.Describes t) (hreplaces : L.Replaces L' (front ++ [key]) keys)
    (hfront : tableAt front t = some u) (hkey : TableUnder key u)
    (hold : ∀ v, tableAt (front ++ [key]) t = some v → Flat v) (hflat : Flat s)
    (hkeys : OwnKeys keys s) : L'.Describes (putTable (front ++ [key]) s t) := by
  have hpath : front ++ [key] ≠ [] := by simp
  have hown : ∀ (path : List String) {v keys' : Table}, ¬front ++ [key] <+: path →
      tableAt path t = some v → OwnKeys keys' v →
        ∃ v', tableAt path (putTable (front ++ [key]) s t) = some v' ∧ OwnKeys keys' v' := by
    intro path v keys' hnot hv hkeys'
    obtain heq | ⟨w, next, nested, hw, hunder, heq⟩ :=
      tableAt_putTable_of_not_prefix (s := s) hfront hkey hnot
    · exact ⟨v, heq.trans hv, hkeys'⟩
    · obtain rfl := some.inj (hv.symm.trans hw)
      exact ⟨_, heq, hkeys'.insert hunder nested⟩
  refine ⟨?_, hreplaces.nodup, fun section' hs => ?_, fun path v hne hv hnot => ?_⟩
  · obtain ⟨v', hv', hkeys'⟩ := hown [] (by simp) rfl h.root
    rw [hreplaces.root, some.inj hv']
    exact hkeys'
  · obtain ⟨gap, path, keys'⟩ := section'
    obtain ⟨rfl, rfl⟩ | ⟨hne, gap', hs'⟩ := (hreplaces.mem_iff path keys').mp ⟨gap, hs⟩
    · have hat := tableAt_putTable (front ++ [key]) [] s t
      rw [append_nil] at hat
      exact ⟨hpath, s, hat, hkeys⟩
    · obtain ⟨hpath', v, hv, hkeys'⟩ := h.sections _ hs'
      refine ⟨hpath', hown path (fun hpre => ?_) hv hkeys'⟩
      -- there is no table below the one that is replaced
      obtain ⟨rest, rfl⟩ := hpre
      have hrest : rest ≠ [] := fun hnil => hne (by rw [hnil, append_nil])
      rw [tableAt_append] at hv
      obtain ⟨w, hw, hv⟩ := Option.bind_eq_some_iff.mp hv
      cases ((hold w hw).tableAt_eq_none hrest).symm.trans hv
  · have hnotpath : path ≠ front ++ [key] := by
      rintro rfl
      exact hnot (mem_paths.mpr ⟨keys, (hreplaces.mem_iff _ _).mpr (.inl ⟨rfl, rfl⟩)⟩)
    have hnotpre : ¬front ++ [key] <+: path := by
      rintro ⟨rest, rfl⟩
      have hrest : rest ≠ [] := fun hnil => hnotpath (by rw [hnil, append_nil])
      rw [tableAt_putTable] at hv
      cases (hflat.tableAt_eq_none hrest).symm.trans hv
    have hnotold : path ∉ L.paths := by
      intro hmem
      obtain ⟨keys', hs⟩ := mem_paths.mp hmem
      exact hnot (mem_paths.mpr ⟨keys', (hreplaces.mem_iff _ _).mpr (.inr ⟨hnotpath, hs⟩)⟩)
    obtain heq | ⟨w, next, nested, hw, hunder, heq⟩ :=
      tableAt_putTable_of_not_prefix (s := s) hfront hkey hnotpre
    · exact h.complete path v hne (heq.symm.trans hv) hnotold
    · obtain rfl := some.inj (heq.symm.trans hv)
      obtain ⟨-, hall⟩ := h.complete path w hne hw hnotold
      refine ⟨fun hnil => ?_, fun field hfield => ?_⟩
      · have hmem := Fields.mem_of_lookup
          ((Fields.lookup_insert next next (.table nested) w).trans (if_pos rfl))
        rw [hnil] at hmem
        cases hmem
      · obtain rfl | hfield := Fields.mem_insert hfield
        · rfl
        · exact hall field hfield

end Toml
