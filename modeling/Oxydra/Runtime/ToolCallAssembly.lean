import Mathlib.Data.List.Pairwise
import Oxydra.Library.TextLaws
import Oxydra.Runtime.ProviderResponse

/-!
# Tool calls assembled from a stream

The deltas of several tool calls arrive in any interleaving. `assembled_of_interleaving`: what a
`ToolCallAccumulator` builds depends on the deltas of each index alone, in their order, and it is the
calls of each index, made of its id, its name and its fragments of arguments one after the other.

The calls that `build` returns have the ids of their indices, and where the arguments of an index
are several JSON objects, one call for each object with a number behind the id. Those ids are made
without a look at the ids of the other indices, and `build_uniqueAndComplete_iff` says when two of
them meet.
-/

namespace Oxydra

open List Text

variable {text : List Char} {deltas : List ToolCallDelta} {id id' : String}

/-! ## Interleavings -/

/-- One stream of deltas is an interleaving of the same deltas as another: those of each index are
the same, in the same order. -/
def Interleaved (deltas deltas' : List ToolCallDelta) : Prop :=
  ∀ index, deltasAt deltas index = deltasAt deltas' index

theorem mem_keys_accumulate_iff (deltas : List ToolCallDelta) (index : ℕ) :
    index ∈ Fields.keys (accumulate deltas) ↔ deltasAt deltas index ≠ [] := by
  rw [mem_keys_accumulate, Ne, deltasAt, filter_eq_nil_iff]
  simp

/-- The indices of the entries are those of the deltas. -/
theorem keys_accumulate_of_interleaved {deltas deltas' : List ToolCallDelta}
    (h : Interleaved deltas deltas') :
    Fields.keys (accumulate deltas) = Fields.keys (accumulate deltas') := by
  have hmem : ∀ index, index ∈ Fields.keys (accumulate deltas) ↔
      index ∈ Fields.keys (accumulate deltas') := by
    intro index
    rw [mem_keys_accumulate_iff, mem_keys_accumulate_iff, h index]
  exact (pairwise_accumulate deltas).eq_of_mem_iff (pairwise_accumulate deltas') hmem

/-! ## Objects one after the other -/

/-- The white space of JSON. -/
def isJsonSpace (c : Char) : Bool := c == ' ' || c == '\n' || c == '\r' || c == '\t'

section Concatenations

variable (json : JsonText)

/-- The text of a JSON object, without white space around it. -/
structure IsObjectText (text : List Char) (v : Value) : Prop where
  starts : text.head? = some '{'
  ends : text.getLast? = some '}'
  parsed : json.parse (String.ofList text) = .ok v

/-- The texts of JSON objects one after the other, with white space between them or without. -/
inductive Concatenates : List Char → List Value → Prop where
  | last {text : List Char} {v : Value} : IsObjectText json text v → Concatenates text [v]
  | next {text space rest : List Char} {v : Value} {vs : List Value} : IsObjectText json text v →
      (∀ c ∈ space, isJsonSpace c) → Concatenates rest vs →
      Concatenates (text ++ space ++ rest) (v :: vs)

/-- What `serde_json` does with objects one after the other: `from_str` takes no second value, and a
`StreamDeserializer` reads one value after the other. -/
structure JsonText.ReadsConcatenations : Prop where
  trailing : ∀ raw vs, Concatenates json (trim raw).toList vs → 2 ≤ vs.length →
    ∃ error, json.parse raw = .error error
  values : ∀ text vs, Concatenates json text vs → json.values (String.ofList text) = vs

/-- The text that is parsed for the arguments of an entry. -/
def argumentsText (entry : ToolCallAccumulatorEntry) : String :=
  if trim entry.arguments = "" then "\x7b\x7d" else entry.arguments

/-- The number of values that an entry is fanned out into, or zero where it is one call. -/
def fanOut (entry : ToolCallAccumulatorEntry) : ℕ :=
  match json.parse (argumentsText entry) with
  | .ok _ => 0
  | .error _ => ((tryExtractConcatenatedJsonObjects json (argumentsText entry)).getD []).length

/-- The id that `build` makes for the `k`-th of several objects. -/
def fannedId (id : String) (k : ℕ) : String := id ++ "_" ++ toString k

/-- The ids of the calls of an entry that is fanned out into `n` values. -/
def callIds (id : String) (n : ℕ) : List String :=
  if n = 0 then [id] else (List.range n).map (fannedId id)

/-- Two made ids are the same only for one place of one id. -/
theorem fannedId_inj {k k' : ℕ} (h : fannedId id k = fannedId id' k') :
    id = id' ∧ k = k' := by
  have htexts := congrArg String.toList h
  simp only [fannedId, String.toList_append, toList_toString, append_assoc] at htexts
  obtain ⟨hk, hid⟩ := zeroPad_after (c := '_') (by decide) htexts
  exact ⟨String.toList_injective hid, hk⟩

theorem nodup_callIds (id : String) (n : ℕ) : (callIds id n).Nodup := by
  unfold callIds
  split_ifs with hn
  · exact nodup_singleton id
  · exact nodup_range.map fun k k' h => (fannedId_inj h).2

/-- The calls of two different ids meet exactly where one of the ids is made of the other. -/
theorem disjoint_callIds_iff (hne : id ≠ id') {n n' : ℕ} :
    List.Disjoint (callIds id n) (callIds id' n') ↔
      (n = 0 → ∀ k < n', id ≠ fannedId id' k) ∧ (n' = 0 → ∀ k < n, id' ≠ fannedId id k) := by
  unfold callIds
  by_cases hn : n = 0
  · by_cases hn' : n' = 0
    · simp [hn, hn', hne.symm]
    · simp only [hn, hn', if_true, if_false, singleton_disjoint, mem_map, mem_range]
      grind
  · by_cases hn' : n' = 0
    · simp only [hn, hn', if_true, if_false, disjoint_singleton, mem_map, mem_range]
      grind
    · rw [if_neg hn, if_neg hn']
      refine iff_of_true (fun x hx hx' => ?_) ⟨fun h => absurd h hn, fun h => absurd h hn'⟩
      obtain ⟨k, -, rfl⟩ := mem_map.mp hx
      obtain ⟨k', -, heq⟩ := mem_map.mp hx'
      exact hne (fannedId_inj heq).1.symm

/-- What is extracted is more than one value. -/
theorem two_le_of_tryExtract {raw : String} {objects : List Value}
    (h : tryExtractConcatenatedJsonObjects json raw = some objects) : 2 ≤ objects.length := by
  unfold tryExtractConcatenatedJsonObjects at h
  dsimp only at h
  split_ifs at h with hstart hone
  cases h
  omega

theorem map_id_entryCalls (id name : String) (entry : ToolCallAccumulatorEntry) :
    (entryCalls json id name entry).map ToolCall.id = callIds id (fanOut json entry) := by
  unfold entryCalls fanOut argumentsText
  dsimp only
  cases json.parse (if trim entry.arguments = "" then "\x7b\x7d" else entry.arguments) with
  | ok v => rfl
  | error error =>
    dsimp only
    cases hextract : tryExtractConcatenatedJsonObjects json
        (if trim entry.arguments = "" then "\x7b\x7d" else entry.arguments) with
    | none => rfl
    | some objects =>
      have hne : objects.length ≠ 0 := by
        have htwo := two_le_of_tryExtract json hextract
        omega
      dsimp only [Option.getD_some, callIds]
      rw [if_neg hne]
      refine ext_getElem (by simp) fun k hk hk' => ?_
      simp [fannedId]

variable {json}

/-- Objects one after the other start as the first of them does. -/
theorem Concatenates.head? {vs : List Value} (h : Concatenates json text vs) :
    text.head? = some '{' := by
  cases h with
  | last hobject => exact hobject.starts
  | next hobject _ _ => simp [List.head?_append, hobject.starts]

/-- Each of several objects is the arguments of one call of its index. -/
theorem map_arguments_entryCalls (hjson : json.ReadsConcatenations) {objects : List Value}
    (htwo : 2 ≤ objects.length) (id name : String) {entry : ToolCallAccumulatorEntry}
    (h : Concatenates json (trim entry.arguments).toList objects) :
    (entryCalls json id name entry).map ToolCall.arguments = objects := by
  have hhead := h.head?
  have hblank : trim entry.arguments ≠ "" := by
    intro hblank
    rw [hblank] at hhead
    exact absurd hhead (by decide)
  obtain ⟨error, herror⟩ := hjson.trailing _ _ h htwo
  have hvalues := hjson.values _ _ h
  rw [String.ofList_toList] at hvalues
  have hextract : tryExtractConcatenatedJsonObjects json entry.arguments = some objects := by
    unfold tryExtractConcatenatedJsonObjects
    rw [if_pos hhead, hvalues, if_neg (by omega)]
  unfold entryCalls
  dsimp only
  rw [if_neg hblank, herror]
  dsimp only
  rw [hextract]
  refine ext_getElem (by simp) fun k hk hk' => ?_
  simp

end Concatenations

/-! ## Unique and complete -/

section Unique

variable (json : JsonText)

/-- No two indices end up with the same id. -/
def DistinctIds (deltas : List ToolCallDelta) : Prop :=
  ∀ i j, deltasAt deltas i ≠ [] → deltasAt deltas j ≠ [] →
    (entryOf (deltasAt deltas i)).id = (entryOf (deltasAt deltas j)).id → i = j

/-- The calls have different ids, and they are the calls of one index after the other, where an
index with several objects for its arguments has one call for each of them. -/
structure UniqueAndComplete (deltas : List ToolCallDelta) (calls : List ToolCall) : Prop where
  unique : (calls.map ToolCall.id).Nodup
  complete : ∃ own : ℕ → List ToolCall,
    calls = (Fields.keys (accumulate deltas)).flatMap own ∧
    ∀ index ∈ Fields.keys (accumulate deltas), ∀ objects, 2 ≤ objects.length →
      Concatenates json (trim (entryOf (deltasAt deltas index)).arguments).toList objects →
        (own index).map ToolCall.arguments = objects

/-- No index that is one call has an id that is made for an index that is fanned out. -/
def NoIdTaken (deltas : List ToolCallDelta) : Prop :=
  ∀ i j id id', (entryOf (deltasAt deltas i)).id = some id →
    (entryOf (deltasAt deltas j)).id = some id' → fanOut json (entryOf (deltasAt deltas i)) = 0 →
    ∀ k < fanOut json (entryOf (deltasAt deltas j)), id ≠ fannedId id' k

variable {json}

/-- Where calls are built, each entry has an id and a name. -/
theorem isSome_of_build {provider : String} {calls : ToolCallAccumulator} {built : List ToolCall}
    (h : calls.build json provider = .ok built) : ∀ c ∈ calls, c.2.id.isSome ∧ c.2.name.isSome := by
  induction calls generalizing built with
  | nil => exact fun c hc => absurd hc not_mem_nil
  | cons call calls ih =>
    obtain ⟨index, entry⟩ := call
    rw [ToolCallAccumulator.build] at h
    cases hid : entry.id with
    | none => rw [hid] at h; cases h
    | some id =>
      cases hname : entry.name with
      | none => rw [hid, hname] at h; cases h
      | some name =>
        cases hrest : ToolCallAccumulator.build json provider calls with
        | error error => rw [hid, hname, hrest] at h; cases h
        | ok rest =>
          refine forall_mem_cons.mpr ⟨⟨?_, ?_⟩, ih hrest⟩
          · exact Option.isSome_of_eq_some hid
          · exact Option.isSome_of_eq_some hname

/-- The calls of an index. -/
def callsOf (json : JsonText) (deltas : List ToolCallDelta) (index : ℕ) : List ToolCall :=
  entryCalls json ((entryOf (deltasAt deltas index)).id.getD "")
    ((entryOf (deltasAt deltas index)).name.getD "") (entryOf (deltasAt deltas index))

/-- What is built are the calls of one index after the other. -/
theorem build_accumulate {provider : String} {calls : List ToolCall}
    (h : (accumulate deltas).build json provider = .ok calls) :
    (∀ index ∈ Fields.keys (accumulate deltas),
      (entryOf (deltasAt deltas index)).id.isSome) ∧
      calls = (Fields.keys (accumulate deltas)).flatMap (callsOf json deltas) := by
  have hsome := isSome_of_build h
  have hbuilt := (build_eq_ok json provider hsome).symm.trans h
  have heq := accumulate_eq deltas
  constructor
  · intro index hindex
    refine (hsome (index, entryOf (deltasAt deltas index)) ?_).1
    rw [heq]
    exact mem_map_of_mem hindex
  · rw [← Except.ok.inj hbuilt]
    conv_lhs => rw [heq]
    rw [flatMap_map]
    rfl

/-- What deltas of one index come to: the last id, the last name, all fragments of the arguments one
after the other, and the first metadata. -/
def assembledEntry (deltas : List ToolCallDelta) : ToolCallAccumulatorEntry where
  id := (deltas.filterMap ToolCallDelta.id).getLast?
  name := (deltas.filterMap ToolCallDelta.name).getLast?
  arguments := String.ofList (deltas.flatMap fun delta => (delta.arguments.getD "").toList)
  metadata := (deltas.filterMap ToolCallDelta.metadata).head?

/-- The entry of an index is what its deltas come to. -/
theorem entryOf_eq (deltas : List ToolCallDelta) : entryOf deltas = assembledEntry deltas := by
  have harguments : (entryOf deltas).arguments = (assembledEntry deltas).arguments := by
    rw [← String.ofList_toList (s := (entryOf deltas).arguments), entryOf_arguments]
    rfl
  rw [ToolCallAccumulatorEntry.mk.injEq (entryOf deltas).id]
  exact ⟨entryOf_id deltas, entryOf_name deltas, harguments, entryOf_metadata deltas⟩

/-- The calls of the deltas of one index, with their id, their name and their arguments. -/
def assembledCalls (json : JsonText) (deltas : List ToolCallDelta) : List ToolCall :=
  let entry := assembledEntry deltas
  entryCalls json (entry.id.getD "") (entry.name.getD "") entry

/-- The calls that are built depend on the order of the deltas of each index alone. They are the
calls of one index after the other, each of an index that has an id and a name. -/
theorem assembled_of_interleaving {deltas deltas' : List ToolCallDelta}
    (h : Interleaved deltas deltas') (json : JsonText) (provider : String) :
    (accumulate deltas).build json provider = (accumulate deltas').build json provider ∧
      ∀ calls, (accumulate deltas').build json provider = .ok calls →
        ∃ indices : List ℕ, indices.Pairwise (· < ·) ∧
          (∀ index, index ∈ indices ↔ deltasAt deltas index ≠ []) ∧
          (∀ index ∈ indices, (assembledEntry (deltasAt deltas index)).id.isSome ∧
            (assembledEntry (deltasAt deltas index)).name.isSome) ∧
          calls = indices.flatMap fun index => assembledCalls json (deltasAt deltas index) := by
  have hkeys := keys_accumulate_of_interleaved h
  have hsame : accumulate deltas = accumulate deltas' := by
    rw [accumulate_eq deltas, accumulate_eq deltas', hkeys]
    exact map_congr_left fun index _ => by rw [h index]
  rw [← hsame]
  refine ⟨rfl, fun calls hcalls => ⟨Fields.keys (accumulate deltas), pairwise_accumulate deltas,
    mem_keys_accumulate_iff deltas, fun index hindex => ?_, ?_⟩⟩
  · have hsome := isSome_of_build hcalls (index, entryOf (deltasAt deltas index)) (by
      rw [accumulate_eq deltas]
      exact mem_map_of_mem hindex)
    rwa [entryOf_eq] at hsome
  · refine (build_accumulate hcalls).2.trans (flatMap_congr fun index _ => ?_)
    rw [callsOf, entryOf_eq]
    rfl

/-- The deltas of a call whose id comes late. -/
def readDeltas : List ToolCallDelta :=
  [{ index := 0, name := some "file_read", arguments := some "\x7b\"path\":" },
    { index := 0, id := some "a", arguments := some "\"notes.txt\"\x7d" }]

/-- The deltas of one without arguments. -/
def listDeltas : List ToolCallDelta :=
  [{ index := 1, name := some "list" }, { index := 1, id := some "b" }]

/-- The two calls of these deltas. -/
def readAndList : List ToolCall :=
  [⟨"a", "file_read", .object [("path", .string "notes.txt")], none⟩,
    ⟨"b", "list", .object [], none⟩]

/-- Two calls whose fragments arrive by turns: each is built of its own, as if one call had come
after the other. -/
theorem assembled_by_turns :
    (accumulate (readDeltas ++ listDeltas)).build readerJson "p" = .ok readAndList ∧
      ∃ indices : List ℕ,
        (∀ index, index ∈ indices ↔ deltasAt (readDeltas ++ listDeltas) index ≠ []) ∧
        readAndList = indices.flatMap fun index =>
          assembledCalls readerJson (deltasAt (readDeltas ++ listDeltas) index) := by
  have h : Interleaved (readDeltas ++ listDeltas)
      (listDeltas.take 1 ++ readDeltas.take 1 ++ listDeltas.drop 1 ++ readDeltas.drop 1) := by
    intro index
    match index with
    | 0 => rfl
    | 1 => rfl
    | index + 2 =>
      unfold deltasAt
      rw [filter_eq_nil_iff.mpr (by simp [readDeltas, listDeltas]),
        filter_eq_nil_iff.mpr (by simp [readDeltas, listDeltas])]
  have hbuilt : (accumulate (listDeltas.take 1 ++ readDeltas.take 1 ++ listDeltas.drop 1 ++
      readDeltas.drop 1)).build readerJson "p" = .ok readAndList := by decide +kernel
  obtain ⟨hsame, hcalls⟩ := assembled_of_interleaving h readerJson "p"
  obtain ⟨indices, -, hindices, -, hassembled⟩ := hcalls _ hbuilt
  exact ⟨hsame.trans hbuilt, indices, hindices, hassembled⟩

/-- The ids of the calls of an index. -/
theorem map_id_callsOf {index : ℕ} (h : (entryOf (deltasAt deltas index)).id = some id) :
    (callsOf json deltas index).map ToolCall.id =
      callIds id (fanOut json (entryOf (deltasAt deltas index))) := by
  rw [callsOf, map_id_entryCalls, h, Option.getD_some]

/-- The ids of the calls of all indices are different where no id is taken. -/
theorem nodup_ids_iff (json : JsonText) (hids : DistinctIds deltas)
    (hsome : ∀ index ∈ Fields.keys (accumulate deltas),
      (entryOf (deltasAt deltas index)).id.isSome) :
    (((Fields.keys (accumulate deltas)).flatMap (callsOf json deltas)).map ToolCall.id).Nodup ↔
      NoIdTaken json deltas := by
  have hpairs : ∀ i ∈ Fields.keys (accumulate deltas), ∀ j ∈ Fields.keys (accumulate deltas),
      i ≠ j → ∃ id id', (entryOf (deltasAt deltas i)).id = some id ∧
        (entryOf (deltasAt deltas j)).id = some id' ∧ id ≠ id' := by
    intro i hi j hj hij
    obtain ⟨id, hid⟩ := Option.isSome_iff_exists.mp (hsome i hi)
    obtain ⟨id', hid'⟩ := Option.isSome_iff_exists.mp (hsome j hj)
    refine ⟨id, id', hid, hid', fun hsame => hij (hids i j ?_ ?_ ?_)⟩
    · exact (mem_keys_accumulate_iff deltas i).mp hi
    · exact (mem_keys_accumulate_iff deltas j).mp hj
    · rw [hid, hid', hsame]
  have hkeys : ∀ i id, (entryOf (deltasAt deltas i)).id = some id →
      i ∈ Fields.keys (accumulate deltas) := by
    intro i id hid
    refine (mem_keys_accumulate_iff deltas i).mpr fun hnil => ?_
    rw [hnil] at hid
    exact nomatch hid
  have hsymm : Std.Symm (Function.onFun List.Disjoint
      fun index => (callsOf json deltas index).map ToolCall.id) := ⟨fun _ _ h _ ha hb => h hb ha⟩
  rw [map_flatMap, nodup_flatMap]
  constructor
  -- an index with several objects makes ids of its own one
  · intro hnodup i j id id' hid hid' hone k hk
    have hij : i ≠ j := by
      rintro rfl
      omega
    have hdisjoint := hnodup.2.forall (hkeys i id hid) (hkeys j id' hid') hij
    obtain ⟨_, _, hi, hj, hne⟩ := hpairs i (hkeys i id hid) j (hkeys j id' hid') hij
    obtain rfl := Option.some.inj (hid.symm.trans hi)
    obtain rfl := Option.some.inj (hid'.symm.trans hj)
    change ((callsOf json deltas i).map ToolCall.id).Disjoint
      ((callsOf json deltas j).map ToolCall.id) at hdisjoint
    rw [map_id_callsOf hid, map_id_callsOf hid', disjoint_callIds_iff hne] at hdisjoint
    exact hdisjoint.1 hone k hk
  · intro hfree
    refine ⟨fun i hi => ?_, ?_⟩
    · obtain ⟨id, hid⟩ := Option.isSome_iff_exists.mp (hsome i hi)
      rw [map_id_callsOf hid]
      exact nodup_callIds id _
    · have hnodup : (Fields.keys (accumulate deltas)).Nodup :=
        (pairwise_accumulate deltas).imp ne_of_lt
      refine hnodup.pairwise_of_forall_ne fun i hi j hj hij => ?_
      obtain ⟨id, id', hid, hid', hne⟩ := hpairs i hi j hj hij
      change ((callsOf json deltas i).map ToolCall.id).Disjoint
        ((callsOf json deltas j).map ToolCall.id)
      rw [map_id_callsOf hid, map_id_callsOf hid', disjoint_callIds_iff hne]
      exact ⟨hfree i j id id' hid hid', hfree j i id' id hid' hid⟩

/-- The calls that are built of indices with different ids have different ids, with one call for
each of several objects, exactly where no index has an id that is made for another. -/
theorem build_uniqueAndComplete_iff (hjson : json.ReadsConcatenations) {provider : String}
    {deltas : List ToolCallDelta} {calls : List ToolCall} (hids : DistinctIds deltas)
    (h : (accumulate deltas).build json provider = .ok calls) :
    UniqueAndComplete json deltas calls ↔ NoIdTaken json deltas := by
  obtain ⟨hsome, hcalls⟩ := build_accumulate h
  have hunique := nodup_ids_iff json hids hsome
  rw [← hcalls] at hunique
  constructor
  · exact fun hlaw => hunique.mp hlaw.unique
  · refine fun hfree => ⟨hunique.mpr hfree, callsOf json deltas, hcalls, ?_⟩
    intro index _ objects htwo hobjects
    rw [callsOf, map_arguments_entryCalls hjson htwo _ _ hobjects]

/-! ### One id for two calls -/

/-- The values of a text of empty objects. -/
def emptyObjects : List Char → List Value
  | '{' :: '}' :: rest => .object [] :: emptyObjects rest
  | c :: rest => if isJsonSpace c then emptyObjects rest else []
  | [] => []

/-- What `serde_json` does with texts of empty objects. -/
def emptyObjectJson : JsonText where
  parse s := if s = "\x7b\x7d" then .ok (.object []) else .error "trailing characters"
  print _ := "\x7b\x7d"
  values s := emptyObjects s.toList

theorem isObjectText_emptyObject {v : Value} (h : IsObjectText emptyObjectJson text v) :
    text = ['{', '}'] ∧ v = .object [] := by
  have hparsed := h.parsed
  unfold emptyObjectJson at hparsed
  dsimp only at hparsed
  split_ifs at hparsed with htext
  refine ⟨?_, (Except.ok.inj hparsed).symm⟩
  rw [← String.toList_ofList (l := text), htext]
  rfl

/-- An object takes two characters. -/
theorem Concatenates.two_mul_length_le {vs : List Value} (h : Concatenates emptyObjectJson text vs)
    : 2 * vs.length ≤ text.length := by
  induction h with
  | last hobject =>
    obtain ⟨rfl, -⟩ := isObjectText_emptyObject hobject
    exact le_refl 2
  | next hobject _ _ ih =>
    obtain ⟨rfl, -⟩ := isObjectText_emptyObject hobject
    simp only [length_append, length_cons, length_nil]
    omega

theorem emptyObjects_space {space : List Char} (h : ∀ c ∈ space, isJsonSpace c)
    (rest : List Char) : emptyObjects (space ++ rest) = emptyObjects rest := by
  induction space with
  | nil => rfl
  | cons c space ih =>
    obtain ⟨hc, hspace⟩ := forall_mem_cons.mp h
    have hne : c ≠ '{' := by
      rintro rfl
      exact absurd hc (by decide)
    rw [cons_append, emptyObjects.eq_2 c _ (fun _ hbrace => absurd hbrace hne), if_pos hc,
      ih hspace]

theorem emptyObjectJson_reads : emptyObjectJson.ReadsConcatenations where
  trailing raw vs h htwo := by
    refine ⟨"trailing characters", if_neg ?_⟩
    rintro rfl
    have hlength := h.two_mul_length_le
    have htrim : (trim "\x7b\x7d").toList.length = 2 := by decide
    omega
  values text vs h := by
    show emptyObjects (String.ofList text).toList = vs
    rw [String.toList_ofList]
    induction h with
    | last hobject =>
      obtain ⟨rfl, rfl⟩ := isObjectText_emptyObject hobject
      rfl
    | next hobject hspace _ ih =>
      obtain ⟨rfl, rfl⟩ := isObjectText_emptyObject hobject
      rw [← ih, append_assoc]
      exact congrArg (Value.object [] :: ·) (emptyObjects_space hspace _)

/-- Two empty objects for the first index, whose id is `a`, and none for the second. -/
def twoThenOne (id : String) : List ToolCallDelta :=
  [{ index := 0, id := some "a", name := some "f", arguments := some "\x7b\x7d\x7b\x7d" },
    { index := 1, id := some id, name := some "g" }]

/-- The calls of `twoThenOne`. -/
def threeCalls (id : String) : List ToolCall :=
  [⟨"a_0", "f", .object [], none⟩, ⟨"a_1", "f", .object [], none⟩, ⟨id, "g", .object [], none⟩]

/-- Only the first two indices have an id. -/
theorem id_twoThenOne {index : ℕ} (h : (entryOf (deltasAt (twoThenOne id) index)).id = some id') :
    (index = 0 ∧ id' = "a") ∨ (index = 1 ∧ id' = id) := by
  match index with
  | 0 => exact .inl ⟨rfl, (Option.some.inj h).symm⟩
  | 1 => exact .inr ⟨rfl, (Option.some.inj h).symm⟩
  | index + 2 => exact nomatch h

theorem twoThenOne_distinctIds (h : id ≠ "a") : DistinctIds (twoThenOne id) := by
  have hindex : ∀ i, deltasAt (twoThenOne id) i ≠ [] → i = 0 ∨ i = 1 := by
    intro i hi
    match i with
    | 0 => exact .inl rfl
    | 1 => exact .inr rfl
    | i + 2 => exact absurd rfl hi
  intro i j hi hj hsame
  rcases hindex i hi with rfl | rfl <;> rcases hindex j hj with rfl | rfl
  · rfl
  · exact absurd (Option.some.inj hsame).symm h
  · exact absurd (Option.some.inj hsame) h
  · rfl

/-- The second index has the id that is made for the first object of the first one. -/
theorem twoThenOne_meets :
    emptyObjectJson.ReadsConcatenations ∧ DistinctIds (twoThenOne "a_0") ∧
      (accumulate (twoThenOne "a_0")).build emptyObjectJson "p" = .ok (threeCalls "a_0") ∧
      ¬UniqueAndComplete emptyObjectJson (twoThenOne "a_0") (threeCalls "a_0") := by
  refine ⟨emptyObjectJson_reads, twoThenOne_distinctIds (by decide), by decide, ?_⟩
  intro hlaw
  exact absurd hlaw.unique (by decide)

/-- With an id of its own for the second index, all three calls can be told apart. -/
theorem twoThenOne_uniqueAndComplete :
    UniqueAndComplete emptyObjectJson (twoThenOne "b") (threeCalls "b") := by
  have hbuild : (accumulate (twoThenOne "b")).build emptyObjectJson "p" = .ok (threeCalls "b") := by
    decide
  have hfirst : fanOut emptyObjectJson (entryOf (deltasAt (twoThenOne "b") 0)) = 2 := by
    decide
  refine (build_uniqueAndComplete_iff emptyObjectJson_reads (twoThenOne_distinctIds (by decide))
    hbuild).mpr ?_
  intro i j id id' hid hid' hone k hk
  rcases id_twoThenOne hid with ⟨rfl, rfl⟩ | ⟨rfl, rfl⟩
  · omega
  · rcases id_twoThenOne hid' with ⟨rfl, rfl⟩ | ⟨rfl, rfl⟩
    · have htwo : k = 0 ∨ k = 1 := by omega
      rcases htwo with rfl | rfl <;> decide
    · omega

end Unique

end Oxydra
