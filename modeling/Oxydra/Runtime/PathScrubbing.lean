import Oxydra.Library.Replacement

/-!
# Host paths in the output of tools

`resolve_virtual_prefix` of `crates/runtime/src/scrubbing.rs` makes the host path of a virtual one,
and `scrub_host_paths` replaces the host prefixes of an output by the virtual paths, longest first.

`scrubHostPaths_spec`: a host path that was made of a virtual one becomes the virtual one again, if
no other mapping is met on the way; where only whole path prefixes are met, only these are replaced;
and what is left of an output has no host prefix of a longer path in it.
-/

namespace Oxydra

open List Replacement

structure PathScrubMapping where
  host_prefix : String
  virtual_path : String
  deriving DecidableEq, Repr

/-! ## Translation and scrubbing -/

/-- The mappings in the order in which `scrub_host_paths` applies them. -/
def byHostPrefix (mappings : List PathScrubMapping) : List PathScrubMapping :=
  mappings.mergeSort fun a b => b.host_prefix.utf8ByteSize ≤ a.host_prefix.utf8ByteSize

/-- `str::replace` of a host prefix. -/
def PathScrubMapping.replaceIn (mapping : PathScrubMapping) (text : List Char) : List Char :=
  replace mapping.host_prefix.toList mapping.virtual_path.toList text

/-- `scrub_host_paths`. -/
def scrubHostPaths (output : String) (mappings : List PathScrubMapping) : String :=
  if mappings = [] ∨ output = "" then output
  else
    String.ofList ((byHostPrefix mappings).foldl (fun result mapping => mapping.replaceIn result)
      output.toList)

/-- The mappings in the order in which `resolve_virtual_prefix` tries them. -/
def byVirtualPath (mappings : List PathScrubMapping) : List PathScrubMapping :=
  (mappings.filter fun m => m.virtual_path ≠ "").mergeSort fun a b =>
    b.virtual_path.utf8ByteSize ≤ a.virtual_path.utf8ByteSize

/-- What is behind the virtual path of a mapping, if the input goes on with a separator or ends. -/
def PathScrubMapping.remainder (mapping : PathScrubMapping) (input : List Char) :
    Option (List Char) :=
  let virtual_path := mapping.virtual_path.toList
  if virtual_path.isPrefixOf input then
    let remainder := input.drop virtual_path.length
    if remainder = [] ∨ remainder.head? = some '/' then some remainder else none
  else none

/-- The mapping of a virtual path, and what is behind it. -/
def virtualMapping (input : String) (mappings : List PathScrubMapping) :
    Option (PathScrubMapping × List Char) :=
  (byVirtualPath mappings).findSome? fun mapping =>
    (mapping.remainder input.toList).map fun remainder => (mapping, remainder)

/-- `resolve_virtual_prefix`. -/
def resolveVirtualPrefix (input : String) (mappings : List PathScrubMapping) : String :=
  match virtualMapping input mappings with
  | some (mapping, remainder) => mapping.host_prefix ++ String.ofList remainder
  | none => input

/-! ## What is promised of it -/

/-- Whether a path prefix is whole that stands before this text: a separator follows, a character
that is not one of a path, or the end. -/
def isWhole (pathChar : Char → Bool) : List Char → Bool
  | [] => true
  | c :: _ => c == '/' || !pathChar c

/-- The text with the host prefixes replaced where they are whole path prefixes. -/
def scrubWholePrefixes (pathChar : Char → Bool) (sorted : List PathScrubMapping)
    (text : List Char) : List Char :=
  sorted.foldl (fun result mapping => replaceBefore id (isWhole pathChar)
    mapping.host_prefix.toList mapping.virtual_path.toList result) text

/-- Each host prefix, where its turn is, stands in the text as a whole path prefix only. -/
def MeetsWholePrefixes (pathChar : Char → Bool) : List PathScrubMapping → List Char → Prop
  | [], _ => True
  | mapping :: sorted, text =>
    (∀ before rest, text = before ++ mapping.host_prefix.toList ++ rest →
        isWhole pathChar rest = true) ∧
      MeetsWholePrefixes pathChar sorted (scrubWholePrefixes pathChar [mapping] text)

/-- The output with the place in the text that each character comes from. What is inserted comes
from nowhere. -/
def tracedScrub (sorted : List PathScrubMapping) (text : List Char) : List (Char × Option ℕ) :=
  sorted.foldl (fun result mapping => replaceBefore Prod.fst (fun _ => true)
      mapping.host_prefix.toList (mapping.virtual_path.toList.map fun c => (c, none)) result)
    (text.zipIdx.map fun p => (p.1, some p.2))

/-- The mapping of a path is the first to be met in its host path, and no other is met behind it. -/
structure OnlyMapping (mappings : List PathScrubMapping) (path : String)
    (mapping : PathScrubMapping) (remainder : List Char) : Prop where
  resolves : virtualMapping path mappings = some (mapping, remainder)
  once : ¬mapping.host_prefix.toList <:+: remainder
  others : ∃ before after, byHostPrefix mappings = before ++ mapping :: after ∧
    (∀ m ∈ before, ¬m.host_prefix.toList <:+: mapping.host_prefix.toList ++ remainder) ∧
    ∀ m ∈ after, ¬m.host_prefix.toList <:+: path.toList

/-- What holds of paths and texts with these mappings. -/
structure ScrubsFaithfully (pathChar : Char → Bool) (mappings : List PathScrubMapping) : Prop where
  roundTrip : ∀ path mapping remainder, OnlyMapping mappings path mapping remainder →
    scrubHostPaths (resolveVirtualPrefix path mappings) mappings = path
  wholePrefixes : ∀ text : String, MeetsWholePrefixes pathChar (byHostPrefix mappings) text.toList →
    (scrubHostPaths text mappings).toList =
      scrubWholePrefixes pathChar (byHostPrefix mappings) text.toList
  traced : ∀ text : String, (tracedScrub (byHostPrefix mappings) text.toList).map Prod.fst =
    (scrubHostPaths text mappings).toList
  stretches : ∀ (text : String) i xs, Stretch Prod.snd i xs →
    xs <:+: tracedScrub (byHostPrefix mappings) text.toList →
    ∀ mapping ∈ mappings, xs.map Prod.fst ≠ mapping.host_prefix.toList ++ ['/']

section

variable {mapping : PathScrubMapping} {mappings sorted : List PathScrubMapping}

theorem toList_ne_nil {s : String} (h : s ≠ "") : s.toList ≠ [] :=
  fun hnil => h (String.toList_eq_nil_iff.mp hnil)

theorem PathScrubMapping.replaceIn_eq (h : mapping.host_prefix.toList ≠ []) (text : List Char) :
    mapping.replaceIn text = replaceBefore id (fun _ => true) mapping.host_prefix.toList
      mapping.virtual_path.toList text :=
  if_neg h

/-- Mappings that are not met change nothing. -/
theorem foldl_replaceIn_of_absent {text : List Char}
    (h : ∀ m ∈ sorted, ¬m.host_prefix.toList <:+: text) :
    sorted.foldl (fun result m => m.replaceIn result) text = text := by
  induction sorted with
  | nil => rfl
  | cons m sorted ih =>
    rw [forall_mem_cons] at h
    have hne : m.host_prefix.toList ≠ [] := fun hnil => h.1 (hnil ▸ nil_infix)
    have hsame : m.replaceIn text = text := by
      rw [m.replaceIn_eq hne]
      exact replaceBefore_of_absent hne (by rw [map_id]; exact h.1)
    rw [foldl_cons, hsame, ih h.2]

/-- A virtual path is that of its mapping and what is behind it. -/
theorem toList_of_virtualMapping {path : String} {remainder : List Char}
    (h : virtualMapping path mappings = some (mapping, remainder)) :
    path.toList = mapping.virtual_path.toList ++ remainder := by
  obtain ⟨m, -, hm⟩ := exists_of_findSome?_eq_some h
  obtain ⟨rest, hrest, heq⟩ := Option.map_eq_some_iff.mp hm
  cases heq
  unfold PathScrubMapping.remainder at hrest
  dsimp only at hrest
  split_ifs at hrest with hfront hwhole
  obtain ⟨behind, hbehind⟩ := isPrefixOf_iff_prefix.mp hfront
  rw [← Option.some.inj hrest, ← hbehind, drop_left]

/-- The host path of a virtual one becomes the virtual one again. -/
theorem OnlyMapping.roundTrip {path : String} {remainder : List Char}
    (h : OnlyMapping mappings path mapping remainder) :
    scrubHostPaths (resolveVirtualPrefix path mappings) mappings = path := by
  obtain ⟨before, after, hsorted, hbefore, hafter⟩ := h.others
  have hne : mapping.host_prefix.toList ≠ [] := fun hnil => h.once (hnil ▸ nil_infix)
  have hpath := toList_of_virtualMapping h.resolves
  have hhost : (resolveVirtualPrefix path mappings).toList =
      mapping.host_prefix.toList ++ remainder := by
    rw [resolveVirtualPrefix, h.resolves]
    simp
  have hmappings : mappings ≠ [] := by
    rintro rfl
    have hnil : byHostPrefix [] = [] := mergeSort_nil
    rw [hnil] at hsorted
    simp at hsorted
  have houtput : resolveVirtualPrefix path mappings ≠ "" := by
    intro hempty
    rw [hempty] at hhost
    exact hne (append_eq_nil_iff.mp hhost.symm).1
  -- the mapping finds its host prefix where the host path starts, and nothing behind it
  have hown : mapping.replaceIn (mapping.host_prefix.toList ++ remainder) = path.toList := by
    rw [mapping.replaceIn_eq hne, replaceBefore_append hne (map_id _) rfl, hpath,
      replaceBefore_of_absent hne (by rw [map_id]; exact h.once)]
  unfold scrubHostPaths
  rw [if_neg (not_or.mpr ⟨hmappings, houtput⟩), hsorted, hhost, foldl_append,
    foldl_replaceIn_of_absent hbefore, foldl_cons, hown,
    foldl_replaceIn_of_absent hafter, String.ofList_toList]

variable (hne : ∀ m ∈ sorted, m.host_prefix.toList ≠ [])

include hne

/-- Where only whole path prefixes are met, only these are replaced. -/
theorem MeetsWholePrefixes.foldl_replaceIn {pathChar : Char → Bool} {text : List Char}
    (h : MeetsWholePrefixes pathChar sorted text) :
    sorted.foldl (fun result m => m.replaceIn result) text =
      scrubWholePrefixes pathChar sorted text := by
  induction sorted generalizing text with
  | nil => rfl
  | cons m sorted ih =>
    rw [forall_mem_cons] at hne
    have hsame : m.replaceIn text = scrubWholePrefixes pathChar [m] text := by
      rw [m.replaceIn_eq hne.1]
      refine replaceBefore_congr hne.1 fun before found rest heq hfound => ?_
      rw [map_id] at hfound
      exact h.1 before rest (by rw [heq, hfound])
    rw [foldl_cons, hsame, ih hne.2 h.2]
    rfl

/-- The characters of a traced text are those of the text. -/
theorem map_traced (text : List (Char × Option ℕ)) :
    (sorted.foldl (fun result m => replaceBefore Prod.fst (fun _ => true)
        m.host_prefix.toList (m.virtual_path.toList.map fun c => (c, none)) result) text).map
          Prod.fst =
      sorted.foldl (fun result m => m.replaceIn result) (text.map Prod.fst) := by
  induction sorted generalizing text with
  | nil => rfl
  | cons m sorted ih =>
    rw [forall_mem_cons] at hne
    have hvirtual : (m.virtual_path.toList.map fun c => (c, (none : Option ℕ))).map Prod.fst =
        m.virtual_path.toList := by
      rw [map_map]
      exact map_id _
    rw [foldl_cons, ih hne.2, map_replaceBefore hne.1, hvirtual, foldl_cons,
      m.replaceIn_eq hne.1]

/-- What is left of a text in one stretch was in the text, and is no host prefix. -/
theorem stretch_traced {text xs : List (Char × Option ℕ)} {i : ℕ} (htight : Tight Prod.snd text)
    (hxs : Stretch Prod.snd i xs)
    (h : xs <:+: sorted.foldl (fun result m => replaceBefore Prod.fst (fun _ => true)
      m.host_prefix.toList (m.virtual_path.toList.map fun c => (c, none)) result) text) :
    xs <:+: text ∧ ∀ m ∈ sorted, xs.map Prod.fst ≠ m.host_prefix.toList := by
  induction sorted generalizing text with
  | nil => exact ⟨h, nofun⟩
  | cons m sorted ih =>
    rw [forall_mem_cons] at hne ⊢
    have hinserted : ∀ x ∈ m.virtual_path.toList.map fun c => (c, (none : Option ℕ)),
        x.2 = none := by
      intro x hx
      obtain ⟨c, -, rfl⟩ := mem_map.mp hx
      rfl
    obtain ⟨hinside, hothers⟩ := ih hne.2 (htight.replaceBefore hinserted hne.1) h
    exact ⟨hxs.of_replaceBefore hinserted hne.1 htight hinside,
      hxs.not_pattern hinserted hne.1 htight hinside, hothers⟩

end

/-- Paths and texts are scrubbed faithfully with mappings that have host prefixes. -/
theorem scrubHostPaths_spec (pathChar : Char → Bool) (mappings : List PathScrubMapping)
    (hfront : ∀ m ∈ mappings, m.host_prefix ≠ "") : ScrubsFaithfully pathChar mappings := by
  have hne : ∀ m ∈ byHostPrefix mappings, m.host_prefix.toList ≠ [] := fun m hm =>
    toList_ne_nil (hfront m (mem_mergeSort.mp hm))
  have hscrub (text : String) : (scrubHostPaths text mappings).toList =
      (byHostPrefix mappings).foldl (fun result m => m.replaceIn result) text.toList := by
    unfold scrubHostPaths
    split_ifs with hguard
    · rcases hguard with rfl | rfl
      · have hnil : byHostPrefix [] = [] := mergeSort_nil
        rw [hnil]
        rfl
      · refine (foldl_replaceIn_of_absent fun m hm hinside => ?_).symm
        exact hne m hm (infix_nil.mp hinside)
    · exact String.toList_ofList
  refine ⟨fun path mapping remainder h => h.roundTrip, fun text h => ?_, fun text => ?_,
    fun text i xs hxs hinside m hm => ?_⟩
  · rw [hscrub, h.foldl_replaceIn hne]
  · have hstart : (text.toList.zipIdx.map fun p => (p.1, some p.2)).map Prod.fst = text.toList := by
      rw [map_map]
      exact zipIdx_map_fst 0 _
    rw [hscrub, tracedScrub, map_traced hne, hstart]
  · intro hwhole
    obtain ⟨ys, zs, rfl, hys, -⟩ := map_eq_append_iff.mp hwhole
    have hpart := (stretch_traced hne (tight_zipIdx text.toList 0) hxs.of_append
      ((prefix_append ys zs).isInfix.trans hinside)).2
    exact hpart m (mem_mergeSort.mpr hm) hys

/-- The mappings of a workspace. -/
theorem workspace_scrubsFaithfully : ScrubsFaithfully Char.isAlphanum
    [⟨"/ws/u/shared", "/shared"⟩, ⟨"/ws/u/tmp", "/tmp"⟩, ⟨"/ws/u/vault", "/vault"⟩,
      ⟨"/ws/u", ""⟩] :=
  scrubHostPaths_spec Char.isAlphanum _ (by decide)

/-- A path that goes through one mapping into another comes back under the other one, a directory
whose name starts with that of a mapped one is taken for it, and a host prefix can come together
around one that is removed. -/
theorem mappings_not_respected :
    let nested : List PathScrubMapping := [⟨"/h/s", "/s"⟩, ⟨"/h", "/v"⟩]
    let shared : List PathScrubMapping := [⟨"/ws/shared", "/shared"⟩]
    let root : List PathScrubMapping := [⟨"/ws/u", ""⟩]
    (virtualMapping "/v/s/x" nested = some (⟨"/h", "/v"⟩, "/s/x".toList) ∧
      (∀ m ∈ nested, ¬m.host_prefix.toList <:+: "/s/x".toList) ∧
      scrubHostPaths (resolveVirtualPrefix "/v/s/x" nested) nested = "/s/x") ∧
    scrubHostPaths "/ws/shared2/a.txt" shared = "/shared2/a.txt" ∧
    scrubHostPaths "/ws/ws/u/u/x" root = "/ws/u/x" := by
  intro nested shared root
  have hnested : byHostPrefix nested = nested := mergeSort_of_pairwise (by decide)
  have hshared : byHostPrefix shared = shared := mergeSort_singleton _
  have hroot : byHostPrefix root = root := mergeSort_singleton _
  have hvirtual : byVirtualPath nested = nested := mergeSort_of_pairwise (by decide)
  have hmapping : virtualMapping "/v/s/x" nested = some (⟨"/h", "/v"⟩, "/s/x".toList) := by
    unfold virtualMapping
    rw [hvirtual]
    decide
  refine ⟨⟨hmapping, by decide, ?_⟩, ?_, ?_⟩
  · unfold resolveVirtualPrefix scrubHostPaths
    rw [hmapping, hnested]
    decide
  · unfold scrubHostPaths
    rw [hshared]
    decide
  · unfold scrubHostPaths
    rw [hroot]
    decide

end Oxydra
