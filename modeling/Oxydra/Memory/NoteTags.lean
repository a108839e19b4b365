import Oxydra.Library.Lowercase
import Oxydra.Memory.NoteUpdates

/-!
# The tags of a note

`normalize_note_tags` of `crates/memory/src/lib.rs` trims a tag, puts it into lower case and keeps
its first characters, leaves out what was there before, and stops at the sixteenth. The tags of a
query are put into this form too, and the note that has them all is found.

A tag is trimmed before it is cut, so that one that is cut behind a space ends with it, and is
another tag when it is trimmed again. `noteTags_stable_iff`: the tags of a note stay as they are,
and each of them finds the note, exactly where none that is kept is cut behind white space.
-/

namespace Oxydra

open List Text

variable {kept : List String} {raw_tag : String}

section

variable (tables : CaseTables)

/-! ## One tag -/

/-- The form in which a tag is kept. -/
def boundedTag (raw_tag : String) : String :=
  String.ofList ((tables.toLowercase (trim raw_tag)).toList.take noteTagMaxChars)

/-- The last character that is kept of a tag is white space. -/
def CutAtSpace (raw_tag : String) : Prop :=
  ∃ c ∈ (tables.toLowercase (trim raw_tag)).toList[noteTagMaxChars - 1]?, isWhitespace c = true

instance (raw_tag : String) : Decidable (CutAtSpace tables raw_tag) :=
  inferInstanceAs (Decidable (∃ c ∈ (tables.toLowercase (trim raw_tag)).toList[_]?, _))

variable {tables}

theorem lower_of_mem_boundedTag {c : Char} (hc : c ∈ (boundedTag tables raw_tag).toList) :
    tables.Lower c := by
  rw [boundedTag, String.toList_ofList] at hc
  exact CaseTables.lower_of_mem_toLowercase (mem_of_mem_take hc)

theorem boundedTag_of_blank (h : trim raw_tag = "") :
    boundedTag tables raw_tag = "" := by
  rw [boundedTag, h]
  rfl

theorem boundedTag_ne_empty (h : trim raw_tag ≠ "") :
    boundedTag tables raw_tag ≠ "" := by
  have hlower := CaseTables.toLowercase_ne_empty tables h
  intro hempty
  have hlist := congrArg String.toList hempty
  rw [boundedTag, String.toList_ofList] at hlist
  rcases take_eq_nil_iff.mp hlist with hzero | hnil
  · exact absurd hzero (by decide)
  · exact hlower (String.toList_eq_nil_iff.mp hnil)

/-- A kept tag starts with a visible character, and ends with one if it is not cut behind white
space. -/
theorem visible_boundedTag_iff (raw_tag : String) :
    Visible (boundedTag tables raw_tag).toList ↔ ¬CutAtSpace tables raw_tag := by
  have hvisible := CaseTables.visible_toLowercase tables (visible_trim raw_tag)
  unfold CutAtSpace boundedTag
  rw [String.toList_ofList]
  generalize (tables.toLowercase (trim raw_tag)).toList = lowered at hvisible
  have hlast : (lowered.take noteTagMaxChars).getLast? =
      if noteTagMaxChars ≤ lowered.length then lowered[noteTagMaxChars - 1]?
      else lowered.getLast? := by
    split_ifs with hlong
    · rw [List.getLast?_eq_getElem?, length_take, Nat.min_eq_left hlong,
        List.getElem?_take_of_lt (by decide)]
    · rw [take_of_length_le (by omega)]
  constructor
  · rintro ⟨-, hend⟩ ⟨c, hc, hspace⟩
    obtain ⟨hlt, -⟩ := List.getElem?_eq_some_iff.mp hc
    have hlong : noteTagMaxChars ≤ lowered.length := Nat.le_of_pred_lt hlt
    rw [hlast, if_pos hlong] at hend
    rw [hend c hc] at hspace
    exact nomatch hspace
  · intro hcut
    refine ⟨fun c hc => ?_, fun c hc => ?_⟩
    · rw [List.head?_take, if_neg (by decide)] at hc
      exact hvisible.1 c hc
    · rw [hlast] at hc
      split_ifs at hc with hlong
      · exact Bool.eq_false_iff.mpr fun hspace => hcut ⟨c, hc, hspace⟩
      · exact hvisible.2 c hc

/-- A kept tag is kept as it is exactly where it was not cut behind white space. -/
theorem boundedTag_boundedTag_iff (raw_tag : String) :
    boundedTag tables (boundedTag tables raw_tag) = boundedTag tables raw_tag ↔
      ¬CutAtSpace tables raw_tag := by
  rw [← visible_boundedTag_iff]
  have hlength : (boundedTag tables raw_tag).toList.length ≤ noteTagMaxChars := by
    rw [boundedTag, String.toList_ofList]
    exact length_take_le _ _
  have hsublist := trim_sublist (boundedTag tables raw_tag)
  have hlower : tables.toLowercase (trim (boundedTag tables raw_tag)) =
      trim (boundedTag tables raw_tag) :=
    CaseTables.toLowercase_of_lower fun c hc => lower_of_mem_boundedTag (hsublist.subset hc)
  have htrim : boundedTag tables (boundedTag tables raw_tag) =
      trim (boundedTag tables raw_tag) := by
    conv_lhs => rw [boundedTag]
    rw [hlower, take_of_length_le (hsublist.length_le.trans hlength), String.ofList_toList]
  rw [htrim]
  constructor
  · intro heq
    rw [← heq]
    exact visible_trim _
  · exact trim_of_visible

/-! ## Lists of tags -/

variable (tables) in
/-- The different forms of tags that are not blank. -/
def formsOf (tags : List String) : Finset String :=
  ((tags.filter fun raw_tag => trim raw_tag ≠ "").map (boundedTag tables)).toFinset

theorem formsOf_cons (raw_tag : String) (tags : List String) :
    formsOf tables (raw_tag :: tags) =
      if trim raw_tag = "" then formsOf tables tags
      else insert (boundedTag tables raw_tag) (formsOf tables tags) := by
  unfold formsOf
  rw [filter_cons]
  by_cases h : trim raw_tag = "" <;> simp [h]

/-- One step of the loop. -/
theorem normalizeTagsFrom_cons (kept : List String) (raw_tag : String) (tags : List String) :
    normalizeTagsFrom tables.toLowercase kept (raw_tag :: tags) =
      if noteTagMaxCount ≤ kept.length then kept
      else if trim raw_tag = "" ∨ boundedTag tables raw_tag ∈ kept then
        normalizeTagsFrom tables.toLowercase kept tags
      else normalizeTagsFrom tables.toLowercase (kept ++ [boundedTag tables raw_tag]) tags := by
  rw [normalizeTagsFrom]
  dsimp only
  split_ifs with hfull hskip hskip' hskip'
  · rfl
  · rfl
  · rcases hskip with hblank | hempty | hmem
    · exact absurd (.inl hblank) hskip'
    · exact absurd hempty (boundedTag_ne_empty fun hblank => hskip' (.inl hblank))
    · exact absurd (.inr hmem) hskip'
  · rcases hskip' with hblank | hmem
    · exact absurd (.inl hblank) hskip
    · exact absurd (.inr (.inr hmem)) hskip
  · rfl

variable (tables) in
/-- What is kept of tags comes behind what was kept before, in their order. -/
theorem normalizeTagsFrom_sublist (kept tags : List String) :
    ∃ more, normalizeTagsFrom tables.toLowercase kept tags = kept ++ more ∧
      more.Sublist (tags.map (boundedTag tables)) := by
  induction tags generalizing kept with
  | nil => exact ⟨[], (append_nil kept).symm, nil_sublist _⟩
  | cons raw_tag tags ih =>
    rw [normalizeTagsFrom_cons, map_cons]
    split_ifs
    · exact ⟨[], (append_nil kept).symm, nil_sublist _⟩
    · obtain ⟨more, hmore, hsublist⟩ := ih kept
      exact ⟨more, hmore, hsublist.cons _⟩
    · obtain ⟨more, hmore, hsublist⟩ := ih (kept ++ [boundedTag tables raw_tag])
      refine ⟨boundedTag tables raw_tag :: more, ?_, hsublist.cons_cons _⟩
      rw [hmore, append_assoc, singleton_append]

theorem nodup_concat (hnodup : kept.Nodup) {tag : String} (hnew : tag ∉ kept) :
    (kept ++ [tag]).Nodup := by
  refine nodup_append.mpr ⟨hnodup, nodup_singleton _, fun a ha b hb heq => ?_⟩
  rw [heq, mem_singleton.mp hb] at ha
  exact hnew ha

variable (tables) in
/-- No tag is kept twice, and no more than sixteen are. -/
theorem normalizeTagsFrom_nodup (hnodup : kept.Nodup) (hlength : kept.length ≤ noteTagMaxCount)
    (tags : List String) :
    (normalizeTagsFrom tables.toLowercase kept tags).Nodup ∧
      (normalizeTagsFrom tables.toLowercase kept tags).length ≤ noteTagMaxCount := by
  induction tags generalizing kept with
  | nil => exact ⟨hnodup, hlength⟩
  | cons raw_tag tags ih =>
    rw [normalizeTagsFrom_cons]
    split_ifs with hfull hskip
    · exact ⟨hnodup, hlength⟩
    · exact ih hnodup hlength
    · refine ih (nodup_concat hnodup (not_or.mp hskip).2) ?_
      rw [length_append, length_singleton]
      omega

variable (tables) in
/-- The kept tags are the forms of the tags before which there are fewer than sixteen others. -/
theorem mem_normalizeTagsFrom (hnodup : kept.Nodup) (tags : List String) (tag : String) :
    tag ∈ normalizeTagsFrom tables.toLowercase kept tags ↔
      tag ∈ kept ∨ ∃ before raw_tag after, tags = before ++ raw_tag :: after ∧
        trim raw_tag ≠ "" ∧ boundedTag tables raw_tag = tag ∧
        (kept.toFinset ∪ formsOf tables before).card < noteTagMaxCount := by
  induction tags generalizing kept with
  | nil => simp [normalizeTagsFrom]
  | cons raw_tag tags ih =>
    -- the first tag, and those behind it
    have hsplit (P : List String → String → Prop) :
        (∃ before raw after, raw_tag :: tags = before ++ raw :: after ∧ P before raw) ↔
          P [] raw_tag ∨ ∃ before raw after, tags = before ++ raw :: after ∧
            P (raw_tag :: before) raw := by
      constructor
      · rintro ⟨before, raw, after, heq, h⟩
        cases before with
        | nil =>
          cases heq
          exact .inl h
        | cons first before =>
          cases heq
          exact .inr ⟨before, raw, after, rfl, h⟩
      · rintro (h | ⟨before, raw, after, rfl, h⟩)
        · exact ⟨[], raw_tag, tags, rfl, h⟩
        · exact ⟨raw_tag :: before, raw, after, rfl, h⟩
    have hempty : formsOf tables [] = ∅ := rfl
    have hcard := toFinset_card_of_nodup hnodup
    rw [normalizeTagsFrom_cons, hsplit fun before raw => trim raw ≠ "" ∧
      boundedTag tables raw = tag ∧ (kept.toFinset ∪ formsOf tables before).card < noteTagMaxCount]
    simp only [formsOf_cons, hempty, Finset.union_empty, hcard]
    by_cases hfull : noteTagMaxCount ≤ kept.length
    · rw [if_pos hfull]
      refine ⟨.inl, fun h => h.resolve_right ?_⟩
      rintro (⟨-, -, hlt⟩ | ⟨before, raw, after, -, -, -, hlt⟩)
      · omega
      · have hle (forms : Finset String) : kept.length ≤ (kept.toFinset ∪ forms).card :=
          hcard ▸ Finset.card_le_card Finset.subset_union_left
        exact absurd hlt (not_lt.mpr (hfull.trans (hle _)))
    · rw [if_neg hfull]
      by_cases hblank : trim raw_tag = ""
      · simp only [if_pos hblank]
        rw [if_pos (.inl hblank), ih hnodup]
        refine or_congr_right ⟨.inr, fun h => h.resolve_left fun hfirst => hfirst.1 hblank⟩
      · simp only [if_neg hblank, Finset.union_insert]
        by_cases hmem : boundedTag tables raw_tag ∈ kept
        · have hsame (forms : Finset String) :
              insert (boundedTag tables raw_tag) (kept.toFinset ∪ forms) = kept.toFinset ∪ forms :=
            Finset.insert_eq_of_mem (Finset.mem_union_left _ (mem_toFinset.mpr hmem))
          simp only [hsame]
          rw [if_pos (.inr hmem), ih hnodup]
          constructor
          · exact Or.imp_right .inr
          · rintro (hold | ⟨-, rfl, -⟩ | hlater)
            · exact .inl hold
            · exact .inl hmem
            · exact .inr hlater
        · have hinsert : (kept ++ [boundedTag tables raw_tag]).toFinset =
              insert (boundedTag tables raw_tag) kept.toFinset := by
            rw [toFinset_append, Finset.union_comm]
            rfl
          rw [if_neg (not_or.mpr ⟨hblank, hmem⟩), ih (nodup_concat hnodup hmem), hinsert]
          simp only [Finset.insert_union, mem_append, mem_singleton, or_assoc]
          refine or_congr_right (or_congr_left ?_)
          exact ⟨fun heq => ⟨hblank, heq.symm, not_le.mp hfull⟩, fun h => h.2.1.symm⟩

/-- Tags in the form in which they are kept, none of them twice and no more than sixteen, are kept
as they are. -/
theorem normalizeTagsFrom_of_fixed {kept tags : List String} (hnodup : (kept ++ tags).Nodup)
    (hlength : (kept ++ tags).length ≤ noteTagMaxCount)
    (hfixed : ∀ tag ∈ tags, tag ≠ "" ∧ boundedTag tables tag = tag) :
    normalizeTagsFrom tables.toLowercase kept tags = kept ++ tags := by
  induction tags generalizing kept with
  | nil => exact (append_nil kept).symm
  | cons tag tags ih =>
    obtain ⟨hne, heq⟩ := hfixed tag mem_cons_self
    have hblank : trim tag ≠ "" := fun hblank => hne (heq.symm.trans (boundedTag_of_blank hblank))
    have hnew : boundedTag tables tag ∉ kept := by
      rw [heq]
      exact fun hmem => (nodup_append.mp hnodup).2.2 tag hmem tag mem_cons_self rfl
    have hroom : ¬noteTagMaxCount ≤ kept.length := by
      rw [length_append, length_cons] at hlength
      omega
    rw [append_cons] at hnodup hlength
    rw [normalizeTagsFrom_cons, if_neg hroom, if_neg (not_or.mpr ⟨hblank, hnew⟩), heq,
      append_cons kept tag tags]
    exact ih hnodup hlength fun other hother => hfixed other (mem_cons_of_mem _ hother)

/-- The kept tags are kept as they are exactly where each of them is. -/
theorem normalizeNoteTags_fixed_iff (tags : Option (List String)) :
    normalizeNoteTags tables.toLowercase (some (normalizeNoteTags tables.toLowercase tags)) =
        normalizeNoteTags tables.toLowercase tags ↔
      ∀ tag ∈ normalizeNoteTags tables.toLowercase tags, boundedTag tables tag = tag := by
  have hkept := normalizeTagsFrom_nodup tables nodup_nil (Nat.zero_le _)
    (tags.getD [])
  have hmem := mem_normalizeTagsFrom tables nodup_nil (tags.getD [])
  unfold normalizeNoteTags
  rw [Option.getD_some]
  generalize normalizeTagsFrom tables.toLowercase [] (tags.getD []) = kept at hkept hmem
  constructor
  · intro heq
    obtain ⟨more, hmore, hsublist⟩ := normalizeTagsFrom_sublist tables [] kept
    rw [heq, nil_append] at hmore
    subst hmore
    have hmap := hsublist.eq_of_length (length_map _).symm
    conv_lhs at hmap => rw [← map_id kept]
    exact fun tag htag => (map_inj_left.mp hmap tag htag).symm
  · intro hfixed
    refine normalizeTagsFrom_of_fixed hkept.1 hkept.2 fun tag htag => ⟨?_, hfixed tag htag⟩
    rcases (hmem tag).mp htag with hnone | ⟨_, raw_tag, _, -, hblank, rfl, -⟩
    · exact nomatch hnone
    · exact boundedTag_ne_empty hblank

/-- Each kept tag is kept as it is exactly where no tag is cut behind white space before which there
are fewer than sixteen other forms. -/
theorem kept_fixed_iff (tags : Option (List String)) :
    (∀ tag ∈ normalizeNoteTags tables.toLowercase tags, boundedTag tables tag = tag) ↔
      ∀ before raw_tag after, tags.getD [] = before ++ raw_tag :: after →
        (formsOf tables before).card < noteTagMaxCount → ¬CutAtSpace tables raw_tag := by
  have hmem := mem_normalizeTagsFrom tables nodup_nil (tags.getD [])
  simp only [toFinset_nil, Finset.empty_union] at hmem
  unfold normalizeNoteTags
  constructor
  · intro hfixed before raw_tag after hsplit hcard
    by_cases hblank : trim raw_tag = ""
    · rw [← visible_boundedTag_iff, boundedTag_of_blank hblank]
      exact ⟨nofun, nofun⟩
    · have hkept := (hmem _).mpr (.inr ⟨before, raw_tag, after, hsplit, hblank, rfl, hcard⟩)
      exact (boundedTag_boundedTag_iff raw_tag).mp (hfixed _ hkept)
  · intro hcut tag htag
    rcases (hmem tag).mp htag with hnone | ⟨before, raw_tag, after, hsplit, -, rfl, hcard⟩
    · exact nomatch hnone
    · exact (boundedTag_boundedTag_iff raw_tag).mpr (hcut before raw_tag after hsplit hcard)

end

/-! ## Notes -/

/-- The filters that `hybrid_query` makes of the tags of a query. -/
def tagFilters (to_lowercase : String → String) (tags : Option (List String)) :
    Option (List String) :=
  let normalized_query_tags := normalizeNoteTags to_lowercase tags
  if normalized_query_tags ≠ [] then some normalized_query_tags else none

/-- What the statements of a search ask of a note with these filters: each of them is one of its
tags. -/
def NoteMetadata.Matches (metadata : NoteMetadata) (filters : Option (List String)) : Prop :=
  ∀ tags ∈ filters, ∀ tag ∈ tags, tag ∈ metadata.tags

/-- A tag that is kept as it is finds the notes that have it. -/
theorem NoteMetadata.matches_of_fixed {tables : CaseTables} {metadata : NoteMetadata} {tag : String}
    (htag : tag ∈ metadata.tags) (hfixed : boundedTag tables tag = tag) :
    metadata.Matches (tagFilters tables.toLowercase (some [tag])) := by
  intro tags htags filter hfilter
  unfold tagFilters normalizeNoteTags at htags
  dsimp only at htags
  split_ifs at htags
  · obtain rfl := Option.some.inj htags
    obtain ⟨more, hmore, hsublist⟩ := normalizeTagsFrom_sublist tables [] [tag]
    rw [Option.getD_some, hmore] at hfilter
    have hforms := hsublist.subset hfilter
    rw [map_singleton, mem_singleton, hfixed] at hforms
    rwa [hforms]
  · exact nomatch htags

/-- The tags of a stored note are kept as they are, and each of them finds the note, exactly where
no tag is cut behind white space before which there are fewer than sixteen other forms. -/
theorem noteTags_stable_iff (tables : CaseTables) (request : MemoryNoteStoreRequest)
    (now : String) :
    (normalizeNoteTags tables.toLowercase
        (some (normalizeNoteTags tables.toLowercase request.tags)) =
          normalizeNoteTags tables.toLowercase request.tags ∧
      ∀ tag ∈ (request.metadata tables.toLowercase now).tags,
        (request.metadata tables.toLowercase now).Matches
          (tagFilters tables.toLowercase (some [tag]))) ↔
    ∀ before raw_tag after, request.tags.getD [] = before ++ raw_tag :: after →
      (formsOf tables before).card < noteTagMaxCount → ¬CutAtSpace tables raw_tag := by
  rw [normalizeNoteTags_fixed_iff, kept_fixed_iff]
  refine and_iff_left_of_imp fun hcut tag htag => ?_
  exact NoteMetadata.matches_of_fixed htag ((kept_fixed_iff _).mpr hcut tag htag)

theorem normalizeNoteTags_singleton (tables : CaseTables) (h : trim raw_tag ≠ "") :
    normalizeNoteTags tables.toLowercase (some [raw_tag]) = [boundedTag tables raw_tag] := by
  unfold normalizeNoteTags
  rw [Option.getD_some, normalizeTagsFrom_cons, if_neg (by decide),
    if_neg (not_or.mpr ⟨h, not_mem_nil⟩)]
  rfl

/-- Sixty-one letters, with others before and behind them. -/
def longTag (first more : List Char) : String :=
  String.ofList (first ++ List.replicate 61 'a' ++ more)

/-- A dotted capital I, sixty-one letters, a space and a letter are as many characters as a tag may
have. Lower case makes two characters of the first, so that the tag is cut behind the space. What is
kept does not stay, and does not find its note. -/
theorem noteTags_cut_not_stable :
    let raw_tag := longTag ['İ'] [' ', 'b']
    let tags := normalizeNoteTags CaseTables.asciiAndDotted.toLowercase (some [raw_tag])
    raw_tag.toList.length ≤ noteTagMaxChars ∧
      normalizeNoteTags CaseTables.asciiAndDotted.toLowercase (some tags) ≠ tags ∧
      ∃ tag ∈ tags, ¬NoteMetadata.Matches ⟨"memory_save", tags, "", ""⟩
        (tagFilters CaseTables.asciiAndDotted.toLowercase (some [tag])) := by
  let dotted := ['i', Char.ofNat 0x307]
  have hfull : trim (longTag ['İ'] [' ', 'b']) = longTag ['İ'] [' ', 'b'] := by
    unfold trim trimEnd trimStart longTag
    rw [String.toList_ofList, String.toList_ofList]
    exact congrArg String.ofList (by decide)
  have hcut : trim (longTag dotted [' ']) = longTag dotted [] := by
    unfold trim trimEnd trimStart longTag
    rw [String.toList_ofList, String.toList_ofList]
    exact congrArg String.ofList (by decide)
  have htag : boundedTag CaseTables.asciiAndDotted (longTag ['İ'] [' ', 'b']) =
      longTag dotted [' '] := by
    rw [boundedTag, hfull, CaseTables.toLowercase, longTag, String.toList_ofList,
      String.toList_ofList]
    exact congrArg String.ofList (by decide +kernel)
  have hagain : boundedTag CaseTables.asciiAndDotted (longTag dotted [' ']) =
      longTag dotted [] := by
    rw [boundedTag, hcut, CaseTables.toLowercase, longTag, String.toList_ofList,
      String.toList_ofList]
    exact congrArg String.ofList (by decide +kernel)
  have hne (first more : List Char) : longTag first more ≠ "" := fun h => by
    have hlength := congrArg (fun text => text.toList.length) h
    simp [longTag] at hlength
  have hkept : normalizeNoteTags CaseTables.asciiAndDotted.toLowercase
      (some [longTag ['İ'] [' ', 'b']]) = [longTag dotted [' ']] := by
    rw [normalizeNoteTags_singleton _ (by rw [hfull]; exact hne _ _), htag]
  have hkept_again : normalizeNoteTags CaseTables.asciiAndDotted.toLowercase
      (some [longTag dotted [' ']]) = [longTag dotted []] := by
    rw [normalizeNoteTags_singleton _ (by rw [hcut]; exact hne _ _), hagain]
  have hdiffer : longTag dotted [] ≠ longTag dotted [' '] := fun h =>
    absurd (congrArg List.length (String.ofList_injective h)) (by decide)
  dsimp only
  rw [hkept, hkept_again]
  refine ⟨by simp [longTag, noteTagMaxChars], fun h => hdiffer (singleton_injective h), _,
    mem_singleton_self _, ?_⟩
  intro hmatches
  have hfilters : tagFilters CaseTables.asciiAndDotted.toLowercase
      (some [longTag dotted [' ']]) = some [longTag dotted []] := by
    unfold tagFilters
    rw [hkept_again]
    rfl
  exact hdiffer (mem_singleton.mp (hmatches _ hfilters _ (mem_singleton_self _)))

end Oxydra
