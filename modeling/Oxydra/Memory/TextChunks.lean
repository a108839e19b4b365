import Oxydra.Library.WhitespaceRuns
import Oxydra.Memory.Notes

/-!
# Chunks of a text

`split_text_into_chunks` of `crates/memory/src/indexing.rs` cuts a text into windows of 640
characters that share 96 with the next, and brings the white space of each to a normal form. The
windows start at the multiples of 544 (`chunkLoop_eq`), and every visible part of at most 96
characters lies in one of them, so its normal form is in a chunk (`splitTextIntoChunks_covers`). The
text that is indexed is in normal form itself, and then the part is.
-/

namespace Oxydra

open List Text

variable {chars part : List Char} {start : ℕ}

/-- `INDEX_CHUNK_MAX_CHARS`. -/
def indexChunkMaxChars : ℕ := 640

/-- `INDEX_CHUNK_OVERLAP_CHARS`. -/
def indexChunkOverlapChars : ℕ := 96

/-- `normalize_text_for_indexing`. -/
def normalizeTextForIndexing (input : String) : String := normalizeWhitespace input

/-- The window of a chunk. -/
def chunkWindow (chars : List Char) (start : ℕ) : List Char :=
  (chars.take (min (start + indexChunkMaxChars) chars.length)).drop start

/-- What is pushed for a window: its normal form, unless that is empty. -/
def chunkAt (chars : List Char) (start : ℕ) : Option String :=
  let normalized_chunk := normalizeTextForIndexing (String.ofList (chunkWindow chars start))
  if normalized_chunk = "" then none else some normalized_chunk

/-- The loop of `split_text_into_chunks`, from a start on. -/
def chunkLoop (chars : List Char) (start : ℕ) : List String :=
  if start < chars.length then
    let stop := min (start + indexChunkMaxChars) chars.length
    let next := stop - indexChunkOverlapChars
    if stop = chars.length then (chunkAt chars start).toList
    else if stop ≤ next then (chunkAt chars start).toList
    else (chunkAt chars start).toList ++ chunkLoop chars next
  else []
termination_by chars.length - start
decreasing_by
  have hmax : indexChunkMaxChars = 640 := rfl
  have hoverlap : indexChunkOverlapChars = 96 := rfl
  omega

theorem chunkWindow_eq (chars : List Char) (start : ℕ) :
    chunkWindow chars start = (chars.drop start).take indexChunkMaxChars := by
  rw [chunkWindow, take_drop, ← take_take, take_length]

/-- A window's chunk comes first, if it has one. -/
theorem chunkAt_append (chars : List Char) (start : ℕ) (rest : List String) :
    (if normalizeWhitespace (String.ofList ((chars.drop start).take 640)) = "" then rest
      else normalizeWhitespace (String.ofList ((chars.drop start).take 640)) :: rest) =
      (chunkAt chars start).toList ++ rest := by
  unfold chunkAt normalizeTextForIndexing
  rw [chunkWindow_eq, indexChunkMaxChars]
  dsimp only
  split_ifs <;> rfl

/-- The pieces of a text are those of the loop, which ends before the fuel does. -/
theorem chunksFrom_eq_chunkLoop {fuel : ℕ} (h : chars.length - start ≤ fuel) :
    chunksFrom fuel (chars.drop start) = chunkLoop chars start := by
  induction fuel generalizing start with
  | zero =>
    rw [chunkLoop, if_neg (by omega)]
    rfl
  | succ fuel ih =>
    have hmax : indexChunkMaxChars = 640 := rfl
    have hoverlap : indexChunkOverlapChars = 96 := rfl
    rw [chunkLoop]
    split_ifs with hstart
    · rw [chunksFrom]
      rw [length_drop, drop_drop, chunkAt_append, hmax, hoverlap]
      by_cases hend : min (start + 640) chars.length = chars.length
      · rw [if_pos hend, if_pos (by omega), append_nil]
      · have hnext : min (start + 640) chars.length - 96 = start + (640 - 96) := by omega
        rw [if_neg hend, if_neg (by omega), hnext, if_neg (by omega), ih (by omega)]
    · rw [drop_of_length_le (by omega), chunksFrom]
      rfl

/-- `split_text_into_chunks` as the loop of the source. -/
theorem splitTextIntoChunks_eq_loop (text : String) :
    splitTextIntoChunks text =
      if trim text = "" then [] else chunkLoop (trim text).toList 0 := by
  unfold splitTextIntoChunks
  split_ifs with hempty
  · rw [hempty]
    rfl
  · have hloop : chunksFrom (trim text).toList.length ((trim text).toList.drop 0) =
        chunkLoop (trim text).toList 0 := chunksFrom_eq_chunkLoop (Nat.sub_le _ _)
    exact hloop

/-! ## Windows -/

/-- How far the next window is. -/
def chunkStep : ℕ := indexChunkMaxChars - indexChunkOverlapChars

/-- The starts of the windows from `start` on, of which `more` are followed by another. -/
def chunkStarts (start : ℕ) : ℕ → List ℕ
  | 0 => [start]
  | more + 1 => start :: chunkStarts (start + chunkStep) more

/-- The number of windows that do not reach the end. -/
def windowsBefore (length start : ℕ) : ℕ :=
  (length - start - indexChunkMaxChars + (chunkStep - 1)) / chunkStep

theorem chunkLoop_eq (h : start < chars.length) :
    chunkLoop chars start =
      (chunkStarts start (windowsBefore chars.length start)).filterMap (chunkAt chars) := by
  induction hleft : chars.length - start using Nat.strong_induction_on generalizing start with
  | _ left ih =>
    subst hleft
    rw [chunkLoop, if_pos h]
    dsimp only
    split_ifs with hend hback
    · have hnone : windowsBefore chars.length start = 0 := by
        unfold windowsBefore chunkStep indexChunkMaxChars indexChunkOverlapChars at *
        omega
      rw [hnone, chunkStarts, filterMap_cons, filterMap_nil]
      cases chunkAt chars start <;> rfl
    · unfold indexChunkMaxChars indexChunkOverlapChars at *
      omega
    · have hnext : min (start + indexChunkMaxChars) chars.length - indexChunkOverlapChars =
          start + chunkStep := by
        unfold chunkStep indexChunkMaxChars indexChunkOverlapChars at *
        omega
      have hmore : windowsBefore chars.length start =
          windowsBefore chars.length (start + chunkStep) + 1 := by
        unfold windowsBefore chunkStep indexChunkMaxChars indexChunkOverlapChars at *
        omega
      have hlt : start + chunkStep < chars.length := by
        unfold chunkStep indexChunkMaxChars indexChunkOverlapChars at *
        omega
      have hshorter : chars.length - (start + chunkStep) < chars.length - start := by
        unfold chunkStep indexChunkMaxChars indexChunkOverlapChars at *
        omega
      rw [hnext, ih _ hshorter hlt rfl, hmore, chunkStarts, filterMap_cons]
      cases chunkAt chars start <;> rfl

theorem mem_chunkStarts {start more s : ℕ} :
    s ∈ chunkStarts start more ↔ ∃ k ≤ more, s = start + k * chunkStep := by
  induction more generalizing start with
  | zero => simp [chunkStarts]
  | succ more ih =>
    rw [chunkStarts, mem_cons, ih]
    constructor
    · rintro (rfl | ⟨k, hk, rfl⟩)
      · exact ⟨0, Nat.zero_le _, by omega⟩
      · exact ⟨k + 1, by omega, by rw [Nat.succ_mul]; omega⟩
    · rintro ⟨k, hk, rfl⟩
      cases k with
      | zero => exact .inl (by omega)
      | succ k => exact .inr ⟨k, by omega, by rw [Nat.succ_mul]; omega⟩

/-- The windows are in the order of the text. -/
theorem pairwise_chunkStarts (start more : ℕ) : (chunkStarts start more).Pairwise (· < ·) := by
  induction more generalizing start with
  | zero => exact pairwise_singleton _ _
  | succ more ih =>
    refine pairwise_cons.mpr ⟨fun s hs => ?_, ih _⟩
    obtain ⟨k, -, rfl⟩ := mem_chunkStarts.mp hs
    unfold chunkStep indexChunkMaxChars indexChunkOverlapChars
    omega

/-- A part that is no longer than the overlap lies in one of the windows. -/
theorem exists_window {chars before part after : List Char}
    (hsplit : chars = before ++ part ++ after) (hpart : part ≠ [])
    (hlength : part.length ≤ indexChunkOverlapChars) :
    ∃ start ∈ chunkStarts 0 (windowsBefore chars.length 0), start ≤ before.length ∧
      before.length + part.length ≤ start + indexChunkMaxChars := by
  have hpos := length_pos_iff.mpr hpart
  have htotal : chars.length = before.length + part.length + after.length := by
    rw [hsplit, length_append, length_append]
  -- the last window that starts before the part, or the last one of all
  refine ⟨0 + min (before.length / chunkStep) (windowsBefore chars.length 0) * chunkStep,
    mem_chunkStarts.mpr ⟨_, Nat.min_le_right _ _, rfl⟩, ?_⟩
  unfold windowsBefore chunkStep indexChunkMaxChars indexChunkOverlapChars at *
  omega

/-- What lies between the ends of a window is a part of it. -/
theorem infix_chunkWindow {before part : List Char} (after : List Char)
    (hstart : start ≤ before.length)
    (hstop : before.length + part.length ≤ start + indexChunkMaxChars) :
    part <:+: chunkWindow (before ++ part ++ after) start := by
  have hlength : (before ++ part).length ≤
      min (start + indexChunkMaxChars) (before ++ part ++ after).length := by
    rw [length_append, length_append, length_append]
    omega
  unfold chunkWindow
  rw [take_append, take_of_length_le hlength, append_assoc,
    drop_append_of_le_length hstart, ← append_assoc]
  exact infix_append _ _ _

/-- The chunk of a window holds the normal form of each visible part. -/
theorem chunkAt_of_infix (hpart : part ≠ []) (hvisible : Visible part)
    (h : part <:+: chunkWindow chars start) :
    ∃ chunk, chunkAt chars start = some chunk ∧ squeezed part <:+: chunk.toList := by
  have hinfix : squeezed part <:+: (normalizeTextForIndexing
      (String.ofList (chunkWindow chars start))).toList := by
    rw [normalizeTextForIndexing, toList_normalizeWhitespace, String.toList_ofList]
    exact squeezed_infix hvisible h
  have hne : normalizeTextForIndexing (String.ofList (chunkWindow chars start)) ≠ "" := by
    intro hempty
    rw [hempty] at hinfix
    have hnil := infix_nil.mp hinfix
    exact squeezed_ne_nil hvisible hpart hnil
  exact ⟨_, if_neg hne, hinfix⟩

/-! ## The chunks of a text -/

/-- What the chunks of a text are: those of the loop, which ends; the normal forms of windows of 640
characters at most, in the order of the text, in which every visible part of the text that is no
longer than the overlap is found in its normal form, and as it stands where the text is a normal
form. -/
structure ChunksCover (text : String) : Prop where
  loop : splitTextIntoChunks text =
    if trim text = "" then [] else chunkLoop (trim text).toList 0
  short : ∀ chunk ∈ splitTextIntoChunks text, chunk.toList.length ≤ indexChunkMaxChars
  ordered : ∃ starts : List ℕ, starts.Pairwise (· < ·) ∧
    splitTextIntoChunks text = starts.filterMap (chunkAt (trim text).toList)
  covered : ∀ before part after, (trim text).toList = before ++ part ++ after → part ≠ [] →
    Visible part → part.length ≤ indexChunkOverlapChars →
    ∃ start, ∃ chunk ∈ splitTextIntoChunks text,
      chunkAt (trim text).toList start = some chunk ∧ start ≤ before.length ∧
      before.length + part.length ≤ start + indexChunkMaxChars ∧
      (normalizeTextForIndexing (String.ofList part)).toList <:+: chunk.toList
  normal : ∀ raw, text = normalizeTextForIndexing raw → ∀ part, part <:+: text.toList →
    Visible part → part.length ≤ indexChunkOverlapChars → part ≠ [] →
    ∃ chunk ∈ splitTextIntoChunks text, part <:+: chunk.toList

/-- The chunks of a text are those of its windows. -/
theorem splitTextIntoChunks_eq (text : String) :
    splitTextIntoChunks text = (if trim text = "" then [] else
      chunkStarts 0 (windowsBefore (trim text).toList.length 0)).filterMap
        (chunkAt (trim text).toList) := by
  rw [splitTextIntoChunks_eq_loop]
  split_ifs with hempty
  · rfl
  · refine chunkLoop_eq (length_pos_iff.mpr fun hnil => hempty ?_)
    exact String.toList_injective hnil

theorem length_chunkAt_le {chunk : String} (h : chunkAt chars start = some chunk) :
    chunk.toList.length ≤ indexChunkMaxChars := by
  unfold chunkAt at h
  dsimp only at h
  split_ifs at h
  cases h
  rw [normalizeTextForIndexing, toList_normalizeWhitespace, String.toList_ofList]
  refine (length_squeezed_le _).trans ?_
  rw [chunkWindow, length_drop, length_take]
  omega

/-- A visible part no longer than the overlap is in the chunk of a window around it. -/
theorem exists_chunk {text : String} {before part after : List Char}
    (hsplit : (trim text).toList = before ++ part ++ after) (hpart : part ≠ [])
    (hvisible : Visible part) (hlength : part.length ≤ indexChunkOverlapChars) :
    ∃ start, ∃ chunk ∈ splitTextIntoChunks text,
      chunkAt (trim text).toList start = some chunk ∧ start ≤ before.length ∧
      before.length + part.length ≤ start + indexChunkMaxChars ∧
      squeezed part <:+: chunk.toList := by
  obtain ⟨start, hmem, hstart, hstop⟩ := exists_window hsplit hpart hlength
  have hinfix := infix_chunkWindow after hstart hstop
  rw [← hsplit] at hinfix
  obtain ⟨chunk, hchunk, hfound⟩ := chunkAt_of_infix hpart hvisible hinfix
  have hne : trim text ≠ "" := by
    intro hempty
    rw [hempty] at hsplit
    have hnil := (append_eq_nil_iff.mp hsplit.symm).1
    exact hpart (append_eq_nil_iff.mp hnil).2
  refine ⟨start, chunk, ?_, hchunk, hstart, hstop, hfound⟩
  rw [splitTextIntoChunks_eq, if_neg hne]
  exact mem_filterMap.mpr ⟨start, hmem, hchunk⟩

/-- The chunks of every text cover it. -/
theorem splitTextIntoChunks_covers (text : String) : ChunksCover text where
  loop := splitTextIntoChunks_eq_loop text
  short chunk hchunk := by
    rw [splitTextIntoChunks_eq] at hchunk
    obtain ⟨start, -, hat⟩ := mem_filterMap.mp hchunk
    exact length_chunkAt_le hat
  ordered := by
    refine ⟨_, ?_, splitTextIntoChunks_eq text⟩
    split_ifs
    · exact .nil
    · exact pairwise_chunkStarts _ _
  covered before part after hsplit hpart hvisible hlength := by
    rw [normalizeTextForIndexing, toList_normalizeWhitespace, String.toList_ofList]
    exact exists_chunk hsplit hpart hvisible hlength
  normal raw hraw part hinfix hvisible hlength hpart := by
    have hends : Visible text.toList := hraw ▸ visible_normalizeWhitespace raw
    have hsingle : IsSingle text.toList := by
      rw [hraw, normalizeTextForIndexing, toList_normalizeWhitespace]
      exact isSingle_squeeze _ _
    have hpartSingle : IsSingle part := hsingle.of_infix hinfix
    rw [← trim_of_visible hends] at hinfix
    obtain ⟨before, after, hsplit⟩ := hinfix
    obtain ⟨start, chunk, hchunk, -, -, -, hfound⟩ :=
      exists_chunk hsplit.symm hpart hvisible hlength
    rw [squeezed_of_single hpartSingle hvisible] at hfound
    exact ⟨chunk, hchunk, hfound⟩

/-- Two letters with spaces between them. -/
def lettersApart (n : ℕ) : List Char := 'a' :: (List.replicate n ' ' ++ ['b'])

theorem length_lettersApart (n : ℕ) : (lettersApart n).length = n + 2 := by
  rw [lettersApart, length_cons, length_append, length_replicate,
    length_singleton]

theorem visible_lettersApart (n : ℕ) : Visible (lettersApart n) := by
  refine ⟨visible_of_all rfl, visible_of_all ?_⟩
  rw [lettersApart, ← cons_append, List.getLast?_concat]
  rfl

/-- The letters stand in different windows. -/
theorem chunkWindow_lettersApart {n : ℕ} (h : 639 ≤ n) (h' : n ≤ 1182) :
    chunkWindow (lettersApart n) 0 = 'a' :: (List.replicate 639 ' ' ++ []) ∧
      chunkWindow (lettersApart n) 544 = List.replicate (n - 543) ' ' ++ ['b'] := by
  have hlength := length_lettersApart n
  have hmax : indexChunkMaxChars = 640 := rfl
  have hfirst : min (0 + indexChunkMaxChars) (lettersApart n).length = 639 + 1 := by omega
  have hsecond : min (544 + indexChunkMaxChars) (lettersApart n).length =
      (lettersApart n).length := by omega
  constructor
  · rw [chunkWindow, hfirst, drop_zero, lettersApart, take_succ_cons,
      take_append_of_le_length (by rwa [length_replicate]), take_replicate,
      Nat.min_eq_left h, append_nil]
  · rw [chunkWindow, hsecond, take_length, lettersApart, drop_succ_cons,
      drop_append_of_le_length (by rw [length_replicate]; omega), drop_replicate]

/-- The chunk of a window whose normal form is known. -/
theorem chunkAt_of_squeezed {chars chunk : List Char}
    (h : squeezed (chunkWindow chars start) = chunk) (hne : chunk ≠ []) :
    chunkAt chars start = some (String.ofList chunk) := by
  have hnormal : normalizeTextForIndexing (String.ofList (chunkWindow chars start)) =
      String.ofList chunk := by
    refine String.toList_injective ?_
    rw [normalizeTextForIndexing, toList_normalizeWhitespace, String.toList_ofList,
      String.toList_ofList, h]
  rw [chunkAt, hnormal]
  exact if_neg (by simpa using hne)

/-- Spaces behind a letter leave a gap. -/
theorem squeezed_letter (k : ℕ) (rest : List Char) :
    squeezed ('a' :: (List.replicate (k + 1) ' ' ++ rest)) = 'a' :: squeeze true rest :=
  congrArg ('a' :: ·) (squeeze_spaces k false rest)

/-- Each letter is a chunk. -/
theorem splitTextIntoChunks_lettersApart {n : ℕ} (h : 639 ≤ n) (h' : n ≤ 1182) :
    splitTextIntoChunks (String.ofList (lettersApart n)) = ["a", "b"] := by
  obtain ⟨hfirst, hsecond⟩ := chunkWindow_lettersApart h h'
  have htrim : trim (String.ofList (lettersApart n)) = String.ofList (lettersApart n) :=
    trim_of_visible (by rw [String.toList_ofList]; exact visible_lettersApart n)
  have hne : String.ofList (lettersApart n) ≠ "" := by simp [lettersApart]
  have hmore : windowsBefore (n + 2) 0 = 1 := by
    unfold windowsBefore chunkStep indexChunkMaxChars indexChunkOverlapChars
    omega
  have hstarts : chunkStarts 0 1 = [0, 544] := rfl
  have ha : chunkAt (lettersApart n) 0 = some "a" := by
    refine chunkAt_of_squeezed ?_ (cons_ne_nil 'a' [])
    rw [hfirst, squeezed_letter 638]
    rfl
  have hb : chunkAt (lettersApart n) 544 = some "b" := by
    refine chunkAt_of_squeezed ?_ (cons_ne_nil 'b' [])
    rw [hsecond, squeezed_spaces]
    rfl
  rw [splitTextIntoChunks_eq, htrim, if_neg hne, String.toList_ofList, length_lettersApart, hmore,
    hstarts, filterMap_cons_some ha, filterMap_cons_some hb]
  rfl

/-- The normal form of two letters with 700 spaces between them is short, and in no chunk. -/
theorem lettersApart_not_covered :
    "a b".toList <:+: (normalizeTextForIndexing (String.ofList (lettersApart 700))).toList ∧
      Visible "a b".toList ∧ "a b".toList.length ≤ indexChunkOverlapChars ∧
      ∀ chunk ∈ splitTextIntoChunks (String.ofList (lettersApart 700)),
        ¬"a b".toList <:+: chunk.toList := by
  have hnormal : (normalizeTextForIndexing (String.ofList (lettersApart 700))).toList =
      "a b".toList := by
    have htext : (String.ofList (lettersApart 700)).toList = lettersApart 700 :=
      String.toList_ofList
    rw [normalizeTextForIndexing, toList_normalizeWhitespace, htext, lettersApart]
    exact squeezed_letter 699 ['b']
  refine ⟨?_, ⟨visible_of_all (by decide), visible_of_all (by decide)⟩, by decide, ?_⟩
  · simp only [hnormal, infix_rfl]
  · rw [splitTextIntoChunks_lettersApart (by omega) (by omega)]
    decide

end Oxydra
