import Mathlib.Data.List.Dedup
import Oxydra.Library.TextRuns

/-!
# Scrubbing secrets by their entropy

`redact_high_entropy_tokens` of `crates/runtime/src/scrubbing.rs` replaces each match of
`[A-Za-z0-9+/_-]{24,512}={0,2}` that looks like a secret. A match is not longer than 512 candidate
characters, but `looks_like_secret_token` counts the padding too.

So a run of candidate characters is scanned in blocks of 512, the last one with the padding of the
run, and a last block that is longer than 512 with it is left alone. `redactHighEntropyTokens_iff`:
no run that looks like a secret is left exactly where none of the stretches between the redacted
blocks of a long run does.
-/

namespace Oxydra

open List TextRuns

/-! ## Scrubbing -/

/-- `REDACTION_MARKER`. -/
def redactionMarker : List Char := "[REDACTED]".toList

/-- `MIN_ENTROPY_TOKEN_LENGTH`. -/
def minEntropyTokenLength : ℕ := 24

/-- `MAX_ENTROPY_TOKEN_LENGTH`. -/
def maxEntropyTokenLength : ℕ := 512

/-- A character of the class `[A-Za-z0-9+/_-]`. -/
def isCandidate (c : Char) : Bool := c.isAlphanum || c = '+' || c = '/' || c = '_' || c = '-'

/-- The padding of a run, `={0,2}`. -/
def padding (after : List Char) : List Char := (after.takeWhile (· = '=')).take 2

/-- The match of `high_entropy_candidate_regex` that starts at a place. -/
def candidateAt (text : List Char) : Option (List Char) :=
  let run := (text.takeWhile isCandidate).take 512
  if run.length < 24 then none else some (run ++ padding (text.drop run.length))

/-- A match of `[0-9a-f]{8}-[0-9a-f]{4}-[0-9a-f]{4}-[0-9a-f]{4}-[0-9a-f]{12}`. -/
def isUuid (token : List Char) : Bool :=
  (token.splitOn '-').map List.length = [8, 4, 4, 4, 12] &&
    token.all fun c => c = '-' || c.isDigit || ('a' ≤ c && c ≤ 'f')

/-- `is_known_internal_identifier`. -/
def isKnownInternalIdentifier (token : List Char) : Bool :=
  ("note-".toList.isPrefixOf token && isUuid (token.drop 5)) || isUuid token

/-- `looks_like_filesystem_path`. -/
def looksLikeFilesystemPath (token : List Char) : Bool :=
  token.head? = some '/' && 3 ≤ token.count '/'

section

/- Whether `shannon_entropy` reaches `HIGH_ENTROPY_THRESHOLD`. -/
variable (high_entropy : List Char → Bool)

/-- What `looks_like_secret_token` asks of a token beside its length. -/
def isSecret (token : List Char) : Bool :=
  if isKnownInternalIdentifier token then false
  else if looksLikeFilesystemPath token then false
  else if token.all fun c => c.isDigit || ('a' ≤ c && c ≤ 'f') || ('A' ≤ c && c ≤ 'F') then false
  else
    let has_letter := token.any Char.isAlpha
    let has_digit := token.any Char.isDigit
    let has_symbol := token.any fun c => c ∈ ['+', '/', '=', '_', '-']
    if !(has_letter && (has_digit || has_symbol)) then false
    else if token.dedup.length < 8 then false
    else high_entropy token

/-- `looks_like_secret_token`. -/
def looksLikeSecretToken (token : List Char) : Bool :=
  if token.length < minEntropyTokenLength ∨ maxEntropyTokenLength < token.length then false
  else isSecret high_entropy token

/-- `redact_high_entropy_tokens`. -/
def redactHighEntropyTokens (input : List Char) : List Char :=
  replaceAll candidateAt (fun candidate =>
    if looksLikeSecretToken high_entropy candidate then redactionMarker else candidate) 0 input

end

/-! ## What scrubbing is for -/

/-- A run does not look like a secret, with its padding. -/
def CleanRun (oracle : List Char → Bool) (run after : List Char) : Prop :=
  minEntropyTokenLength ≤ run.length → oracle (run ++ padding after) = false

/-- The secrets are scrubbed: the output is the input with candidates that look like secrets
replaced, and no run of candidate characters is left in it that looks like one. -/
structure Scrubbed (oracle : List Char → Bool) (input output : List Char) : Prop where
  kept : ∃ pieces : List (Bool × List Char), pieces.flatMap Prod.snd = input ∧
    (pieces.flatMap fun piece => if piece.1 then redactionMarker else piece.2) = output ∧
    ∀ piece ∈ pieces, piece.1 = true →
      oracle piece.2 = true ∧ ∃ rest, candidateAt (piece.2 ++ rest) = some piece.2
  clean : EveryRun isCandidate (CleanRun oracle) output

/-- The blocks in which a run is scanned, the last of which has its padding. -/
def blocks (run padding : List Char) : List (List Char) :=
  if run.length ≤ 512 then [run ++ padding] else run.take 512 :: blocks (run.drop 512) padding
termination_by run.length
decreasing_by
  rw [length_drop]
  omega

/-- A block that is redacted. -/
def redacts (oracle : List Char → Bool) (block : List Char) : Bool :=
  minEntropyTokenLength ≤ (block.filter isCandidate).length &&
    block.length ≤ maxEntropyTokenLength && oracle block

/-- A stretch of blocks does not look like a secret. -/
def Refused (oracle : List Char → Bool) (stretch : List (List Char)) : Prop :=
  minEntropyTokenLength ≤ (stretch.flatten.filter isCandidate).length →
    oracle stretch.flatten = false

/-- No stretch of blocks between redacted ones looks like a secret. -/
def StretchesRefused (oracle : List Char → Bool) (run padding : List Char) : Prop :=
  ∀ stretch ∈ (blocks run padding).splitOnP (redacts oracle), Refused oracle stretch

/-! ## Matches -/

/-- The match at the start of a run. -/
theorem candidateAt_run {run rest : List Char} (hall : ∀ c ∈ run, isCandidate c = true)
    (hrest : ∀ c ∈ rest.head?, isCandidate c = false) :
    candidateAt (run ++ rest) =
      if run.length < 24 then none
      else if run.length ≤ 512 then some (run ++ padding rest)
      else some (run.take 512) := by
  unfold candidateAt
  dsimp only
  rw [takeWhile_run hall hrest, length_take]
  by_cases hlong : run.length ≤ 512
  · rw [if_pos hlong, take_of_length_le hlong, Nat.min_eq_right hlong, drop_left]
  · -- behind a block stands another candidate character
    have hdrop : (run ++ rest).drop 512 = run.drop 512 ++ rest :=
      drop_append_of_le_length (by omega)
    have hnone : padding (run.drop 512 ++ rest) = [] := by
      have hne : run.drop 512 ≠ [] := by
        rw [ne_eq, drop_eq_nil_iff]
        omega
      obtain ⟨c, more, hmore⟩ := exists_cons_of_ne_nil hne
      have hc := hall c (mem_of_mem_drop (by rw [hmore]; exact mem_cons_self))
      have hequals : c ≠ '=' := by
        rintro rfl
        exact absurd hc (by decide)
      rw [hmore, cons_append, padding, takeWhile_cons_of_neg (by simp [hequals])]
      rfl
    rw [Nat.min_eq_left (by omega), hdrop, hnone, append_nil, if_neg hlong,
      if_neg (by omega), if_neg (by omega)]

/-- No match starts elsewhere. -/
theorem candidateAt_cons {c : Char} (hc : isCandidate c = false) (rest : List Char) :
    candidateAt (c :: rest) = none := by
  have hrun := @candidateAt_run [] (c :: rest) nofun fun d hd => by
    rwa [← Option.some.inj hd]
  rw [nil_append] at hrun
  rw [hrun, if_pos (by decide)]

theorem candidateAt_spec (text token : List Char) (h : candidateAt text = some token) :
    token ≠ [] ∧ token <+: text := by
  unfold candidateAt at h
  dsimp only at h
  split_ifs at h with hshort
  cases h
  refine ⟨?_, ?_⟩
  · rintro hnil
    rw [(append_eq_nil_iff.mp hnil).1] at hshort
    exact hshort (by decide)
  · have hrun : (text.takeWhile isCandidate).take 512 <+: text :=
      (List.take_prefix _ _).trans (List.takeWhile_prefix _)
    obtain ⟨rest, hrest⟩ := hrun
    generalize (text.takeWhile isCandidate).take 512 = run at hrest
    rw [← hrest, drop_left, prefix_append_right_inj]
    exact (List.take_prefix _ _).trans (List.takeWhile_prefix _)

theorem isCandidate_of_mem_padding {after : List Char} {c : Char} (hc : c ∈ padding after) :
    isCandidate c = false := by
  have hequals := mem_takeWhile_imp (mem_of_mem_take hc)
  rw [of_decide_eq_true hequals]
  decide

section

variable {high_entropy : List Char → Bool}

theorem redactHighEntropyTokens_cons {c : Char} (hc : isCandidate c = false) (rest : List Char) :
    redactHighEntropyTokens high_entropy (c :: rest) =
      c :: redactHighEntropyTokens high_entropy rest :=
  replaceAll_cons _ (candidateAt_cons hc rest)

theorem redactHighEntropyTokens_append {xs : List Char} (hxs : ∀ c ∈ xs, isCandidate c = false)
    (rest : List Char) :
    redactHighEntropyTokens high_entropy (xs ++ rest) =
      xs ++ redactHighEntropyTokens high_entropy rest := by
  induction xs with
  | nil => rfl
  | cons x xs ih =>
    rw [forall_mem_cons] at hxs
    rw [cons_append, redactHighEntropyTokens_cons hxs.1, ih hxs.2]
    rfl

/-- A run that is too short for a match is kept. -/
theorem redactHighEntropyTokens_short {run rest : List Char}
    (hall : ∀ c ∈ run, isCandidate c = true) (hrest : ∀ c ∈ rest.head?, isCandidate c = false)
    (hshort : run.length < 24) :
    redactHighEntropyTokens high_entropy (run ++ rest) =
      run ++ redactHighEntropyTokens high_entropy rest := by
  induction run with
  | nil => rfl
  | cons c run ih =>
    have hnone : candidateAt (c :: run ++ rest) = none := by
      rw [candidateAt_run hall hrest, if_pos hshort]
    rw [forall_mem_cons] at hall
    rw [length_cons] at hshort
    rw [cons_append] at hnone ⊢
    unfold redactHighEntropyTokens at ih ⊢
    rw [replaceAll_cons _ hnone, ih hall.2 (by omega)]
    rfl

/-- A match is replaced where it looks like a secret. -/
theorem redactHighEntropyTokens_match {token rest : List Char}
    (h : candidateAt (token ++ rest) = some token) :
    redactHighEntropyTokens high_entropy (token ++ rest) =
      (if looksLikeSecretToken high_entropy token then redactionMarker else token) ++
        redactHighEntropyTokens high_entropy rest :=
  replaceAll_append _ (candidateAt_spec _ _ h).1 h

/-- What is put out starts with another character where the text does. -/
theorem head_redactHighEntropyTokens {rest : List Char}
    (hrest : ∀ c ∈ rest.head?, isCandidate c = false) :
    ∀ c ∈ (redactHighEntropyTokens high_entropy rest).head?, isCandidate c = false := by
  cases rest with
  | nil => exact nofun
  | cons c rest =>
    rw [redactHighEntropyTokens_cons (hrest c rfl)]
    exact hrest

/-- The equals signs at the start of a text stay there, and no others come before them. -/
theorem padding_redactHighEntropyTokens (text : List Char) :
    padding (redactHighEntropyTokens high_entropy text) = padding text := by
  have htake : (redactHighEntropyTokens high_entropy text).takeWhile (· = '=') =
      text.takeWhile (· = '=') := by
    induction text with
    | nil => rfl
    | cons c rest ih =>
      cases hc : isCandidate c with
      | false =>
        rw [redactHighEntropyTokens_cons hc, takeWhile_cons, takeWhile_cons, ih]
      | true =>
        have hequals : c ≠ '=' := by
          rintro rfl
          exact absurd hc (by decide)
        rw [takeWhile_cons_of_neg (by simp [hequals])]
        -- the output starts with the character, or with the marker
        unfold redactHighEntropyTokens
        cases hfound : candidateAt (c :: rest) with
        | none =>
          rw [replaceAll_cons _ hfound]
          exact takeWhile_cons_of_neg (by simp [hequals])
        | some token =>
          obtain ⟨hne, behind, hbehind⟩ := candidateAt_spec _ _ hfound
          obtain ⟨d, token, rfl⟩ := exists_cons_of_ne_nil hne
          obtain ⟨rfl, -⟩ := List.cons.inj hbehind
          rw [← hbehind] at hfound ⊢
          rw [replaceAll_append _ hne hfound]
          split_ifs
          · exact takeWhile_cons_of_neg (by decide)
          · exact takeWhile_cons_of_neg (by simp [hequals])
  rw [padding, htake]
  rfl

/-! ## Runs of the output -/

variable {oracle : List Char → Bool}

/-- The marker is not a run that counts, and ends the one before it. -/
theorem everyRun_marker_iff (text : List Char) :
    EveryRun isCandidate (CleanRun oracle) (redactionMarker ++ text) ↔
      EveryRun isCandidate (CleanRun oracle) text := by
  have hmarker : redactionMarker = '[' :: ("REDACTED".toList ++ [']']) := rfl
  have hword : ∀ c ∈ "REDACTED".toList, isCandidate c = true := all_eq_true.mp (by decide)
  have hclean : CleanRun oracle "REDACTED".toList (']' :: text) := fun h =>
    absurd h (by decide)
  rw [hmarker, cons_append, everyRun_cons_iff (by decide), append_assoc,
    singleton_append, everyRun_append_iff (by decide) hword (by simp; decide),
    and_iff_right hclean, everyRun_cons_iff (by decide)]

/-- Candidate characters before other text. -/
theorem everyRun_candidates_iff {xs text : List Char} (hall : ∀ c ∈ xs, isCandidate c = true)
    (htext : ∀ c ∈ text.head?, isCandidate c = false) :
    EveryRun isCandidate (CleanRun oracle) (xs ++ text) ↔
      CleanRun oracle xs text ∧ EveryRun isCandidate (CleanRun oracle) text := by
  by_cases hnil : xs = []
  · have hclean : CleanRun oracle xs text := fun h => by
      rw [hnil] at h
      exact absurd h (by decide)
    rw [and_iff_right hclean, hnil]
    rfl
  · exact everyRun_append_iff hnil hall htext

theorem filter_candidates {xs pad : List Char} (hall : ∀ c ∈ xs, isCandidate c = true)
    (hpad : ∀ c ∈ pad, isCandidate c = false) : (xs ++ pad).filter isCandidate = xs := by
  rw [filter_append, filter_eq_self.mpr hall,
    filter_eq_nil_iff.mpr fun c hc => by simp [hpad c hc], append_nil]

/-- A stretch without padding, before a marker. -/
theorem refused_iff_cleanRun {front : List (List Char)}
    (hall : ∀ c ∈ front.flatten, isCandidate c = true) (text : List Char) :
    Refused oracle front ↔ CleanRun oracle front.flatten (redactionMarker ++ text) := by
  have hfilter := @filter_candidates front.flatten [] hall nofun
  rw [append_nil] at hfilter
  have hpad : padding (redactionMarker ++ text) = [] := rfl
  rw [Refused, CleanRun, hfilter, hpad, append_nil]

/-- The marker ends the stretch in front of it. -/
theorem everyRun_front_iff {front : List (List Char)}
    (hall : ∀ c ∈ front.flatten, isCandidate c = true) (text : List Char) :
    EveryRun isCandidate (CleanRun oracle) (front.flatten ++ (redactionMarker ++ text)) ↔
      Refused oracle front ∧ EveryRun isCandidate (CleanRun oracle) text := by
  have hhead : ∀ c ∈ (redactionMarker ++ text).head?, isCandidate c = false := by
    intro c hc
    obtain rfl : '[' = c := Option.some.inj hc
    decide
  rw [everyRun_candidates_iff hall hhead, everyRun_marker_iff, refused_iff_cleanRun hall]

/-- A stretch with the padding of its run. -/
theorem refused_concat_iff_cleanRun {front : List (List Char)} {run rest : List Char}
    (hall : ∀ c ∈ front.flatten, isCandidate c = true) (hrun : ∀ c ∈ run, isCandidate c = true) :
    Refused oracle (front ++ [run ++ padding rest]) ↔
      CleanRun oracle (front.flatten ++ run) rest := by
  have hboth : ∀ c ∈ front.flatten ++ run, isCandidate c = true := fun c hc =>
    (mem_append.mp hc).elim (hall c) (hrun c)
  have hfilter := filter_candidates hboth fun c => @isCandidate_of_mem_padding rest c
  rw [Refused, CleanRun, flatten_append, flatten_singleton, ← append_assoc, hfilter]

theorem padding_append (rest : List Char) :
    padding rest ++ rest.drop (padding rest).length = rest :=
  prefix_iff_eq_append.mp ((List.take_prefix _ _).trans (List.takeWhile_prefix _))

/-- A candidate is replaced where its block is redacted. -/
theorem looksLikeSecretToken_eq_redacts {run pad : List Char}
    (hrun : ∀ c ∈ run, isCandidate c = true) (hpad : ∀ c ∈ pad, isCandidate c = false)
    (hmin : 24 ≤ run.length) :
    looksLikeSecretToken high_entropy (run ++ pad) =
      redacts (isSecret high_entropy) (run ++ pad) := by
  unfold looksLikeSecretToken redacts
  rw [filter_candidates hrun hpad]
  have hlength : ¬(run ++ pad).length < minEntropyTokenLength := by
    rw [length_append]
    unfold minEntropyTokenLength
    omega
  rw [decide_eq_true (show minEntropyTokenLength ≤ run.length from hmin), Bool.true_and]
  by_cases hmax : maxEntropyTokenLength < (run ++ pad).length
  · rw [if_pos (.inr hmax), decide_eq_false (Nat.not_le.mpr hmax), Bool.false_and]
  · rw [if_neg (not_or.mpr ⟨hlength, hmax⟩), decide_eq_true (Nat.not_lt.mp hmax), Bool.true_and]

/-- The last block of a run, with the padding. -/
theorem redactHighEntropyTokens_last {run rest : List Char}
    (hrun : ∀ c ∈ run, isCandidate c = true) (hrest : ∀ c ∈ rest.head?, isCandidate c = false)
    (hmax : run.length ≤ 512) :
    redactHighEntropyTokens high_entropy (run ++ rest) =
      if redacts (isSecret high_entropy) (run ++ padding rest) then
        redactionMarker ++ redactHighEntropyTokens high_entropy (rest.drop (padding rest).length)
      else run ++ redactHighEntropyTokens high_entropy rest := by
  have hpad : ∀ c ∈ padding rest, isCandidate c = false := fun c => isCandidate_of_mem_padding
  by_cases hmin : 24 ≤ run.length
  · have hmatch : candidateAt ((run ++ padding rest) ++ rest.drop (padding rest).length) =
        some (run ++ padding rest) := by
      rw [append_assoc, padding_append, candidateAt_run hrun hrest, if_neg (by omega),
        if_pos hmax]
    have hreplaced := @redactHighEntropyTokens_match high_entropy _ _ hmatch
    rw [append_assoc, padding_append,
      looksLikeSecretToken_eq_redacts hrun hpad hmin] at hreplaced
    rw [hreplaced]
    split_ifs
    · rfl
    · rw [append_assoc, ← redactHighEntropyTokens_append hpad, padding_append]
  · have hshort : redacts (isSecret high_entropy) (run ++ padding rest) = false := by
      unfold redacts
      rw [filter_candidates hrun hpad]
      simp [minEntropyTokenLength, hmin]
    rw [hshort, redactHighEntropyTokens_short hrun hrest (by omega)]
    rfl

/-- A block in front of others. -/
theorem redactHighEntropyTokens_block {run rest : List Char}
    (hrun : ∀ c ∈ run, isCandidate c = true) (hrest : ∀ c ∈ rest.head?, isCandidate c = false)
    (hlong : ¬run.length ≤ 512) :
    redactHighEntropyTokens high_entropy (run ++ rest) =
      (if redacts (isSecret high_entropy) (run.take 512) then redactionMarker else run.take 512) ++
        redactHighEntropyTokens high_entropy (run.drop 512 ++ rest) := by
  have hmatch : candidateAt (run.take 512 ++ (run.drop 512 ++ rest)) = some (run.take 512) := by
    rw [← append_assoc, take_append_drop, candidateAt_run hrun hrest,
      if_neg (by omega), if_neg hlong]
  have hreplaced := @redactHighEntropyTokens_match high_entropy _ _ hmatch
  have hlooks := @looksLikeSecretToken_eq_redacts high_entropy (run.take 512) []
    (fun c hc => hrun c (mem_of_mem_take hc)) nofun (by rw [length_take]; omega)
  rw [append_nil] at hlooks
  rw [← append_assoc, take_append_drop, hlooks] at hreplaced
  exact hreplaced

/-- A run, behind blocks of it that are left, leaves the stretches between its redacted blocks. -/
theorem everyRun_scrubbed_iff (n : ℕ) {front : List (List Char)} {run rest : List Char}
    (hn : run.length = n) (hfront : ∀ block ∈ front, redacts (isSecret high_entropy) block = false)
    (hall : ∀ c ∈ front.flatten, isCandidate c = true) (hrun : ∀ c ∈ run, isCandidate c = true)
    (hrest : ∀ c ∈ rest.head?, isCandidate c = false) :
    EveryRun isCandidate (CleanRun (isSecret high_entropy))
        (front.flatten ++ redactHighEntropyTokens high_entropy (run ++ rest)) ↔
      (∀ stretch ∈ (front ++ blocks run (padding rest)).splitOnP
        (redacts (isSecret high_entropy)), Refused (isSecret high_entropy) stretch) ∧
      EveryRun isCandidate (CleanRun (isSecret high_entropy))
        (redactHighEntropyTokens high_entropy rest) := by
  induction n using Nat.strong_induction_on generalizing front run with
  | _ n ih =>
    -- the run is the last block, or its first 512 characters are one
    by_cases hlong : run.length ≤ 512
    · have hblocks : blocks run (padding rest) = [run ++ padding rest] := by
        rw [blocks, if_pos hlong]
      rw [hblocks, redactHighEntropyTokens_last hrun hrest hlong]
      cases hredacts : redacts (isSecret high_entropy) (run ++ padding rest) with
      | true =>
        have hempty : Refused (isSecret high_entropy) [] := fun h => absurd h (by decide)
        have hbehind := @redactHighEntropyTokens_append high_entropy (padding rest)
          (fun c => isCandidate_of_mem_padding) (rest.drop (padding rest).length)
        rw [padding_append] at hbehind
        rw [splitOnP_append_cons_of_forall_mem hfront _ hredacts, if_pos rfl,
          everyRun_front_iff hall, hbehind,
          everyRun_append_of_none fun c => isCandidate_of_mem_padding]
        simp [hempty]
      | false =>
        have hnone : ∀ block ∈ front ++ [run ++ padding rest],
            redacts (isSecret high_entropy) block = false := by
          intro block hblock
          rcases mem_append.mp hblock with hold | hnew
          · exact hfront block hold
          · rwa [mem_singleton.mp hnew]
        have hboth : ∀ c ∈ front.flatten ++ run, isCandidate c = true := fun c hc =>
          (mem_append.mp hc).elim (hall c) (hrun c)
        rw [splitOnP_eq_singleton hnone, if_neg Bool.false_ne_true, ← append_assoc,
          everyRun_candidates_iff hboth (head_redactHighEntropyTokens hrest),
          forall_mem_singleton, refused_concat_iff_cleanRun hall hrun, CleanRun, CleanRun,
          padding_redactHighEntropyTokens]
    · have hblocks : blocks run (padding rest) =
          run.take 512 :: blocks (run.drop 512) (padding rest) := by
        rw [blocks, if_neg hlong]
      have htake : ∀ c ∈ run.take 512, isCandidate c = true := fun c hc =>
        hrun c (mem_of_mem_take hc)
      have hdrop : ∀ c ∈ run.drop 512, isCandidate c = true := fun c hc =>
        hrun c (mem_of_mem_drop hc)
      have hless : (run.drop 512).length < n := by
        rw [length_drop]
        omega
      rw [hblocks, redactHighEntropyTokens_block hrun hrest hlong]
      cases hredacts : redacts (isSecret high_entropy) (run.take 512) with
      | true =>
        have hlater := @ih _ hless [] (run.drop 512) rfl nofun nofun hdrop
        rw [splitOnP_append_cons_of_forall_mem hfront _ hredacts, if_pos rfl,
          everyRun_front_iff hall, forall_mem_cons, and_assoc]
        exact and_congr_right fun _ => hlater
      | false =>
        have hnone : ∀ block ∈ front ++ [run.take 512],
            redacts (isSecret high_entropy) block = false := by
          intro block hblock
          rcases mem_append.mp hblock with hold | hnew
          · exact hfront block hold
          · rwa [mem_singleton.mp hnew]
        have hflatten : (front ++ [run.take 512]).flatten = front.flatten ++ run.take 512 := by
          rw [flatten_append, flatten_singleton]
        have hboth : ∀ c ∈ (front ++ [run.take 512]).flatten, isCandidate c = true := by
          rw [hflatten]
          exact fun c hc => (mem_append.mp hc).elim (hall c) (htake c)
        have hlater := ih _ hless rfl hnone hboth hdrop
        rw [hflatten, append_assoc, append_assoc] at hlater
        rw [if_neg Bool.false_ne_true]
        exact hlater

/-- The runs of the output do not look like secrets exactly where no stretch between the redacted
blocks of a run of the input does. -/
theorem everyRun_redacted_iff (n : ℕ) {text : List Char} (hn : text.length = n) :
    EveryRun isCandidate (CleanRun (isSecret high_entropy))
        (redactHighEntropyTokens high_entropy text) ↔
      EveryRun isCandidate (fun run after =>
        StretchesRefused (isSecret high_entropy) run (padding after)) text := by
  induction n using Nat.strong_induction_on generalizing text with
  | _ n ih =>
    cases htext : text with
    | nil => exact iff_of_true everyRun_nil everyRun_nil
    | cons c rest =>
      rw [htext, length_cons] at hn
      cases hc : isCandidate c with
      | false =>
        rw [redactHighEntropyTokens_cons hc, everyRun_cons_iff hc, everyRun_cons_iff hc]
        exact ih rest.length (by omega) rfl
      | true =>
        obtain ⟨run, after, hsplit, hne, hall, hafter⟩ : ∃ run after, c :: rest = run ++ after ∧
            run ≠ [] ∧ (∀ d ∈ run, isCandidate d = true) ∧
              ∀ d ∈ after.head?, isCandidate d = false := by
          refine ⟨(c :: rest).takeWhile isCandidate, (c :: rest).dropWhile isCandidate,
            takeWhile_append_dropWhile.symm, ?_, fun d => mem_takeWhile_imp, ?_⟩
          · rw [takeWhile_cons_of_pos hc]
            exact cons_ne_nil _ _
          · intro d hd
            have hnot := List.head?_dropWhile_not isCandidate (c :: rest)
            rw [Option.mem_def.mp hd] at hnot
            exact hnot
        have hlength := congrArg List.length hsplit
        have hpos := length_pos_iff.mpr hne
        rw [length_cons, length_append] at hlength
        have hrun := @everyRun_scrubbed_iff high_entropy run.length [] run after rfl nofun nofun
          hall hafter
        rw [hsplit, everyRun_append_iff hne hall hafter, ← ih after.length (by omega) rfl]
        exact hrun

/-- A run that fits into a candidate with its padding is redacted where it looks like a secret. -/
theorem stretchesRefused_of_short {run pad : List Char}
    (hshort : run.length + pad.length ≤ 512) :
    StretchesRefused oracle run pad := by
  unfold StretchesRefused
  rw [blocks, if_pos (by omega)]
  intro stretch hstretch hmin
  cases hredacts : redacts oracle (run ++ pad) with
  | true =>
    rw [splitOnP_cons_eq_if_modifyHead, if_pos hredacts] at hstretch
    have hnil : stretch = [] := by simpa using hstretch
    rw [hnil] at hmin
    exact absurd hmin (by decide)
  | false =>
    rw [splitOnP_eq_singleton (by simpa using hredacts), mem_singleton] at hstretch
    rw [hstretch, flatten_singleton] at hmin ⊢
    rw [redacts, decide_eq_true hmin, Bool.true_and, length_append,
      decide_eq_true (show run.length + pad.length ≤ maxEntropyTokenLength from hshort),
      Bool.true_and] at hredacts
    exact hredacts

end

/-- What is kept is the text outside of the redacted candidates. -/
theorem redactHighEntropyTokens_kept (high_entropy : List Char → Bool) (input : List Char) :
    ∃ pieces : List (Bool × List Char), pieces.flatMap Prod.snd = input ∧
      (pieces.flatMap fun piece => if piece.1 then redactionMarker else piece.2) =
        redactHighEntropyTokens high_entropy input ∧
      ∀ piece ∈ pieces, piece.1 = true → isSecret high_entropy piece.2 = true ∧
        ∃ rest, candidateAt (piece.2 ++ rest) = some piece.2 := by
  obtain ⟨pieces, htext, hreplaced, hmatches⟩ := exists_pieces (fun candidate =>
    if looksLikeSecretToken high_entropy candidate then redactionMarker else candidate)
    candidateAt_spec input
  refine ⟨pieces.map fun piece =>
    (piece.1 && looksLikeSecretToken high_entropy piece.2, piece.2), ?_, ?_, ?_⟩
  · rw [flatMap_map, ← htext]
  · rw [flatMap_map, redactHighEntropyTokens, ← hreplaced]
    congr 1
    funext piece
    cases piece.1 <;> simp
  · intro piece hpiece hredacted
    obtain ⟨original, horiginal, rfl⟩ := mem_map.mp hpiece
    obtain ⟨hmatched, hlooks⟩ := Bool.and_eq_true_iff.mp hredacted
    refine ⟨?_, hmatches original horiginal hmatched⟩
    unfold looksLikeSecretToken at hlooks
    split_ifs at hlooks
    exact hlooks

/-- The secrets are scrubbed exactly where no stretch between the redacted blocks of a run looks
like one, of each run that is longer than a candidate may be with its padding. -/
theorem redactHighEntropyTokens_iff (high_entropy : List Char → Bool) (input : List Char) :
    Scrubbed (isSecret high_entropy) input (redactHighEntropyTokens high_entropy input) ↔
      EveryRun isCandidate (fun run after =>
        maxEntropyTokenLength < run.length + (padding after).length →
          StretchesRefused (isSecret high_entropy) run (padding after)) input := by
  constructor
  · intro hscrubbed before run after heq hrun _
    exact (everyRun_redacted_iff _ rfl).mp hscrubbed.clean before run after heq hrun
  · intro hruns
    refine ⟨redactHighEntropyTokens_kept high_entropy input, (everyRun_redacted_iff _ rfl).mpr ?_⟩
    intro before run after heq hrun
    by_cases hlong : maxEntropyTokenLength < run.length + (padding after).length
    · exact hruns before run after heq hrun hlong
    · exact stretchesRefused_of_short (Nat.not_lt.mp hlong)

/-- A run of 512 characters. -/
def longRun : List Char := (List.replicate 16 "A1b2C3d4E5f6G7h8I9j0K1l2M3n4O5p6".toList).flatten

set_option maxRecDepth 20000 in
/-- A run that is longer than a candidate with its padding is left. -/
theorem padded_run_not_scrubbed :
    ¬Scrubbed (isSecret fun _ => true) (longRun ++ ['='])
      (redactHighEntropyTokens (fun _ => true) (longRun ++ ['='])) := by
  intro hscrubbed
  have hall : ∀ c ∈ longRun, isCandidate c = true := all_eq_true.mp (by decide)
  have hruns := (everyRun_redacted_iff _ rfl).mp hscrubbed.clean
  have hrefused : StretchesRefused (isSecret fun _ => true) longRun (padding ['=']) :=
    hruns [] longRun ['='] rfl ⟨by decide, hall, nofun, fun c hc => Option.some.inj hc ▸ rfl⟩
  have hblocks : blocks longRun (padding ['=']) = [longRun ++ ['=']] := by
    rw [blocks, if_pos (by decide)]
    rfl
  have hleft : redacts (isSecret fun _ => true) (longRun ++ ['=']) = false := by
    have hlength : ¬(longRun ++ ['=']).length ≤ maxEntropyTokenLength := by decide
    rw [redacts, decide_eq_false hlength, Bool.and_false, Bool.false_and]
  have hsecret : isSecret (fun _ => true) (longRun ++ ['=']) = true := by decide
  unfold StretchesRefused at hrefused
  rw [hblocks, splitOnP_eq_singleton (by simpa using hleft),
    forall_mem_singleton, Refused, flatten_singleton,
    filter_candidates hall (forall_mem_singleton.mpr rfl)] at hrefused
  rw [hrefused (by decide)] at hsecret
  exact nomatch hsecret

end Oxydra
