import Mathlib.Data.List.TakeWhile
import Oxydra.Channels.ProactiveDelivery
import Oxydra.Library.CharBoundary

/-!
# Splitting a message

`split_message` of `crates/channels/src/telegram.rs` cuts a text that is longer than a message into
chunks. A round takes the first `max_len` bytes of what remains, cuts at the last paragraph break of
them, or at the last newline, or at the last space, or at their end, and drops the newlines behind
the cut.

`splitMessage_iff`: the chunks are what a caller can send exactly where the text is not empty and
each window that a round takes ends between two characters and does not start with the break it is
cut at. A window that ends inside a character is a panic, and one that is cut at its start is an
empty chunk, and is met again in the next round where it starts with a space.
-/

namespace Oxydra

open List Text

/-! ## Cuts -/

/-- Where a window is cut, in characters. -/
def splitPos (window : List Char) : ℕ :=
  (((rfind ['\n', '\n'] window).or (rfind ['\n'] window)).or (rfind [' '] window)).getD
    window.length

/-- The chunk that a round cuts off. -/
def chunkBefore (window remaining : String) : String :=
  String.ofList (remaining.toList.take (splitPos window.toList))

/-- What remains behind the chunk and the newlines. -/
def remainsAfter (window remaining : String) : String :=
  trimStartMatches '\n' (String.ofList (remaining.toList.drop (splitPos window.toList)))

theorem splitFrom_long {max_len : ℕ} {remaining window : String}
    (hlong : max_len < remaining.utf8ByteSize) (hwindow : sliceTo max_len remaining = some window)
    (rounds : ℕ) :
    splitFrom max_len (rounds + 1) remaining =
      (splitFrom max_len rounds (remainsAfter window remaining)).map
        (chunkBefore window remaining :: ·) := by
  rw [splitFrom, if_pos hlong, hwindow]
  rfl

theorem splitFrom_short {max_len : ℕ} {remaining : String}
    (hshort : ¬max_len < remaining.utf8ByteSize) (rounds : ℕ) :
    splitFrom max_len (rounds + 1) remaining =
      if remaining = "" then some [] else some [remaining] := by
  rw [splitFrom, if_neg hshort]

/-- The break that a window is cut at is its start: a paragraph break, a newline or a space that has
none behind it, and none of the breaks that come before it in the search. -/
def BreaksAtStart (window : List Char) : Prop :=
  (∃ rest, window = '\n' :: '\n' :: rest ∧ ¬['\n', '\n'] <:+: '\n' :: rest) ∨
    (∃ rest, window = '\n' :: rest ∧ '\n' ∉ rest) ∨
    ∃ rest, window = ' ' :: rest ∧ ' ' ∉ rest ∧ '\n' ∉ rest

theorem splitPos_le (window : List Char) : splitPos window ≤ window.length := by
  have hle : ∀ pattern, ∀ i ∈ rfind pattern window, i ≤ window.length := fun pattern i hi =>
    (prefix_of_rfind hi).2
  unfold splitPos
  cases hparagraph : rfind ['\n', '\n'] window with
  | some i => exact hle _ i hparagraph
  | none =>
    cases hnewline : rfind ['\n'] window with
    | some i => exact hle _ i hnewline
    | none =>
      cases hspace : rfind [' '] window with
      | some i => exact hle _ i hspace
      | none => exact le_refl _

/-- A single character is found where it stands. -/
theorem rfind_singleton_eq_none_iff {c : Char} {cs : List Char} : rfind [c] cs = none ↔ c ∉ cs := by
  rw [rfind_eq_none_iff (cons_ne_nil c [])]
  exact not_congr (singleton_infix_iff c cs)

theorem rfind_singleton_eq_zero_iff {c d : Char} {cs : List Char} :
    rfind [c] (d :: cs) = some 0 ↔ d = c ∧ c ∉ cs := by
  rw [rfind_eq_zero_iff (cons_ne_nil c []), singleton_infix_iff]
  simp [cons_prefix_cons, eq_comm]

theorem rfind_paragraph_eq_zero_iff {d : Char} {cs : List Char} :
    rfind ['\n', '\n'] (d :: cs) = some 0 ↔
      ∃ rest, d :: cs = '\n' :: '\n' :: rest ∧ ¬['\n', '\n'] <:+: '\n' :: rest := by
  rw [rfind_eq_zero_iff (by simp)]
  constructor
  · rintro ⟨⟨rest, hrest⟩, hlast⟩
    cases hrest
    exact ⟨rest, rfl, hlast⟩
  · rintro ⟨rest, hrest, hlast⟩
    cases hrest
    exact ⟨⟨rest, rfl⟩, hlast⟩

/-- A window is cut at its start where it starts with its break. -/
theorem splitPos_eq_zero_iff {window : List Char} (hne : window ≠ []) :
    splitPos window = 0 ↔ BreaksAtStart window := by
  obtain ⟨d, cs, rfl⟩ := exists_cons_of_ne_nil hne
  have hbreaks : BreaksAtStart (d :: cs) ↔ rfind ['\n', '\n'] (d :: cs) = some 0 ∨
      rfind ['\n'] (d :: cs) = some 0 ∨ rfind [' '] (d :: cs) = some 0 ∧ '\n' ∉ cs := by
    rw [rfind_paragraph_eq_zero_iff, rfind_singleton_eq_zero_iff, rfind_singleton_eq_zero_iff]
    simp [BreaksAtStart, and_assoc]
  rw [hbreaks]
  unfold splitPos
  cases hparagraph : rfind ['\n', '\n'] (d :: cs) with
  | some i =>
    -- two newlines, so neither a newline nor a space is the only break
    have htwo : ['\n', '\n'] <:+: d :: cs := by
      by_contra hout
      rw [(rfind_eq_none_iff (by simp)).mpr hout] at hparagraph
      exact absurd hparagraph (by simp)
    have hnewline : '\n' ∈ cs := by
      rcases infix_cons_iff.mp htwo with hstart | hin
      · exact (cons_prefix_cons.mp hstart).2.subset mem_cons_self
      · exact hin.subset mem_cons_self
    simp [rfind_singleton_eq_zero_iff, hnewline]
  | none =>
    cases hnewline : rfind ['\n'] (d :: cs) with
    | some i =>
      have hin : '\n' ∈ d :: cs := by
        by_contra hout
        rw [rfind_singleton_eq_none_iff.mpr hout] at hnewline
        exact absurd hnewline (by simp)
      have hspace : ¬(rfind [' '] (d :: cs) = some 0 ∧ '\n' ∉ cs) := by
        rw [rfind_singleton_eq_zero_iff]
        rintro ⟨⟨rfl, -⟩, hnone⟩
        simp [hnone] at hin
      simp [hspace]
    | none =>
      have hnone : '\n' ∉ cs := fun h =>
        rfind_singleton_eq_none_iff.mp hnewline (mem_cons_of_mem d h)
      cases rfind [' '] (d :: cs) with
      | some i => simp [hnone]
      | none => simp

/-! ## Chunks that a caller can send -/

/-- A text is its chunks with newlines behind each of them. -/
inductive Rejoins : List Char → List String → Prop where
  | nil : Rejoins [] []
  | cons {chunk : String} {gap rest : List Char} {chunks : List String} :
      (∀ c ∈ gap, c = '\n') → Rejoins rest chunks →
      Rejoins (chunk.toList ++ gap ++ rest) (chunk :: chunks)

/-- The message is split, no chunk is empty or longer than a message, and the text is the chunks
with nothing but newlines left out behind them. -/
def SplitsWell (max_len : ℕ) (text : String) : Prop :=
  ∃ chunks, splitMessage text max_len = some chunks ∧
    (∀ chunk ∈ chunks, chunk ≠ "" ∧ chunk.utf8ByteSize ≤ max_len) ∧ Rejoins text.toList chunks

/-- One round leads from what remains before it to what remains behind it. -/
def Cuts (max_len : ℕ) (remaining rest : String) : Prop :=
  max_len < remaining.utf8ByteSize ∧
    ∃ window, sliceTo max_len remaining = some window ∧ rest = remainsAfter window remaining

/-- Where a round has more than a message, its first `max_len` bytes end between two characters and
do not start with the break that they are cut at. -/
def WindowFits (max_len : ℕ) (remaining : String) : Prop :=
  max_len < remaining.utf8ByteSize →
    ∃ window, sliceTo max_len remaining = some window ∧ ¬BreaksAtStart window.toList

/-- The text is not empty, and the windows of all rounds fit. -/
def CutsWell (max_len : ℕ) (text : String) : Prop :=
  text ≠ "" ∧ ∀ remaining, Relation.ReflTransGen (Cuts max_len) text remaining →
    WindowFits max_len remaining

section

variable {max_len : ℕ} {remaining window : String}

/-- What remains before a round is the chunk, newlines, and what remains behind it. -/
theorem exists_gap (window remaining : String) :
    ∃ gap : List Char, (∀ c ∈ gap, c = '\n') ∧
      remaining.toList = (chunkBefore window remaining).toList ++ gap ++
        (remainsAfter window remaining).toList := by
  refine ⟨(remaining.toList.drop (splitPos window.toList)).takeWhile (· == '\n'), fun c hc => ?_,
    ?_⟩
  · simpa using mem_takeWhile_imp hc
  · rw [chunkBefore, remainsAfter, trimStartMatches, String.toList_ofList, String.toList_ofList,
      String.toList_ofList, append_assoc, takeWhile_append_dropWhile,
      take_append_drop]

/-- A chunk is a part of its window. -/
theorem chunkBefore_prefix (hwindow : sliceTo max_len remaining = some window) :
    ∃ tail, window.toList = (chunkBefore window remaining).toList ++ tail := by
  obtain ⟨tail, rfl, -⟩ := sliceTo_eq_some_iff.mp hwindow
  refine ⟨window.toList.drop (splitPos window.toList), ?_⟩
  rw [chunkBefore, String.toList_ofList, String.toList_append,
    take_append_of_le_length (splitPos_le _), take_append_drop]

theorem chunkBefore_size (hwindow : sliceTo max_len remaining = some window) :
    (chunkBefore window remaining).utf8ByteSize ≤ max_len := by
  obtain ⟨tail, htail⟩ := chunkBefore_prefix hwindow
  obtain ⟨-, -, hsize⟩ := sliceTo_eq_some_iff.mp hwindow
  have hparts : window = chunkBefore window remaining ++ String.ofList tail := by
    refine String.toList_injective ?_
    rw [htail, String.toList_append, String.toList_ofList]
  rw [← hsize]
  conv_rhs => rw [hparts, String.utf8ByteSize_append]
  exact Nat.le_add_right _ _

/-- A chunk is empty exactly where its window starts with its break. -/
theorem chunkBefore_eq_empty_iff (hpos : 0 < max_len)
    (hwindow : sliceTo max_len remaining = some window) :
    chunkBefore window remaining = "" ↔ BreaksAtStart window.toList := by
  obtain ⟨tail, hremaining, hsize⟩ := sliceTo_eq_some_iff.mp hwindow
  have hne : window.toList ≠ [] := by
    intro hnil
    have hempty : window = "" := String.toList_injective hnil
    rw [hempty] at hsize
    exact absurd hsize (Nat.ne_of_lt hpos)
  have hremains : remaining.toList ≠ [] := by
    rw [hremaining, String.toList_append]
    exact append_ne_nil_of_left_ne_nil hne _
  rw [← splitPos_eq_zero_iff hne, chunkBefore, String.ofList_eq_empty_iff, take_eq_nil_iff]
  simp [hremains]

/-- Each round that cuts off a chunk shortens what remains. -/
theorem remainsAfter_length (hchunk : chunkBefore window remaining ≠ "") :
    (remainsAfter window remaining).toList.length < remaining.toList.length := by
  obtain ⟨gap, -, hparts⟩ := exists_gap window remaining
  have hlen : (chunkBefore window remaining).toList.length ≠ 0 := fun h =>
    hchunk (String.toList_injective (length_eq_zero_iff.mp h))
  rw [hparts]
  simp only [length_append]
  omega

end

/-- Rounds whose windows fit end, and cut what remains into chunks. -/
theorem splitFrom_of_fits {max_len : ℕ} (hpos : 0 < max_len) (rounds : ℕ) (remaining : String)
    (hrounds : remaining.toList.length < rounds)
    (hfits : ∀ later, Relation.ReflTransGen (Cuts max_len) remaining later →
      WindowFits max_len later) :
    ∃ chunks, splitFrom max_len rounds remaining = some chunks ∧
      (∀ chunk ∈ chunks, chunk ≠ "" ∧ chunk.utf8ByteSize ≤ max_len) ∧
      Rejoins remaining.toList chunks := by
  induction rounds generalizing remaining with
  | zero => exact absurd hrounds (Nat.not_lt_zero _)
  | succ rounds ih =>
    by_cases hlong : max_len < remaining.utf8ByteSize
    · obtain ⟨window, hwindow, hbreaks⟩ := hfits remaining Relation.ReflTransGen.refl hlong
      have hchunk := mt (chunkBefore_eq_empty_iff hpos hwindow).mp hbreaks
      have hshorter := remainsAfter_length hchunk
      obtain ⟨chunks, hchunks, hgood, hrejoins⟩ := ih (remainsAfter window remaining) (by omega)
        fun later hlater => hfits later (.head ⟨hlong, window, hwindow, rfl⟩ hlater)
      obtain ⟨gap, hgap, hparts⟩ := exists_gap window remaining
      refine ⟨chunkBefore window remaining :: chunks, ?_, ?_, ?_⟩
      · rw [splitFrom_long hlong hwindow, hchunks]
        rfl
      · exact forall_mem_cons.mpr ⟨⟨hchunk, chunkBefore_size hwindow⟩, hgood⟩
      · rw [hparts]
        exact .cons hgap hrejoins
    · rw [splitFrom_short hlong]
      split_ifs with hempty
      · exact ⟨[], rfl, nofun, by rw [hempty]; exact .nil⟩
      · refine ⟨[remaining], rfl, ?_, ?_⟩
        · simpa [hempty] using not_lt.mp hlong
        · have hone := @Rejoins.cons remaining [] [] [] nofun .nil
          simpa using hone

/-- Where chunks come out and none is empty, the windows of all rounds have fitted. -/
theorem fits_of_splitFrom {max_len : ℕ} (hpos : 0 < max_len) {rounds : ℕ} {remaining : String}
    {chunks : List String} (hchunks : splitFrom max_len rounds remaining = some chunks)
    (hgood : ∀ chunk ∈ chunks, chunk ≠ "") {later : String}
    (hlater : Relation.ReflTransGen (Cuts max_len) remaining later) : WindowFits max_len later := by
  induction rounds generalizing remaining chunks with
  | zero => exact absurd hchunks (by simp [splitFrom])
  | succ rounds ih =>
    by_cases hlong : max_len < remaining.utf8ByteSize
    · cases hwindow : sliceTo max_len remaining with
      | none =>
        rw [splitFrom, if_pos hlong, hwindow] at hchunks
        exact absurd hchunks (by simp)
      | some window =>
        rw [splitFrom_long hlong hwindow] at hchunks
        obtain ⟨rest, hrest, rfl⟩ := Option.map_eq_some_iff.mp hchunks
        obtain ⟨hchunk, hgood⟩ := forall_mem_cons.mp hgood
        rcases Relation.ReflTransGen.cases_head hlater with
          rfl | ⟨next, ⟨-, other, hother, rfl⟩, hnext⟩
        · exact fun _ => ⟨window, hwindow, mt (chunkBefore_eq_empty_iff hpos hwindow).mpr hchunk⟩
        · obtain rfl := Option.some.inj (hwindow.symm.trans hother)
          exact ih hrest hgood hnext
    · rcases Relation.ReflTransGen.cases_head hlater with rfl | ⟨next, ⟨hcut, -⟩, -⟩
      · exact fun h => absurd h hlong
      · exact absurd hcut hlong

/-- A message is split into chunks that can be sent and lose nothing but newlines exactly where the
text is not empty and the windows of all rounds fit. -/
theorem splitMessage_iff {max_len : ℕ} (hpos : 0 < max_len) (text : String) :
    SplitsWell max_len text ↔ CutsWell max_len text := by
  by_cases hlong : max_len < text.utf8ByteSize
  · have hsplit : splitMessage text max_len = splitFrom max_len (text.toList.length + 1) text :=
      if_neg (not_le.mpr hlong)
    have hne : text ≠ "" := by
      rintro rfl
      exact absurd hlong (Nat.not_lt_zero _)
    unfold SplitsWell
    rw [hsplit]
    constructor
    · rintro ⟨chunks, hchunks, hgood, -⟩
      exact ⟨hne, fun later hlater =>
        fits_of_splitFrom hpos hchunks (fun chunk h => (hgood chunk h).1) hlater⟩
    · rintro ⟨-, hfits⟩
      exact splitFrom_of_fits hpos _ text (Nat.lt_succ_self _) hfits
  · have hsplit : splitMessage text max_len = some [text] := if_pos (not_lt.mp hlong)
    constructor
    · rintro ⟨chunks, hchunks, hgood, -⟩
      obtain rfl := Option.some.inj (hsplit.symm.trans hchunks)
      refine ⟨(hgood text mem_cons_self).1, fun later hlater => ?_⟩
      rcases Relation.ReflTransGen.cases_head hlater with rfl | ⟨next, ⟨hcut, -⟩, -⟩
      · exact fun h => absurd h hlong
      · exact absurd hcut hlong
    · rintro ⟨hne, -⟩
      refine ⟨[text], hsplit, ?_, ?_⟩
      · simpa [hne] using not_lt.mp hlong
      · have hone := @Rejoins.cons text [] [] [] nofun .nil
        simpa using hone

/-- A text of two words is cut before the space. -/
theorem two_words_cut : CutsWell 4 "ab cd" := by
  have hparts : "ab cd".toList = "ab".toList ++ [] ++ (" cd".toList ++ [] ++ []) := by decide
  have hrejoins : Rejoins "ab cd".toList ["ab", " cd"] := by
    rw [hparts]
    exact .cons nofun (.cons nofun .nil)
  exact (splitMessage_iff (by decide) "ab cd").mp ⟨["ab", " cd"], by decide, by decide, hrejoins⟩

/-- A window that ends inside a character is a panic. -/
theorem accent_not_split : ¬SplitsWell 4 "aaaé" := by
  rintro ⟨chunks, hchunks, -⟩
  have hpanic : splitMessage "aaaé" 4 = none := by decide
  rw [hpanic] at hchunks
  exact absurd hchunks (by simp)

end Oxydra
