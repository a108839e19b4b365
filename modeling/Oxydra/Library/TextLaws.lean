import Oxydra.Library.Text

/-!
# Texts that trimming leaves alone

A text that starts and ends with a visible character loses nothing when a text that contains it is
trimmed. The words of a text, joined by spaces, are such a text, also after it is cut and marked
with dots.
-/

namespace Text

open List

/-- The first and the last character are not white space, where there are any. -/
def Visible (s : List Char) : Prop :=
  (∀ c ∈ s.head?, isWhitespace c = false) ∧ ∀ c ∈ s.getLast?, isWhitespace c = false

/-- A check of the character that is there, if there is one. -/
theorem visible_of_all {o : Option Char} (h : o.all (fun c => !isWhitespace c) = true) :
    ∀ c ∈ o, isWhitespace c = false := by
  intro c hc
  rw [Option.mem_def.mp hc, Option.all_some, Bool.not_eq_true'] at h
  exact h

/-! ## Trimming -/

theorem infix_dropWhile {p : Char → Bool} {s l : List Char} (hfirst : ∀ c ∈ s.head?, p c = false)
    (h : s <:+: l) : s <:+: l.dropWhile p := by
  cases s with
  | nil => exact nil_infix
  | cons c rest =>
    obtain ⟨a, b, rfl⟩ := h
    have hkeep : (c :: rest ++ b).dropWhile p = c :: rest ++ b := by
      rw [cons_append, dropWhile_cons_of_neg (by simp [hfirst c rfl])]
    rw [append_assoc, dropWhile_append]
    split_ifs
    · rw [hkeep]
      exact (prefix_append _ _).isInfix
    · exact ⟨a.dropWhile p, b, by rw [append_assoc]⟩

/-- Trimming cuts no visible part of a text. -/
theorem infix_trim {s : List Char} {text : String} (hs : Visible s) (h : s <:+: text.toList) :
    s <:+: (trim text).toList := by
  unfold trim trimEnd trimStart
  rw [String.toList_ofList, String.toList_ofList, ← reverse_infix, reverse_reverse]
  refine infix_dropWhile ?_ (List.reverse_infix.mpr (infix_dropWhile hs.1 h))
  rw [List.head?_reverse]
  exact hs.2

/-- Trimming only leaves characters out. -/
theorem trim_sublist (s : String) : (trim s).toList.Sublist s.toList := by
  unfold trim trimEnd trimStart
  rw [String.toList_ofList, String.toList_ofList]
  have hend := reverse_sublist.mpr
    (dropWhile_sublist isWhitespace (l := (s.toList.dropWhile isWhitespace).reverse))
  rw [reverse_reverse] at hend
  exact hend.trans (dropWhile_sublist isWhitespace)

/-- A text that starts and ends with visible characters is not trimmed. -/
theorem trim_of_visible {s : String} (h : Visible s.toList) : trim s = s := by
  have hdrop : ∀ cs : List Char, (∀ c ∈ cs.head?, isWhitespace c = false) →
      cs.dropWhile isWhitespace = cs := by
    intro cs hcs
    cases cs with
    | nil => rfl
    | cons c cs => exact dropWhile_cons_of_neg (by simp [hcs c rfl])
  unfold trim trimStart
  rw [hdrop _ h.1, String.ofList_toList]
  unfold trimEnd
  rw [hdrop _ (by simpa using h.2), reverse_reverse, String.ofList_toList]

/-- A trimmed text starts and ends with visible characters. -/
theorem visible_trim (s : String) : Visible (trim s).toList := by
  have hhead : ∀ cs : List Char, ∀ c ∈ (cs.dropWhile isWhitespace).head?,
      isWhitespace c = false := by
    intro cs c hc
    have hnot := List.head?_dropWhile_not isWhitespace cs
    rw [Option.mem_def.mp hc] at hnot
    exact hnot
  unfold trim trimEnd
  rw [String.toList_ofList]
  refine ⟨fun c hc => ?_, fun c hc => ?_⟩
  · -- trimming the end leaves a first part
    have hprefix : ((trimStart s).toList.reverse.dropWhile isWhitespace).reverse <+:
        (trimStart s).toList :=
      reverse_suffix.mp (by simpa using dropWhile_suffix isWhitespace)
    obtain ⟨rest, hrest⟩ := hprefix
    refine hhead s.toList c ?_
    rw [trimStart, String.toList_ofList] at hrest hc
    rw [← hrest, Option.mem_def, List.head?_append, Option.mem_def.mp hc, Option.some_or]
  · rw [List.getLast?_reverse] at hc
    exact hhead _ c hc

/-- A text without white space is not trimmed. -/
theorem trim_eq_self {s : String} (h : ∀ c ∈ s.toList, isWhitespace c = false) : trim s = s :=
  trim_of_visible ⟨fun c hc => h c (mem_of_head? hc), fun c hc => h c (mem_of_getLast? hc)⟩

/-! ## Words -/

/-- A word has characters, and they are visible. -/
def IsWord (word : List Char) : Prop := word ≠ [] ∧ ∀ c ∈ word, isWhitespace c = false

theorem wordsRev_isWord : ∀ (cs word : List Char) (done : List (List Char)),
    (∀ c ∈ word, isWhitespace c = false) → (∀ w ∈ done, IsWord w) →
    ∀ w ∈ wordsRev cs word done, IsWord w := by
  intro cs word done
  fun_induction wordsRev cs word done with
  | case1 done => exact fun _ hdone => hdone
  | case2 word done hne =>
    intro hword hdone w hw
    obtain rfl | hw := mem_cons.mp hw
    · exact ⟨by simpa using hne, fun c hc => hword c (mem_reverse.mp hc)⟩
    · exact hdone w hw
  | case3 c cs done hspace ih => exact fun hword hdone => ih hword hdone
  | case4 c cs done hvisible ih =>
    intro _ hdone
    refine ih (fun a ha => ?_) hdone
    rw [mem_singleton.mp ha]
    simpa using hvisible
  | case5 c cs word done hne hspace ih =>
    intro hword hdone
    refine ih nofun fun w hw => ?_
    obtain rfl | hw := mem_cons.mp hw
    · exact ⟨by simpa using hne, fun a ha => hword a (mem_reverse.mp ha)⟩
    · exact hdone w hw
  | case6 c cs word done hne hvisible ih =>
    intro hword hdone
    refine ih (fun a ha => ?_) hdone
    obtain rfl | ha := mem_cons.mp ha
    · simpa using hvisible
    · exact hword a ha

/-- Only the ends of a text matter. -/
theorem visible_append {a m b : List Char} (ha : a ≠ []) (hb : b ≠ [])
    (hfirst : ∀ c ∈ a.head?, isWhitespace c = false)
    (hlast : ∀ c ∈ b.getLast?, isWhitespace c = false) : Visible (a ++ m ++ b) := by
  constructor
  · rw [append_assoc, List.head?_append_of_ne_nil a ha]
    exact hfirst
  · rw [List.getLast?_append_of_ne_nil _ hb]
    exact hlast

theorem IsWord.visible {word : List Char} (h : IsWord word) : Visible word :=
  ⟨fun c hc => h.2 c (mem_of_mem_head? hc), fun c hc => h.2 c (mem_of_getLast? hc)⟩

theorem intercalate_ne_nil {words : List (List Char)} (hne : words ≠ [])
    (h : ∀ w ∈ words, IsWord w) : [' '].intercalate words ≠ [] := by
  obtain ⟨w, rest, rfl⟩ := exists_cons_of_ne_nil hne
  obtain ⟨c, word, hw⟩ := exists_cons_of_ne_nil (h w mem_cons_self).1
  cases rest with
  | nil => simp [hw]
  | cons u rest => simp [hw]

theorem visible_intercalate : ∀ {words : List (List Char)}, (∀ w ∈ words, IsWord w) →
    Visible ([' '].intercalate words)
  | [], _ => ⟨nofun, nofun⟩
  | [w], h => by
    rw [intercalate_singleton]
    exact (h w mem_cons_self).visible
  | w :: u :: rest, h => by
    have hrest : ∀ w ∈ u :: rest, IsWord w := fun v hv => h v (mem_cons_of_mem w hv)
    have hw := h w mem_cons_self
    rw [intercalate_cons_cons]
    exact visible_append hw.1 (intercalate_ne_nil (cons_ne_nil u rest) hrest) hw.visible.1
      (visible_intercalate hrest).2

/-- The words of a text, joined by spaces. -/
theorem visible_normalizeWhitespace (s : String) : Visible (normalizeWhitespace s).toList := by
  have hwords : ∀ w ∈ (wordsRev s.toList [] []).reverse, IsWord w := fun w hw =>
    wordsRev_isWord s.toList [] [] nofun nofun w (mem_reverse.mp hw)
  have hlists : ((wordsRev s.toList [] []).reverse.map String.ofList).map String.toList =
      (wordsRev s.toList [] []).reverse := by
    rw [map_map]
    exact (map_congr_left fun w _ => String.toList_ofList).trans (map_id _)
  unfold normalizeWhitespace
  rw [String.toList_intercalate, hlists]
  exact visible_intercalate hwords

/-- A text that is cut is marked with dots. -/
theorem visible_ellipsize {n : ℕ} {s : String} (hn : 0 < n) (h : Visible s.toList) :
    Visible (ellipsize n s).toList := by
  unfold ellipsize
  split_ifs with hcut
  · rw [String.toList_append, String.toList_ofList]
    have hne : s.toList.take n ≠ [] := by
      intro hnil
      have hlen := congrArg List.length hnil
      rw [length_take, length_nil] at hlen
      omega
    have hfirst : ∀ c ∈ (s.toList.take n).head?, isWhitespace c = false := by
      rw [List.head?_take, if_neg (by omega)]
      exact h.1
    have hdots := visible_append (m := []) (b := "...".toList) hne (by decide) hfirst
      (visible_of_all (by decide))
    rwa [append_nil] at hdots
  · exact h

/-- A text that is short enough is not cut. -/
theorem ellipsize_of_le {n : ℕ} {s : String} (h : s.toList.length ≤ n) : ellipsize n s = s :=
  if_neg (not_lt.mpr h)

/-- What is cut keeps some of its characters. -/
theorem ellipsize_ne_nil {n : ℕ} {s : String} (h : s.toList ≠ []) :
    (ellipsize n s).toList ≠ [] := by
  unfold ellipsize
  split_ifs
  · rw [String.toList_append]
    exact append_ne_nil_of_right_ne_nil _ (by decide)
  · exact h

/-! ## Joined texts -/

/-- Each of the texts that are joined stands in what they make. -/
theorem infix_intercalate {separator line : String} : ∀ {lines : List String}, line ∈ lines →
    line.toList <:+: (String.intercalate separator lines).toList
  | [only], h => by
    have htext : String.intercalate separator [only] = line := by
      rw [mem_singleton.mp h, String.intercalate_singleton]
    exact htext ▸ infix_rfl
  | first :: second :: rest, h => by
    rw [String.intercalate_cons_cons, String.toList_append, String.toList_append]
    obtain rfl | h := mem_cons.mp h
    · rw [append_assoc]
      exact (prefix_append _ _).isInfix
    · exact (infix_intercalate h).trans (suffix_append _ _).isInfix

/-! ## Padded numbers -/

/-- A padded number is made of digits. -/
theorem isDigit_of_mem_zeroPad {width n : ℕ} {c : Char} (h : c ∈ zeroPad width n) : c.isDigit := by
  unfold zeroPad at h
  rw [mem_append] at h
  rcases h with hpad | hdigit
  · rw [eq_of_mem_replicate hpad]
    decide
  · rw [Nat.toString_eq_ofList_toDigits, String.toList_ofList] at hdigit
    exact Nat.isDigit_of_mem_toDigits (by decide) (by decide) hdigit

/-- A padded number is read back. -/
theorem ofDigitChars_zeroPad (width n : ℕ) : Nat.ofDigitChars 10 (zeroPad width n) 0 = n := by
  unfold zeroPad
  rw [Nat.ofDigitChars_append, Nat.ofDigitChars_replicate_zero, Nat.mul_zero,
    Nat.toString_eq_ofList_toDigits, String.toList_ofList, Nat.ofDigitChars_ten_toDigits]

/-- The number behind a separator at the end of a text is read back, and so is what stands before
the separator. -/
theorem zeroPad_after {c : Char} (hc : c.isDigit = false) {a b : List Char} {width m n : ℕ}
    (h : a ++ c :: zeroPad width m = b ++ c :: zeroPad width n) : m = n ∧ a = b := by
  have hdigits (k : ℕ) (before : List Char) :
      (before ++ c :: zeroPad width k).reverse.takeWhile Char.isDigit =
        (zeroPad width k).reverse := by
    rw [reverse_append, reverse_cons, append_assoc, takeWhile_append_of_pos]
    · rw [singleton_append, takeWhile_cons_of_neg (by simp [hc]), append_nil]
    · exact fun c hc => isDigit_of_mem_zeroPad (mem_reverse.mp hc)
  have hsame : zeroPad width m = zeroPad width n := by
    rw [← reverse_inj, ← hdigits m a, h, hdigits n b]
  constructor
  · rw [← ofDigitChars_zeroPad width m, hsame, ofDigitChars_zeroPad]
  · rw [hsame] at h
    exact append_cancel_right h

/-- The number behind the last dash of a text is read back, whatever stands before it. -/
theorem zeroPad_after_dash {a b : List Char} {width m n : ℕ}
    (h : a ++ '-' :: zeroPad width m = b ++ '-' :: zeroPad width n) : m = n :=
  (zeroPad_after (by decide) h).1

/-- The digits of a number are not padded. -/
theorem toList_toString (n : ℕ) : (toString n).toList = zeroPad 0 n := by
  simp [zeroPad]

/-- The number that a text starts with is read back, and so is what stands behind the separator. -/
theorem digits_before {m n : ℕ} {c : Char} (hc : c.isDigit = false) {a b : List Char}
    (h : Nat.toDigits 10 m ++ c :: a = Nat.toDigits 10 n ++ c :: b) : m = n ∧ a = b := by
  have hdigits (k : ℕ) : ∀ d ∈ Nat.toDigits 10 k, d.isDigit = true := fun d hd =>
    Nat.isDigit_of_mem_toDigits (by decide) (by decide) hd
  have hnumber (k : ℕ) (rest : List Char) :
      (Nat.toDigits 10 k ++ c :: rest).takeWhile Char.isDigit = Nat.toDigits 10 k := by
    rw [takeWhile_append_of_pos (hdigits k), takeWhile_cons_of_neg (by simp [hc]),
      append_nil]
  have hsame : Nat.toDigits 10 m = Nat.toDigits 10 n := by rw [← hnumber m a, h, hnumber n b]
  constructor
  · rw [← Nat.ofDigitChars_ten_toDigits (n := m), hsame, Nat.ofDigitChars_ten_toDigits]
  · rw [hsame] at h
    exact (List.cons.inj (append_cancel_left h)).2

end Text
