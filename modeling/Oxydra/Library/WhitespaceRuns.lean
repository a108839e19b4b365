import Mathlib.Data.List.Chain
import Oxydra.Library.TextLaws

/-!
# Runs of white space

`normalizeWhitespace` read from left to right (`toList_normalizeWhitespace`): a run of white space
becomes one space as soon as another word follows, and the ends are dropped. So the words of a part
of a text stand in the normal form of the whole (`squeezed_infix`), and a part of a normal form is
one itself (`squeezed_of_single`).
-/

namespace Text

open List

/-- The words of a text behind others, with one space before a word that follows on white space. -/
def squeeze : Bool → List Char → List Char
  | _, [] => []
  | gap, c :: cs =>
    if isWhitespace c then squeeze true cs
    else (if gap then [' ', c] else [c]) ++ squeeze false cs

/-- The words of a text, with one space between two of them. -/
def squeezed (cs : List Char) : List Char := squeeze false (cs.dropWhile isWhitespace)

/-- Whether white space ends a text, or stands before it where it is empty. -/
def gapAfter (gap : Bool) (cs : List Char) : Bool := (cs.getLast?.map isWhitespace).getD gap

theorem gapAfter_cons (gap : Bool) (c : Char) (cs : List Char) :
    gapAfter gap (c :: cs) = gapAfter (isWhitespace c) cs := by
  unfold gapAfter
  rw [List.getLast?_cons]
  cases cs.getLast? <;> rfl

theorem squeeze_append (gap : Bool) (xs ys : List Char) :
    squeeze gap (xs ++ ys) = squeeze gap xs ++ squeeze (gapAfter gap xs) ys := by
  induction xs generalizing gap with
  | nil => rfl
  | cons x xs ih =>
    rw [cons_append, squeeze, squeeze, gapAfter_cons]
    cases hspace : isWhitespace x with
    | true => exact ih true
    | false =>
      rw [if_neg Bool.false_ne_true, if_neg Bool.false_ne_true, ih, append_assoc]

/-- A run of spaces leaves a gap. -/
theorem squeeze_spaces (n : ℕ) (gap : Bool) (rest : List Char) :
    squeeze gap (List.replicate (n + 1) ' ' ++ rest) = squeeze true rest := by
  have hspace : isWhitespace ' ' = true := by decide
  induction n generalizing gap with
  | zero => exact if_pos hspace
  | succ n ih => rw [replicate_succ, cons_append, squeeze, if_pos hspace, ih]

theorem squeezed_spaces (n : ℕ) (rest : List Char) :
    squeezed (List.replicate n ' ' ++ rest) = squeezed rest := by
  unfold squeezed
  rw [dropWhile_append_of_pos]
  intro c hc
  rw [eq_of_mem_replicate hc]
  decide

/-- A gap is seen in front of a visible text. -/
theorem squeeze_visible {cs : List Char} (h : Visible cs) (hne : cs ≠ []) (gap : Bool) :
    squeeze gap cs = (if gap then [' '] else []) ++ squeezed cs := by
  obtain ⟨c, rest, rfl⟩ := exists_cons_of_ne_nil hne
  have hc : isWhitespace c = false := h.1 c rfl
  have hdrop : (c :: rest).dropWhile isWhitespace = c :: rest :=
    dropWhile_cons_of_neg (by simp [hc])
  rw [squeezed, hdrop, squeeze, squeeze, hc]
  cases gap <;> rfl

theorem squeezed_ne_nil {cs : List Char} (h : Visible cs) (hne : cs ≠ []) : squeezed cs ≠ [] := by
  obtain ⟨c, rest, rfl⟩ := exists_cons_of_ne_nil hne
  have hc : isWhitespace c = false := h.1 c rfl
  rw [squeezed, dropWhile_cons_of_neg (by simp [hc]), squeeze, hc]
  exact cons_ne_nil c _

/-- The normal form of a visible part stands in that of the whole. -/
theorem squeezed_infix {part text : List Char} (h : Visible part) (hpart : part <:+: text) :
    squeezed part <:+: squeezed text := by
  cases hnil : part with
  | nil => exact nil_infix
  | cons c rest =>
    have hne : part ≠ [] := hnil ▸ cons_ne_nil c rest
    rw [← hnil]
    have hkept : part <:+: text.dropWhile isWhitespace := infix_dropWhile h.1 hpart
    obtain ⟨before, after, hsplit⟩ := hkept
    unfold squeezed
    rw [← hsplit, squeeze_append, squeeze_append, squeeze_visible h hne]
    exact ⟨squeeze false before ++ if gapAfter false before then [' '] else [], _,
      by rw [append_assoc (squeeze false before)]; rfl⟩

theorem length_squeeze_le (gap : Bool) (cs : List Char) :
    (squeeze gap cs).length ≤ cs.length + gap.toNat := by
  induction cs generalizing gap with
  | nil => exact Nat.zero_le _
  | cons c cs ih =>
    rw [squeeze]
    split_ifs with hspace hgap
    · have hrest := ih true
      simp only [Bool.toNat_true, length_cons] at hrest ⊢
      omega
    · have hrest := ih false
      subst hgap
      simp only [length_append, length_cons, length_nil, Bool.toNat_false,
        Bool.toNat_true] at hrest ⊢
      omega
    · have hrest := ih false
      simp only [length_append, length_cons, length_nil, Bool.toNat_false]
        at hrest ⊢
      omega

/-- A normal form is no longer than the text. -/
theorem length_squeezed_le (cs : List Char) : (squeezed cs).length ≤ cs.length :=
  (length_squeeze_le false _).trans (dropWhile_suffix isWhitespace).sublist.length_le

/-! ## Normal forms -/

/-- White space is single spaces. -/
def IsSingle (cs : List Char) : Prop :=
  (∀ c ∈ cs, isWhitespace c → c = ' ') ∧
    cs.IsChain fun a b => ¬(isWhitespace a ∧ isWhitespace b)

theorem IsSingle.of_infix {part text : List Char} (h : IsSingle text) (hpart : part <:+: text) :
    IsSingle part :=
  ⟨fun c hc => h.1 c (hpart.subset hc), List.IsChain.infix h.2 hpart⟩

/-- What is squeezed has single spaces. -/
theorem isSingle_squeeze (gap : Bool) (cs : List Char) : IsSingle (squeeze gap cs) := by
  induction cs generalizing gap with
  | nil => exact ⟨nofun, .nil⟩
  | cons c cs ih =>
    rw [squeeze]
    cases hspace : isWhitespace c with
    | true => exact ih true
    | false =>
      have hword : IsSingle (c :: squeeze false cs) := by
        refine ⟨fun d hd hwhite => ?_, isChain_cons.mpr ⟨fun d _ h => ?_, (ih false).2⟩⟩
        · rcases mem_cons.mp hd with rfl | hd
          · exact absurd (hspace.symm.trans hwhite) Bool.false_ne_true
          · exact (ih false).1 d hd hwhite
        · exact absurd (hspace.symm.trans h.1) Bool.false_ne_true
      cases gap with
      | false => exact hword
      | true =>
        refine ⟨fun d hd hwhite => ?_, isChain_cons.mpr ⟨fun d hd h => ?_, hword.2⟩⟩
        · rcases mem_cons.mp hd with rfl | hd
          · rfl
          · exact hword.1 d hd hwhite
        · cases hd
          exact absurd (hspace.symm.trans h.2) Bool.false_ne_true

/-- A text with single spaces and visible ends is its normal form. -/
theorem squeezed_of_single {cs : List Char} (h : IsSingle cs) (hvisible : Visible cs) :
    squeezed cs = cs := by
  have hkept : ∀ ds : List Char, (∀ c ∈ ds.head?, isWhitespace c = false) →
      squeezed ds = squeeze false ds := by
    intro ds hds
    cases ds with
    | nil => rfl
    | cons d ds => rw [squeezed, dropWhile_cons_of_neg (by simp [hds d rfl])]
  have hsame : ∀ ds : List Char, IsSingle ds → (∀ c ∈ ds.getLast?, isWhitespace c = false) →
      squeeze false ds = ds := by
    intro ds hds hlast
    induction ds with
    | nil => rfl
    | cons d ds ih =>
      have htail : IsSingle ds := hds.of_infix (suffix_cons d ds).isInfix
      rw [squeeze]
      cases hspace : isWhitespace d with
      | false =>
        have hlast' : ∀ c ∈ ds.getLast?, isWhitespace c = false := by
          intro c hc
          refine hlast c ?_
          rw [List.getLast?_cons, hc]
          rfl
        exact congrArg (d :: ·) (ih htail hlast')
      | true =>
        -- the space is a single one, and a word follows
        obtain rfl := hds.1 d mem_cons_self hspace
        have hne : ds ≠ [] := by
          rintro rfl
          exact absurd (hspace.symm.trans (hlast ' ' rfl)) (by decide)
        have hlast' : ∀ c ∈ ds.getLast?, isWhitespace c = false := by
          intro c hc
          refine hlast c ?_
          rw [List.getLast?_cons, hc]
          rfl
        have hfirst : ∀ c ∈ ds.head?, isWhitespace c = false := by
          intro c hc
          by_contra hwhite
          exact (isChain_cons.mp hds.2).1 c hc ⟨hspace, by simpa using hwhite⟩
        rw [if_pos rfl, squeeze_visible ⟨hfirst, hlast'⟩ hne, hkept ds hfirst, ih htail hlast']
        rfl
  rw [hkept cs hvisible.1, hsame cs h hvisible.2]

/-- One word more is one space more, unless it is the first. -/
theorem intercalate_concat (words : List (List Char)) (word : List Char) :
    [' '].intercalate (words ++ [word]) =
      [' '].intercalate words ++ (if words = [] then word else ' ' :: word) := by
  induction words with
  | nil => simp
  | cons w words ih =>
    cases words with
    | nil => simp
    | cons u words =>
      rw [cons_append, cons_append, intercalate_cons_cons, ← cons_append, ih,
        intercalate_cons_cons, if_neg (cons_ne_nil u words),
        if_neg (cons_ne_nil w (u :: words))]
      simp

/-- The words that were read and the one that is being read, joined by spaces. -/
def joinRead (word : List Char) (done : List (List Char)) : List Char :=
  [' '].intercalate (if word = [] then done.reverse else done.reverse ++ [word.reverse])

theorem joinRead_cons (c : Char) (word : List Char) (done : List (List Char)) :
    joinRead (c :: word) done =
      joinRead word done ++ (if word = [] ∧ done ≠ [] then [' ', c] else [c]) := by
  unfold joinRead
  rw [if_neg (cons_ne_nil c word), intercalate_concat]
  by_cases hword : word = []
  · by_cases hdone : done = []
    · simp [hword, hdone]
    · simp [hword, hdone]
  · have hword' : ¬(word = [] ∧ done ≠ []) := fun h => hword h.1
    rw [if_neg hword, if_neg hword', intercalate_concat, append_assoc]
    split_ifs <;> simp

/-- What is read stands there squeezed. -/
theorem intercalate_wordsRev (cs word : List Char) (done : List (List Char)) :
    [' '].intercalate (wordsRev cs word done).reverse = joinRead word done ++
      (if word = [] ∧ done = [] then squeezed cs else squeeze (decide (word = [])) cs) := by
  fun_induction wordsRev cs word done with
  | case1 done =>
    split_ifs <;> exact (append_nil _).symm
  | case2 word done hne =>
    rw [if_neg fun h => hne h.1, reverse_cons, joinRead, if_neg hne]
    exact (append_nil _).symm
  | case3 c cs done hspace ih =>
    rw [ih, squeezed, squeezed, dropWhile_cons_of_pos hspace]
    refine congrArg (joinRead [] done ++ ·) (if_congr Iff.rfl rfl ?_)
    rw [squeeze, if_pos hspace]
    rfl
  | case4 c cs done hvisible ih =>
    rw [ih, if_neg (by simp), joinRead_cons, append_assoc, squeezed,
      dropWhile_cons_of_neg hvisible, squeeze, squeeze, if_neg hvisible, if_neg hvisible]
    by_cases hdone : done = []
    · simp [hdone]
    · simp [hdone]
  | case5 c cs word done hne hspace ih =>
    have hjoin : joinRead [] (word.reverse :: done) = joinRead word done := by
      rw [joinRead, joinRead, if_pos rfl, if_neg hne, reverse_cons]
    rw [ih, if_neg (by simp), hjoin, if_neg fun h => hne h.1, squeeze, if_pos hspace]
    rfl
  | case6 c cs word done hne hvisible ih =>
    rw [ih, if_neg (by simp), if_neg fun h => hne h.1, joinRead_cons, if_neg fun h => hne h.1,
      append_assoc, squeeze, if_neg hvisible, decide_eq_false hne,
      decide_eq_false (cons_ne_nil c word)]
    rfl

theorem toList_normalizeWhitespace (s : String) :
    (normalizeWhitespace s).toList = squeezed s.toList := by
  have hlists : ((wordsRev s.toList [] []).reverse.map String.ofList).map String.toList =
      (wordsRev s.toList [] []).reverse := by
    rw [map_map]
    exact (map_congr_left fun w _ => String.toList_ofList).trans (map_id _)
  unfold normalizeWhitespace
  rw [String.toList_intercalate, hlists]
  exact intercalate_wordsRev s.toList [] []

end Text
