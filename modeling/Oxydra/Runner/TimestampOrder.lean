import Oxydra.Runner.SinceThreshold

/-!
# The order of timestamps as texts

`read_log_file_tail` compares the timestamp of a line with the threshold as texts. Fractions of a
second have any number of digits, and the letter behind them comes after all digits, so in one
second this is not the order of the instants.
-/

namespace Oxydra

open List DecimalFraction Text TextOrder

/-! ## Numbers with leading zeros -/

theorem day_lt (date : GregorianDate) : date.day < 10^2 := by
  have hlengths : ∀ length ∈ monthLengths date.year, length ≤ 31 := by
    unfold monthLengths
    split_ifs <;> decide
  have hday := date.day_le
  rw [getD_eq_getElem?_getD] at hday
  cases hlength : (monthLengths date.year)[date.month - 1]? with
  | none =>
    rw [hlength, Option.getD_none] at hday
    omega
  | some length =>
    rw [hlength, Option.getD_some] at hday
    have hle := hlengths length (mem_of_getElem? hlength)
    omega

theorem fixed_succ_right (w n : ℕ) (h : n < 10^(w + 1)) :
    fixed (w + 1) n = fixed w (n / 10) ++ [Nat.digitChar (n % 10)] := by
  rw [fixed_append w 1 n h, pow_one]
  congr 1
  rw [fixed, pow_zero, Nat.div_one]
  rfl

/-- A number that fits has the width exactly. -/
theorem zeroPadded_eq_fixed {w n : ℕ} (hw : 0 < w) (h : n < 10^w) : zeroPadded w n = fixed w n := by
  obtain ⟨v, rfl⟩ : ∃ v, w = v + 1 := ⟨w - 1, by omega⟩
  clear hw
  induction v generalizing n with
  | zero =>
    have hone : n < 10 := by simpa using h
    rw [zeroPadded, Nat.toDigits_of_lt_base hone, fixed_succ_right 0 n h, Nat.mod_eq_of_lt hone]
    rfl
  | succ v ih =>
    rw [fixed_succ_right (v + 1) n h, ← ih (by omega)]
    unfold zeroPadded
    by_cases hone : n < 10
    · rw [Nat.toDigits_of_lt_base hone, Nat.div_eq_of_lt hone, Nat.mod_eq_of_lt hone,
        Nat.toDigits_zero, ← replicate_succ']
      rfl
    · rw [Nat.toDigits_of_base_le (by norm_num) (not_lt.mp hone), length_append,
        length_singleton, Nat.add_sub_add_right, append_assoc]

namespace UtcStamp

/-! ## The order of timestamps -/

variable {t t' : UtcStamp}

theorem length_baseChars (t : UtcStamp) : t.baseChars.length = 19 := by
  unfold baseChars
  simp

/-- What a later second changes in the text. -/
theorem clock_lt_of_daySecond_lt (h : t.daySecond < t'.daySecond) : t.hour < t'.hour ∨
    t.hour = t'.hour ∧ (t.minute < t'.minute ∨ t.minute = t'.minute ∧ t.second < t'.second) := by
  have hour := t.hour_lt
  have minute := t.minute_lt
  have minute' := t'.minute_lt
  have second := t.second_lt
  have second' := t'.second_lt
  unfold daySecond at h
  omega

theorem clock_eq_of_daySecond_eq (h : t.daySecond = t'.daySecond) :
    t.hour = t'.hour ∧ t.minute = t'.minute ∧ t.second = t'.second := by
  have minute := t.minute_lt
  have minute' := t'.minute_lt
  have second := t.second_lt
  have second' := t'.second_lt
  have hour := t.hour_lt
  have hour' := t'.hour_lt
  unfold daySecond at h
  omega

/-- Timestamps in one second have the same text up to the second. -/
theorem baseChars_eq (hcase : t.lowerT = t'.lowerT) (h : t.SameSecond t') :
    t.baseChars = t'.baseChars := by
  obtain ⟨hday, hsecond⟩ := h
  have hdate : t.date = t'.date := GregorianDate.dayNumber_strictMono.injective hday
  obtain ⟨hhour, hminute, hsecond⟩ := clock_eq_of_daySecond_eq hsecond
  unfold baseChars
  rw [hdate, hcase, hhour, hminute, hsecond]

/-- An earlier second comes first. -/
theorem baseChars_lt (hcase : t.lowerT = t'.lowerT) (h : t.date.dayNumber < t'.date.dayNumber ∨
    t.date.dayNumber = t'.date.dayNumber ∧ t.daySecond < t'.daySecond) :
    t.baseChars < t'.baseChars := by
  have hyear := t'.year_le
  have hyear' := t.year_nonneg
  have hhour := t'.hour_lt
  have hminute := t'.minute_lt
  have hsecond := t'.second_lt
  have hmonth := t'.date.month_le
  have hday := day_lt t'.date
  unfold baseChars
  rcases h with hlt | ⟨heq, hlt⟩
  · rcases GregorianDate.lt_iff.mp (GregorianDate.dayNumber_strictMono.lt_iff_lt.mp hlt) with
      hyears | ⟨hyears, hmonths | ⟨hmonths, hdays⟩⟩
    · exact fixed_append_lt (by omega) (by omega)
    · rw [hyears]
      refine append_left_lt (cons_lt_cons_of_lt _ (fixed_append_lt (by omega) hmonths))
    · rw [hyears, hmonths]
      exact append_left_lt (cons_lt_cons_of_lt _ (append_left_lt
        (cons_lt_cons_of_lt _ (fixed_append_lt hday hdays))))
  · have hdate : t.date = t'.date := GregorianDate.dayNumber_strictMono.injective heq
    rw [hdate, hcase]
    refine append_left_lt (cons_lt_cons_of_lt _ (append_left_lt
      (cons_lt_cons_of_lt _ (append_left_lt (cons_lt_cons_of_lt _ ?_)))))
    rcases clock_lt_of_daySecond_lt hlt with hhours | ⟨hhours, hminutes | ⟨hminutes, hseconds⟩⟩
    · exact fixed_append_lt (by omega) hhours
    · rw [hhours]
      exact append_left_lt (cons_lt_cons_of_lt _ (fixed_append_lt (by omega) hminutes))
    · rw [hhours, hminutes]
      exact append_left_lt (cons_lt_cons_of_lt _ (append_left_lt
        (cons_lt_cons_of_lt _ (fixed_lt_fixed (by omega) hseconds))))

/-- A timestamp is in an earlier second than another one. -/
def EarlierSecond (t t' : UtcStamp) : Prop :=
  t.date.dayNumber < t'.date.dayNumber ∨
    t.date.dayNumber = t'.date.dayNumber ∧ t.daySecond < t'.daySecond

/-- The instants are in the order of the seconds, and of the fractions in one second. -/
theorem instant_lt_iff : t.instant < t'.instant ↔
    t.EarlierSecond t' ∨ t.SameSecond t' ∧ value t.digits < value t'.digits := by
  unfold instant EarlierSecond SameSecond
  rw [Instant.of_lt]
  tauto

/-- The texts are in the order of the seconds, and of what follows the second in one second. -/
theorem chars_lt_iff (hcase : t.lowerT = t'.lowerT) (more : List Char) :
    t.chars ++ more < t'.chars ↔ t.EarlierSecond t' ∨ t.SameSecond t' ∧
      fractionChars t.digits ++ (t.zone.chars ++ more) <
        fractionChars t'.digits ++ t'.zone.chars := by
  have hlength : t.baseChars.length = t'.baseChars.length := by
    rw [length_baseChars, length_baseChars]
  unfold chars
  rw [append_assoc, append_assoc]
  by_cases hsame : t.SameSecond t'
  · have hnot : ¬t.EarlierSecond t' := by
      unfold SameSecond at hsame
      unfold EarlierSecond
      omega
    rw [baseChars_eq hcase hsame, append_lt_append_iff, or_iff_right hnot, and_iff_right hsame]
  · by_cases hearlier : t.EarlierSecond t'
    · exact iff_of_true (append_lt_of_lt hlength (baseChars_lt hcase hearlier)) (.inl hearlier)
    · have hlater : t'.EarlierSecond t := by
        unfold SameSecond at hsame
        unfold EarlierSecond at hearlier ⊢
        omega
      have hlt := append_lt_of_lt hlength.symm (baseChars_lt hcase.symm hlater)
        (c := fractionChars t'.digits ++ t'.zone.chars)
        (d := fractionChars t.digits ++ (t.zone.chars ++ more))
      exact iff_of_false hlt.not_gt (by tauto)

end UtcStamp

/-! ## Fractions as texts -/

theorem first_injective : Function.Injective UtcZone.first := by
  intro z z' h
  cases z <;> cases z' <;> first | rfl | exact absurd h (by decide)

theorem zone_chars_eq (z : UtcZone) : ∃ rest, z.chars = z.first :: rest := by
  cases z <;> exact ⟨_, rfl⟩

/-- Behind a fraction that goes on stands the point or a digit. -/
theorem fractionChars_append (p : List ℕ) {x : ℕ} (hx : x < 10) (e : List ℕ) : ∃ c rest,
    fractionChars (p ++ x :: e) = fractionChars p ++ c :: rest ∧
      ∀ z : UtcZone, c ≠ z.first ∧ (c < z.first ↔ z.isNumeric = false) := by
  have hdigit : ∀ x < 10, ∀ z : UtcZone, Nat.digitChar x ≠ z.first ∧
      (Nat.digitChar x < z.first ↔ z.isNumeric = false) := by
    intro x hx z
    cases z <;> interval_cases x <;> decide
  unfold fractionChars
  rw [if_neg (by simp)]
  by_cases hp : p = []
  · subst hp
    refine ⟨'.', _, rfl, fun z => ?_⟩
    cases z <;> decide
  · rw [if_neg hp]
    exact ⟨Nat.digitChar x, DecimalFraction.chars e, by simp [DecimalFraction.chars], hdigit x hx⟩

/-- In one second the texts are in the order of the instants: of equal fractions the zone of the
first one does not come before the other; a fraction that goes on behind that of the threshold is
followed by an offset in numbers there; and one that ends before it has such an offset exactly if
what follows in the threshold is not zero. -/
structure FractionsAgree (digits digits' : List ℕ) (zone zone' : UtcZone) : Prop where
  same : digits = digits' → ¬zone.first < zone'.first
  longer : ∀ x e, digits = digits' ++ x :: e → zone'.isNumeric = true
  shorter : ∀ x e, digits' = digits ++ x :: e → (zone.isNumeric = true ↔ ∃ d ∈ x :: e, d ≠ 0)

theorem fractionsAgree_iff {digits digits' : List ℕ} (hlt : ∀ d ∈ digits, d < 10)
    (hlt' : ∀ d ∈ digits', d < 10) (zone zone' : UtcZone) (more : List Char) :
    FractionsAgree digits digits' zone zone' ↔
      (fractionChars digits ++ (zone.chars ++ more) < fractionChars digits' ++ zone'.chars ↔
        value digits < value digits') := by
  obtain ⟨rest, hrest⟩ := zone_chars_eq zone
  obtain ⟨rest', hrest'⟩ := zone_chars_eq zone'
  have hself : ∀ (p : List ℕ) (x : ℕ) (e : List ℕ), p ≠ p ++ x :: e := by
    intro p x e h
    exact absurd (congrArg List.length h) (by simp)
  have htwice : ∀ (p : List ℕ) (x y : ℕ) (e e' : List ℕ), p ≠ p ++ x :: e ++ y :: e' := by
    intro p x y e e' h
    exact absurd (congrArg List.length h) (by simp)
  -- equal fractions, one a start of the other, or two that part at a digit
  rcases parting digits digits' with
    rfl | ⟨x, e, rfl⟩ | ⟨x, e, rfl⟩ | ⟨p, x, y, r, r', hne, rfl, rfl⟩
  · have htexts : fractionChars digits ++ (zone.chars ++ more) <
        fractionChars digits ++ zone'.chars ↔ zone.first < zone'.first := by
      rw [append_lt_append_iff]
      by_cases hzone : zone = zone'
      · subst hzone
        refine iff_of_false (fun h => ?_) (lt_irrefl _)
        nth_rewrite 2 [← append_nil zone.chars] at h
        exact not_lt_nil _ ((append_lt_append_iff _).mp h)
      · rw [hrest, hrest']
        exact cons_lt_cons_iff_of_ne fun h => hzone (first_injective h)
    rw [htexts, iff_false_right (lt_irrefl _)]
    exact ⟨fun h => h.same rfl, fun h => ⟨fun _ => h, fun x e h => absurd h (hself _ _ _),
      fun x e h => absurd h (hself _ _ _)⟩⟩
  · obtain ⟨c, tail, hchars, hc⟩ := fractionChars_append digits' (hlt x (by simp)) e
    rw [hchars, append_assoc, append_lt_append_iff, hrest', cons_append,
      cons_lt_cons_iff_of_ne (hc zone').1, (hc zone').2,
      iff_false_right (value_le_append _ _).not_gt, Bool.not_eq_false]
    exact ⟨fun h => h.longer x e rfl, fun h => ⟨fun h => absurd h.symm (hself _ _ _),
      fun _ _ _ => h, fun y e' h => absurd h (htwice _ _ _ _ _)⟩⟩
  · obtain ⟨c, tail, hchars, hc⟩ := fractionChars_append digits (hlt' x (by simp)) e
    have hnumeric : zone.first < c ↔ zone.isNumeric = true := by
      rw [← not_le, (hc zone).1.le_iff_lt, (hc zone).2, Bool.not_eq_false]
    rw [hchars, append_assoc, append_lt_append_iff, hrest, cons_append, cons_append,
      cons_lt_cons_iff_of_ne (hc zone).1.symm, hnumeric, value_lt_append_iff]
    refine ⟨fun h => h.shorter x e rfl, fun h => ⟨fun h => absurd h (hself _ _ _),
      fun y e' h => absurd h (htwice _ _ _ _ _), fun y e' hsplit => ?_⟩⟩
    obtain ⟨rfl, rfl⟩ := cons_eq_cons.mp (append_cancel_left hsplit)
    exact h
  · have hdigit : Nat.digitChar x ≠ Nat.digitChar y := by
      have hx : x < 10 := hlt x (by simp)
      have hy : y < 10 := hlt' y (by simp)
      rcases Nat.lt_or_gt_of_ne hne with hxy | hxy
      · exact (digitChar_lt hy hxy).ne
      · exact (digitChar_lt hx hxy).ne'
    have hchars : ∀ (z : ℕ) (s : List ℕ), fractionChars (p ++ z :: s) =
        ('.' :: DecimalFraction.chars p) ++ Nat.digitChar z :: DecimalFraction.chars s := by
      intro z s
      rw [fractionChars, if_neg (by simp), DecimalFraction.chars, map_append, map_cons]
      rfl
    have hrests : ∀ d ∈ r, d < 10 := fun d hd => hlt d (by simp [hd])
    have hrests' : ∀ d ∈ r', d < 10 := fun d hd => hlt' d (by simp [hd])
    rw [hchars, hchars, append_assoc, append_assoc, append_lt_append_iff,
      cons_append, cons_append, cons_lt_cons_iff_of_ne hdigit,
      value_lt_iff_of_ne hne hrests hrests']
    have hparted : ∀ {s s' : List ℕ}, p ++ x :: s ≠ p ++ y :: s' := by
      intro s s' h
      exact hne (cons_eq_cons.mp (append_cancel_left h)).1
    refine iff_of_true ⟨fun h => absurd h hparted, fun z e h => ?_, fun z e h => ?_⟩ ?_
    · rw [append_assoc] at h
      exact absurd h hparted
    · rw [append_assoc] at h
      exact absurd h.symm hparted
    · refine ⟨fun h => ?_, digitChar_lt (hlt' y (by simp))⟩
      by_contra hnot
      exact (digitChar_lt (hlt x (by simp)) (by omega)).not_gt h

end Oxydra
