import Oxydra.Runner.StampedLines

/-!
# The filter of log lines by time

What `read_log_file_tail` skips of a log under a since value. The threshold of a timestamp is its
own text; that of a duration is the second of its instant, from 1970 on. The filter is chronological
for a value and a line exactly where `Agrees` holds of them (`filterRight_iff`).
-/

namespace Oxydra

open Option List DecimalFraction Text TextOrder

variable {since : String} {now : SystemTime}

/-- The filter drops a line. -/
def DropsLine (now : SystemTime) (since line : String) : Prop :=
  ∃ threshold, parseSinceThreshold now since = some threshold ∧ isBeforeThreshold threshold line

/-- No panic, and a line with a timestamp is dropped exactly where its instant is before that of the
value. -/
structure FilterRight (now : SystemTime) (since line : String) : Prop where
  total : (parseSinceThreshold now since).isSome
  chronological : ∀ (value : SinceValue) (t : UtcStamp) (more : List Char),
    trim since = String.ofList value.chars → line = String.ofList (t.chars ++ more) →
      (DropsLine now since line ↔ t.instant < value.instant now)

/-! ## Where the filter is right -/

/-- A timestamp whose text comes before that of its second with a `Z`: a fraction or an offset in
numbers follows the second. -/
def UtcStamp.StandsBeforeZ (t : UtcStamp) : Prop := t.digits ≠ [] ∨ t.zone.isNumeric = true

/-- Where a line is dropped rightly if the instant of the value is that many seconds and nanoseconds
from 1970 on: it has no small `t`, or it is not earlier. It is not between an instant before 1970
and that year, which is the threshold then, nor at its beginning with a fraction or an offset in
numbers. In the second of the threshold it has a fraction or such an offset if and only if it is
earlier; and from the year 10000 on, its year comes before that of the threshold as a text. -/
def AgreesSince (secs : ℤ) (nanos : ℕ) (t : UtcStamp) : Prop :=
  if t.lowerT then ¬t.instant < instantAt secs nanos
  else if secs < 0 then
    (t.date.dayNumber < 0 → t.instant < instantAt secs nanos) ∧
      ¬(t.date.dayNumber = 0 ∧ t.daySecond = 0 ∧ t.StandsBeforeZ)
  else ∀ date : GregorianDate, date.dayNumber = secs / 86400 →
    if date.year ≤ 9999 then
      t.date = date → t.daySecond = (secs % 86400).toNat →
        (t.StandsBeforeZ ↔ value t.digits < nanos / 10^9)
    else fixed 4 t.date.year.toNat < Nat.toDigits 10 date.year.toNat

/-- Where a line is dropped rightly under a since value. A timestamp or a line with a small `t` is
not read, so that nothing may be earlier; nor is a time that the clock does not have. -/
def SinceValue.Agrees (now : SystemTime) (t : UtcStamp) : SinceValue → Prop
  | .stamp threshold =>
    if threshold.lowerT ∨ t.lowerT then ¬t.instant < threshold.instant
    else t.SameSecond threshold → FractionsAgree t.digits threshold.digits t.zone threshold.zone
  | .duration digits unit _ _ =>
    I64.IsWord (now.secs - numberOf digits * unit.secs) →
      AgreesSince (now.secs - numberOf digits * unit.secs) now.nanos t

/-! ## Thresholds of whole seconds -/

/-- The first character behind the second decides against a `Z`. -/
theorem fraction_lt_upperZ (t : UtcStamp) (more : List Char) :
    fractionChars t.digits ++ (t.zone.chars ++ more) < ['Z'] ↔ t.StandsBeforeZ := by
  have hother : ∀ (c : Char) (rest : List Char), c ≠ 'Z' → (c :: rest < ['Z'] ↔ c < 'Z') :=
    fun c rest h => cons_lt_cons_iff_of_ne h
  unfold UtcStamp.StandsBeforeZ fractionChars
  by_cases hdigits : t.digits = []
  · rw [if_pos hdigits, nil_append, or_iff_right (not_not.mpr hdigits)]
    cases t.zone with
    | upperZ => exact iff_of_false (by simp [UtcZone.chars]) (by decide)
    | lowerZ => exact (hother 'z' _ (by decide)).trans (by decide)
    | plusZero => exact (hother '+' _ (by decide)).trans (by decide)
    | minusZero => exact (hother '-' _ (by decide)).trans (by decide)
  · rw [if_neg hdigits]
    exact iff_of_true ((hother '.' _ (by decide)).mpr (by decide)) (.inl hdigits)

namespace GregorianDate

theorem year_nonneg_of_dayNumber {date : GregorianDate} (h : 0 ≤ date.dayNumber) :
    0 ≤ date.year := by
  have hlt := date.dayNumber_lt_daysBefore
  by_contra hneg
  unfold daysBefore at hlt
  omega

/-- A second of a day, with a `Z`. -/
def stampAt (date : GregorianDate) (hnonneg : 0 ≤ date.year) (hle : date.year ≤ 9999) (sec : ℕ)
    (hsec : sec < 86400) : UtcStamp where
  date := date
  hour := sec / 3600
  minute := sec % 3600 / 60
  second := sec % 60
  digits := []
  lowerT := false
  zone := .upperZ
  year_nonneg := hnonneg
  year_le := hle
  hour_lt := by omega
  minute_lt := by omega
  second_lt := .inl (by omega)
  digits_lt := by simp

variable {date : GregorianDate} (hnonneg : 0 ≤ date.year) (hle : date.year ≤ 9999) {sec : ℕ}
  (hsec : sec < 86400)

theorem daySecond_stampAt : (date.stampAt hnonneg hle sec hsec).daySecond = sec := by
  unfold stampAt UtcStamp.daySecond
  dsimp only
  omega

theorem chars_stampAt : (date.stampAt hnonneg hle sec hsec).chars =
    dateText (paddedYear date.year) date.month date.day ++ 'T' :: timeText sec := by
  have hmonth := date.month_le
  have hyear : date.year.natAbs = date.year.toNat := by omega
  unfold stampAt UtcStamp.chars UtcStamp.baseChars dateText timeText paddedYear fractionChars
  rw [if_neg (not_lt.mpr hnonneg), hyear, zeroPadded_eq_fixed (by decide) (by omega),
    zeroPadded_eq_fixed (by decide) (by omega), zeroPadded_eq_fixed (by decide) (day_lt date),
    zeroPadded_eq_fixed (by decide) (by omega), zeroPadded_eq_fixed (by decide) (by omega),
    zeroPadded_eq_fixed (by decide) (by omega)]
  simp [UtcZone.chars]

end GregorianDate

section

variable {t : UtcStamp} {date : GregorianDate}

/-- The order of a text and of a second with a `Z`. -/
theorem chars_lt_stampAt_iff (hnonneg : 0 ≤ date.year) (hle : date.year ≤ 9999) {sec : ℕ}
    (hsec : sec < 86400) (hlower : t.lowerT = false) (more : List Char) :
    t.chars ++ more < (date.stampAt hnonneg hle sec hsec).chars ↔
      (t.date.dayNumber < date.dayNumber ∨
        t.date.dayNumber = date.dayNumber ∧ t.daySecond < sec) ∨
      (t.date.dayNumber = date.dayNumber ∧ t.daySecond = sec) ∧ t.StandsBeforeZ := by
  have h := @UtcStamp.chars_lt_iff t (date.stampAt hnonneg hle sec hsec) hlower more
  unfold UtcStamp.EarlierSecond UtcStamp.SameSecond at h
  rw [GregorianDate.daySecond_stampAt] at h
  rw [h, ← fraction_lt_upperZ t more]
  rfl

/-- A text before a longer number comes first if and only if its own number does. -/
theorem append_lt_longer_iff {a b : List Char} (hlength : a.length < b.length)
    (hb : ∀ c ∈ b, '-' < c) (r s : List Char) : a ++ '-' :: r < b ++ s ↔ a < b := by
  obtain ⟨b₁, c, b₂, rfl, hfirst⟩ : ∃ b₁ c b₂, b = b₁ ++ c :: b₂ ∧ a.length = b₁.length := by
    obtain ⟨c, b₂, hdrop⟩ : ∃ c b₂, b.drop a.length = c :: b₂ :=
      exists_cons_of_ne_nil (by simpa using hlength)
    refine ⟨b.take a.length, c, b₂, ?_, ?_⟩
    · rw [← hdrop, take_append_drop]
    · rw [length_take]
      omega
  have hc : '-' < c := hb c (by simp)
  rw [append_assoc]
  rcases lt_trichotomy a b₁ with hlt | rfl | hgt
  · have hshort := append_lt_of_lt hfirst hlt (c := []) (d := c :: b₂)
    rw [append_nil] at hshort
    exact iff_of_true (append_lt_of_lt hfirst hlt) hshort
  · refine iff_of_true ?_ ?_
    · rw [append_lt_append_iff]
      exact cons_lt_of_lt hc
    · nth_rewrite 1 [← append_nil a]
      rw [append_lt_append_iff]
      exact nil_lt_cons _ _
  · have hshort := append_lt_of_lt hfirst.symm hgt (c := c :: b₂) (d := [])
    rw [append_nil] at hshort
    exact iff_of_false (append_lt_of_lt hfirst.symm hgt).not_gt hshort.not_gt

/-- The order of a text and of a time from the year 10000 on. -/
theorem chars_lt_largeYear_iff (h : 9999 < date.year) (more rest : List Char) :
    t.chars ++ more < dateText (paddedYear date.year) date.month date.day ++ rest ↔
      fixed 4 t.date.year.toNat < Nat.toDigits 10 date.year.toNat := by
  have hlength : 4 < (Nat.toDigits 10 date.year.toNat).length := by
    rw [← not_le, Nat.length_toDigits_le_iff (by decide) (by decide)]
    omega
  have hyear : paddedYear date.year = Nat.toDigits 10 date.year.toNat := by
    have habs : date.year.natAbs = date.year.toNat := by omega
    rw [paddedYear, if_neg (by omega), habs, zeroPadded, Nat.sub_eq_zero_of_le hlength.le]
    rfl
  have hdigits : ∀ c ∈ Nat.toDigits 10 date.year.toNat, '-' < c := by
    intro c hc
    have hdigit := Nat.isDigit_of_mem_toDigits (by decide) (by decide) hc
    have hzero : '0' ≤ c := by
      simp only [Char.isDigit, Bool.and_eq_true, decide_eq_true_eq] at hdigit
      exact hdigit.1
    exact lt_of_lt_of_le (by decide) hzero
  obtain ⟨tail, htail⟩ : ∃ tail, t.chars ++ more = fixed 4 t.date.year.toNat ++ '-' :: tail := by
    unfold UtcStamp.chars UtcStamp.baseChars
    exact ⟨_, by rw [append_assoc, append_assoc, cons_append]⟩
  rw [htail, dateText, hyear, append_assoc, append_assoc]
  exact append_lt_longer_iff (by rw [length_fixed]; exact hlength) hdigits _ _

/-! ## Thresholds of durations -/

/-- What is dropped under the text of a time is earlier exactly where `AgreesSince` says so. -/
theorem agreesSince_iff (threshold : SystemTime) {text : List Char}
    (htext : systemTimeToRfc3339 threshold = some (String.ofList text)) (more : List Char) :
    AgreesSince threshold.secs threshold.nanos t ↔
      ((t.lowerT = false ∧ t.chars ++ more < text) ↔
        t.instant < instantAt threshold.secs threshold.nanos) := by
  obtain ⟨date, hday, hdate⟩ := systemTimeToRfc3339_eq threshold
  obtain rfl : text = dateText (paddedYear date.year) date.month date.day ++
      'T' :: timeText (threshold.secs.toNat % 86400) := by
    rw [htext] at hdate
    have hlists := congrArg String.toList (some.inj hdate)
    rwa [String.toList_ofList, String.toList_ofList] at hlists
  have hnonneg : 0 ≤ date.year := GregorianDate.year_nonneg_of_dayNumber (by rw [hday]; positivity)
  unfold AgreesSince
  cases hlower : t.lowerT with
  | true => simp
  | false =>
    rw [if_neg (by decide), and_iff_right rfl]
    by_cases hsecs : threshold.secs < 0
    · -- the threshold is the beginning of 1970
      have hzero : threshold.secs.toNat = 0 := by omega
      rw [hzero] at hday ⊢
      have hle : date.year ≤ 9999 := by
        have hbefore := date.daysBefore_le_dayNumber
        unfold daysBefore at hbefore
        omega
      rw [if_pos hsecs, ← GregorianDate.chars_stampAt hnonneg hle (by decide),
        chars_lt_stampAt_iff _ _ _ hlower, hday]
      have hbefore : t.instant < instantAt threshold.secs threshold.nanos →
          t.date.dayNumber < 0 := by
        unfold UtcStamp.instant instantAt
        rw [Instant.of_lt]
        omega
      simp only [Nat.zero_div, Nat.cast_zero, Nat.zero_mod, Nat.not_lt_zero, and_false, or_false]
      constructor
      · rintro ⟨hrange, hfirst⟩
        refine ⟨?_, fun h => .inl (hbefore h)⟩
        rintro (hneg | ⟨⟨hday, hsecond⟩, hz⟩)
        · exact hrange hneg
        · exact absurd ⟨hday, hsecond, hz⟩ hfirst
      · intro h
        refine ⟨fun hneg => h.mp (.inl hneg), ?_⟩
        rintro ⟨hday, hsecond, hz⟩
        have hneg := hbefore (h.mp (.inr ⟨⟨hday, hsecond⟩, hz⟩))
        omega
    · have hdays : threshold.secs / 86400 = date.dayNumber := by
        rw [hday]
        omega
      have hseconds : (threshold.secs % 86400).toNat = threshold.secs.toNat % 86400 := by omega
      have honly : ∀ {p : GregorianDate → Prop},
          (∀ date', date'.dayNumber = date.dayNumber → p date') ↔ p date := by
        intro p
        refine ⟨fun h => h date rfl, fun h date' hsame => ?_⟩
        obtain rfl := GregorianDate.dayNumber_strictMono.injective hsame
        exact h
      unfold UtcStamp.instant instantAt
      rw [if_neg hsecs, hdays, honly, Instant.of_lt, hseconds,
        ← GregorianDate.dayNumber_strictMono.injective.eq_iff]
      by_cases hle : date.year ≤ 9999
      · rw [if_pos hle, ← GregorianDate.chars_stampAt hnonneg hle (Nat.mod_lt _ (by decide)),
          chars_lt_stampAt_iff _ _ _ hlower]
        by_cases hsame : t.date.dayNumber = date.dayNumber
        · by_cases hsecond : t.daySecond = threshold.secs.toNat % 86400
          · simp [hsame, hsecond]
          · simp [hsame, hsecond]
        · simp [hsame]
      · have hyear := t.year_le
        have hearlier : t.date.dayNumber < date.dayNumber :=
          GregorianDate.dayNumber_strictMono (GregorianDate.lt_iff.mpr (.inl (by omega)))
        rw [if_neg hle, chars_lt_largeYear_iff (not_le.mp hle)]
        exact (iff_true_right (Or.inl hearlier)).symm

/-! ## The filter -/

/-- A line that starts with a timestamp is dropped where its first field comes before a threshold.
-/
theorem dropsLine_iff {threshold : Option String}
    (hparse : parseSinceThreshold now since = some threshold) (t : UtcStamp) (more : List Char) :
    DropsLine now since (String.ofList (t.chars ++ more)) ↔
      t.lowerT = false ∧ ∃ text, threshold = some (String.ofList text) ∧
        t.chars ++ more.takeWhile (fun c => !isDelimiter c) < text := by
  unfold DropsLine isBeforeThreshold
  rw [hparse, t.extractTimestamp_chars]
  simp only [some.injEq, exists_eq_left']
  cases hlower : t.lowerT with
  | true => cases threshold <;> simp
  | false =>
    cases threshold with
    | none => simp
    | some threshold =>
      have htext : ∀ text, some threshold = some (String.ofList text) ↔ text = threshold.toList := by
        intro text
        rw [some.injEq]
        exact ⟨fun h => by rw [h, String.toList_ofList],
          fun h => by rw [h, String.ofList_toList]⟩
      simp only [htext, exists_eq_left, true_and, Bool.false_eq_true, if_false,
        decide_eq_true_eq, String.lt_iff, String.toList_ofList]

theorem agrees_stamp_iff {threshold : UtcStamp} (htrim : trim since = String.ofList threshold.chars)
    (t : UtcStamp) (more : List Char) :
    (SinceValue.stamp threshold).Agrees now t ↔
      (DropsLine now since (String.ofList (t.chars ++ more)) ↔ t.instant < threshold.instant) := by
  rw [dropsLine_iff (parseSinceThreshold_stamp now htrim), SinceValue.Agrees]
  by_cases hsmall : threshold.lowerT = true ∨ t.lowerT = true
  · rw [if_pos hsmall]
    refine (iff_false_left ?_).symm
    rintro ⟨ht, text, htext, -⟩
    rcases hsmall with h | h
    · rw [if_pos h] at htext
      exact absurd htext nofun
    · exact absurd (ht.symm.trans h) (by decide)
  · rw [if_neg hsmall]
    rw [not_or, Bool.not_eq_true, Bool.not_eq_true] at hsmall
    obtain ⟨hlower, ht⟩ := hsmall
    have htext : ∀ text, some (String.ofList threshold.chars) = some (String.ofList text) ↔
        text = threshold.chars := by
      intro text
      rw [some.injEq, String.ofList_inj]
      exact eq_comm
    rw [if_neg (by rw [hlower]; decide), and_iff_right ht]
    simp only [htext, exists_eq_left]
    rw [UtcStamp.chars_lt_iff (ht.trans hlower.symm), UtcStamp.instant_lt_iff,
      fractionsAgree_iff t.digits_lt threshold.digits_lt _ _
        (more.takeWhile fun c => !isDelimiter c)]
    by_cases hsame : t.SameSecond threshold
    · have hnot : ¬t.EarlierSecond threshold := by
        unfold UtcStamp.SameSecond at hsame
        unfold UtcStamp.EarlierSecond
        omega
      simp [hsame, hnot]
    · simp [hsame]

theorem daysBefore_zero_le_dayNumber (t : UtcStamp) : -719528 ≤ t.date.dayNumber := by
  have hbefore := t.date.daysBefore_le_dayNumber
  have hyear := t.year_nonneg
  unfold daysBefore at hbefore
  omega

theorem agrees_duration_iff {digits : List ℕ} {unit : DurationUnit} (hne : digits ≠ [])
    (hdigits : ∀ d ∈ digits, d < 10)
    (htrim : trim since = String.ofList (DecimalFraction.chars digits ++ [unit.letter]))
    (hsome : (parseSinceThreshold now since).isSome) (t : UtcStamp) (more : List Char) :
    (SinceValue.duration digits unit hne hdigits).Agrees now t ↔
      (DropsLine now since (String.ofList (t.chars ++ more)) ↔
        t.instant < instantAt (now.secs - numberOf digits * unit.secs) now.nanos) := by
  have hparse := parseSinceThreshold_duration hne hdigits htrim hsome
  rw [SinceValue.Agrees]
  by_cases hword : I64.IsWord (now.secs - numberOf digits * unit.secs)
  · obtain ⟨threshold, hsub, hsecs, hnanos⟩ : ∃ threshold : SystemTime,
        now.checkedSub (numberOf digits * unit.secs) = some threshold ∧
          threshold.secs = now.secs - numberOf digits * unit.secs ∧
            threshold.nanos = now.nanos := by
      refine ⟨⟨_, now.nanos, hword, now.nanos_lt⟩, ?_, rfl, rfl⟩
      unfold SystemTime.checkedSub
      rw [Nat.cast_mul, dif_pos hword]
    obtain ⟨date, -, htext⟩ := systemTimeToRfc3339_eq threshold
    rw [hsub] at hparse
    dsimp only at hparse
    rw [htext, Option.map_some] at hparse
    rw [forall_prop_of_true hword, ← hsecs, ← hnanos, dropsLine_iff hparse,
      agreesSince_iff threshold htext (more.takeWhile fun c => !isDelimiter c)]
    simp only [some.injEq, String.ofList_inj, exists_eq_left']
  · have hsub : now.checkedSub (numberOf digits * unit.secs) = none := by
      unfold SystemTime.checkedSub
      rw [Nat.cast_mul, dif_neg hword]
    rw [hsub] at hparse
    have hclock := now.secs_isWord.2
    have hold : now.secs - numberOf digits * unit.secs < -2^63 := by
      have hsubtracted : (0 : ℤ) ≤ numberOf digits * unit.secs := by positivity
      unfold I64.IsWord at hword
      omega
    refine iff_of_true (fun h => absurd h hword) (iff_of_false ?_ ?_)
    · rw [dropsLine_iff hparse]
      rintro ⟨-, text, htext, -⟩
      exact absurd htext nofun
    · have hday := daysBefore_zero_le_dayNumber t
      unfold UtcStamp.instant instantAt
      rw [Instant.of_lt]
      omega

/-- Where the value is read, the filter is right for a line exactly if the value agrees with it. -/
theorem agrees_iff {value : SinceValue} (htrim : trim since = String.ofList value.chars)
    (hsome : (parseSinceThreshold now since).isSome) (t : UtcStamp) (more : List Char) :
    value.Agrees now t ↔ (DropsLine now since (String.ofList (t.chars ++ more)) ↔
      t.instant < value.instant now) := by
  cases value with
  | stamp threshold => exact agrees_stamp_iff htrim t more
  | duration digits unit hne hdigits => exact agrees_duration_iff hne hdigits htrim hsome t more

/-- No panic and the order of the instants, exactly where the value can be split off its unit and
agrees with the line. -/
theorem filterRight_iff (now : SystemTime) (since line : String) : FilterRight now since line ↔
    Splittable since ∧ ∀ (value : SinceValue) (t : UtcStamp) (more : List Char),
      trim since = String.ofList value.chars → line = String.ofList (t.chars ++ more) →
        value.Agrees now t := by
  constructor
  · intro h
    refine ⟨(isSome_parseSinceThreshold_iff now since).mp h.total, ?_⟩
    rintro value t more htrim rfl
    exact (agrees_iff htrim h.total t more).mpr (h.chronological value t more htrim rfl)
  · rintro ⟨hsplit, hagrees⟩
    have hsome := (isSome_parseSinceThreshold_iff now since).mpr hsplit
    refine ⟨hsome, ?_⟩
    rintro value t more htrim rfl
    exact (agrees_iff htrim hsome t more).mp (hagrees value t more htrim rfl)

end

/-- The beginning of the year 2026, with digits behind the second. -/
def newYear2026 (digits : List ℕ) (h : ∀ d ∈ digits, d < 10) : UtcStamp where
  date := ⟨2026, 1, 1, by decide, by decide, by decide, by decide⟩
  hour := 0
  minute := 0
  second := 0
  digits := digits
  lowerT := false
  zone := .upperZ
  year_nonneg := by decide
  year_le := by decide
  hour_lt := by decide
  minute_lt := by decide
  second_lt := .inl (by decide)
  digits_lt := h

/-- A line half a second later than the threshold is dropped. -/
theorem laterLine_dropped : ¬FilterRight ⟨0, 0, by decide, by decide⟩ "2026-01-01T00:00:00Z"
    "2026-01-01T00:00:00.5Z started" := by
  intro h
  have htrim : trim "2026-01-01T00:00:00Z" = String.ofList (newYear2026 [] (by simp)).chars := by
    decide +kernel
  have hline : "2026-01-01T00:00:00.5Z started" =
      String.ofList ((newYear2026 [5] (by simp)).chars ++ " started".toList) := by decide +kernel
  have hright := h.chronological (.stamp (newYear2026 [] (by simp))) (newYear2026 [5] (by simp)) _
    htrim hline
  rw [hline] at hright
  have hagrees := (agrees_stamp_iff htrim _ _).mpr hright
  have hfractions := hagrees ⟨rfl, rfl⟩
  exact absurd (hfractions.longer 5 [] rfl) (by decide)

end Oxydra
