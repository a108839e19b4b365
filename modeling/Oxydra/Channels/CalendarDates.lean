import Mathlib.Data.Int.ConditionallyCompleteOrder
import Oxydra.Library.CheckedWord
import Oxydra.Scheduler.EpochSeconds

/-!
# Calendar dates of the clock

`days_to_ymd` of `crates/channels/src/audit.rs` and `system_time_to_rfc3339` of
`crates/runner/src/lib.rs` turn days since the year 1970 into a date, with the same closed form: in
an era of 400 years that begin in March, the year and the day of the year, and from the latter the
month. The one counts in unsigned words and the other in signed ones, and an overflow is a panic.

`daysToYmd_gregorian`: as long as the sums fit, both give the date of the Gregorian calendar whose
day number is the number of days.
-/

namespace Oxydra

open Option

/-! ## Dates -/

/-- The elements before one place and the one there are among those before a later place. -/
theorem sum_take_add_getD_le (l : List ℕ) {k k' : ℕ} (h : k < k') :
    (l.take k).sum + l.getD k 0 ≤ (l.take k').sum := by
  induction l generalizing k k' with
  | nil => simp
  | cons x l ih =>
    obtain ⟨j, rfl⟩ : ∃ j, k' = j + 1 := ⟨k' - 1, by omega⟩
    cases k with
    | zero => simp
    | succ k =>
      have hrest := ih (show k < j by omega)
      simp only [List.take_succ_cons, List.sum_cons, List.getD_cons_succ]
      omega

/-- A date of the proleptic Gregorian calendar. -/
@[ext]
structure GregorianDate where
  year : ℤ
  month : ℕ
  day : ℕ
  month_pos : 1 ≤ month
  month_le : month ≤ 12
  day_pos : 1 ≤ day
  day_le : day ≤ (monthLengths year).getD (month - 1) 0

instance : DecidableEq GregorianDate := fun a b =>
  decidable_of_iff (a.year = b.year ∧ a.month = b.month ∧ a.day = b.day) GregorianDate.ext_iff.symm

namespace GregorianDate

/-- What dates are compared by. -/
def key (date : GregorianDate) : ℤ ×ₗ ℕ ×ₗ ℕ := toLex (date.year, toLex (date.month, date.day))

/-- The key has the whole date. -/
theorem key_injective : Function.Injective key := by
  intro a b h
  simp only [key, EmbeddingLike.apply_eq_iff_eq, Prod.mk.injEq] at h
  obtain ⟨hyear, hmonth, hday⟩ := h
  exact GregorianDate.ext hyear hmonth hday

/-- Dates are ordered by the year, the month, and the day. -/
instance : LinearOrder GregorianDate := LinearOrder.lift' key key_injective

/-- By the year, then the month, then the day. -/
theorem lt_iff {a b : GregorianDate} : a < b ↔ a.year < b.year ∨ a.year = b.year ∧
    (a.month < b.month ∨ a.month = b.month ∧ a.day < b.day) := by
  change key a < key b ↔ _
  simp [key, Prod.Lex.toLex_lt_toLex]

/-- The days from 1970-01-01 to the date. -/
def dayNumber (date : GregorianDate) : ℤ :=
  daysBefore date.year + ((monthLengths date.year).take (date.month - 1)).sum + date.day - 1

/-- A date is in its year. -/
theorem daysBefore_le_dayNumber (date : GregorianDate) :
    daysBefore date.year ≤ date.dayNumber := by
  have hday := date.day_pos
  unfold dayNumber
  omega

/-- And not in the next. -/
theorem dayNumber_lt_daysBefore (date : GregorianDate) :
    date.dayNumber < daysBefore (date.year + 1) := by
  have hday := date.day_le
  have hle := date.month_le
  have hmonths := sum_take_add_getD_le (monthLengths date.year)
    (show date.month - 1 < 12 by omega)
  have htake : (monthLengths date.year).take 12 = monthLengths date.year :=
    List.take_of_length_le le_rfl
  rw [htake] at hmonths
  rw [daysBefore_succ]
  unfold dayNumber
  omega

/-- A later date has a larger number. -/
theorem dayNumber_strictMono : StrictMono dayNumber := by
  intro a b h
  rcases lt_iff.mp h with hyear | ⟨hyear, hdate⟩
  · have hnext : daysBefore (a.year + 1) ≤ daysBefore b.year := by
      unfold daysBefore
      omega
    calc a.dayNumber < daysBefore (a.year + 1) := a.dayNumber_lt_daysBefore
      _ ≤ daysBefore b.year := hnext
      _ ≤ b.dayNumber := b.daysBefore_le_dayNumber
  · unfold dayNumber
    rw [hyear]
    rcases hdate with hmonth | ⟨hmonth, hday⟩
    · have hday := a.day_le
      have hday' := b.day_pos
      have hpos := a.month_pos
      have hmonths := sum_take_add_getD_le (monthLengths b.year)
        (show a.month - 1 < b.month - 1 by omega)
      rw [hyear] at hday
      omega
    · rw [hmonth]
      omega
end GregorianDate

/-! ## The closed form -/

/-- `yoe`, the year of the era, of the day of the era. -/
def yearOfEra (doe : ℕ) : Option ℕ := do
  let days ← U64.checkedAdd (← U64.checkedSub doe (doe / 1460)) (doe / 36524)
  return (← U64.checkedSub days (doe / 146096)) / 365

/-- `doy`, the day of the year from March on. -/
def dayOfYear (doe yoe : ℕ) : Option ℕ := do
  let days ← U64.checkedAdd (← U64.checkedMul 365 yoe) (yoe / 4)
  U64.checkedSub doe (← U64.checkedSub days (yoe / 100))

/-- `(m, d)`, the month and its day, of the day of the year. -/
def monthDayOf (doy : ℕ) : Option (ℕ × ℕ) := do
  let mp := (← U64.checkedAdd (← U64.checkedMul 5 doy) 2) / 153
  let before := (← U64.checkedAdd (← U64.checkedMul 153 mp) 2) / 5
  let d ← U64.checkedAdd (← U64.checkedSub doy before) 1
  let m ← if mp < 10 then U64.checkedAdd mp 3 else U64.checkedSub mp 9
  return (m, d)

/-- `days_to_ymd`. -/
def daysToYmd (days : ℕ) : Option (ℕ × ℕ × ℕ) := do
  let z ← U64.checkedAdd days 719468
  let era := z / 146097
  let doe ← U64.checkedSub z (← U64.checkedMul era 146097)
  let yoe ← yearOfEra doe
  let y ← U64.checkedAdd yoe (← U64.checkedMul era 400)
  let (m, d) ← monthDayOf (← dayOfYear doe yoe)
  let y ← if m ≤ 2 then U64.checkedAdd y 1 else some y
  return (y, m, d)

/-- The civil date in `system_time_to_rfc3339`. -/
def civilDate (days : ℕ) : Option (ℤ × ℕ × ℕ) := do
  let z ← I64.checkedAdd (I64.ofU64 days) 719468
  let era := (← if z ≥ 0 then some z else I64.checkedSub z 146096).tdiv 146097
  let doe := I64.toU64 (← I64.checkedSub z (← I64.checkedMul era 146097))
  let yoe ← yearOfEra doe
  let y ← I64.checkedAdd (I64.ofU64 yoe) (← I64.checkedMul era 400)
  let (m, d) ← monthDayOf (← dayOfYear doe yoe)
  let y ← if m ≤ 2 then I64.checkedAdd y 1 else some y
  return (y, m, d)

/-! ## The clock -/

/-- `SystemTime`: the seconds since the beginning of the year 1970, and the nanoseconds. -/
structure SystemTime where
  secs : ℤ
  nanos : ℕ
  secs_isWord : I64.IsWord secs
  nanos_lt : nanos < 10^9
  deriving DecidableEq

/-- `UNIX_EPOCH`. -/
def SystemTime.unixEpoch : SystemTime := ⟨0, 0, by decide, by decide⟩

/-- `{n:0width$}`. -/
def zeroPadded (width n : ℕ) : List Char :=
  List.replicate (width - (Nat.toDigits 10 n).length) '0' ++ Nat.toDigits 10 n

/-- `{y:04}` of a signed word. -/
def paddedYear (y : ℤ) : List Char :=
  if y < 0 then '-' :: zeroPadded 3 y.natAbs else zeroPadded 4 y.natAbs

/-- `{year}-{m:02}-{d:02}`, after the text of the year. -/
def dateText (year : List Char) (m d : ℕ) : List Char :=
  year ++ '-' :: zeroPadded 2 m ++ '-' :: zeroPadded 2 d

/-- `{hour:02}:{minute:02}:{second:02}Z`. -/
def timeText (daySecs : ℕ) : List Char :=
  zeroPadded 2 (daySecs / 3600) ++ ':' :: zeroPadded 2 (daySecs % 3600 / 60) ++
    ':' :: zeroPadded 2 (daySecs % 60) ++ ['Z']

/-- `duration_since(UNIX_EPOCH)` in seconds, or `none` before the epoch. -/
def SystemTime.asSecs (t : SystemTime) : Option ℕ :=
  if 0 ≤ t.secs then some t.secs.toNat else none

/-- `now_iso8601`. -/
def nowIso8601 (now : SystemTime) : Option String :=
  match now.asSecs with
  | some secs => do
    let (year, month, day) ← daysToYmd (secs / 86400)
    return String.ofList (dateText (zeroPadded 4 year) month day ++ 'T' :: timeText (secs % 86400))
  | none => some "1970-01-01T00:00:00Z"

/-- `system_time_to_rfc3339`. -/
def systemTimeToRfc3339 (t : SystemTime) : Option String := do
  let totalSecs := t.asSecs.getD 0
  let (y, m, d) ← civilDate (totalSecs / 86400)
  return String.ofList (dateText (paddedYear y) m d ++ 'T' :: timeText (totalSecs % 86400))

/-! ## What the closed form gives -/

/-- A day of the era as the century `c`, the four years `q`, the year `r`, and the day of the year,
which begins in March. Only the last of four years has a day more at its end, and of the last four
years of a century only those that end the era. -/
theorem exists_yearOfEra {doe : ℕ} (h : doe < 146097) :
    ∃ c q r doy, c ≤ 3 ∧ q ≤ 24 ∧ r ≤ 3 ∧ doe = 36524 * c + 1461 * q + 365 * r + doy ∧
      doy ≤ 365 ∧ (doy = 365 → r = 3 ∧ (q = 24 → c = 3)) := by
  obtain ⟨c, hc⟩ : ∃ c, c = if doe = 146096 then 3 else doe / 36524 := ⟨_, rfl⟩
  have hc' : c ≤ 3 ∧ 36524 * c ≤ doe ∧ (doe - 36524 * c < 36524 ∨ c = 3 ∧ doe = 146096) := by
    split_ifs at hc with hlast
    · omega
    · omega
  obtain ⟨rest, hrest⟩ : ∃ rest, rest = doe - 36524 * c := ⟨_, rfl⟩
  obtain ⟨q, hq⟩ : ∃ q, q = rest / 1461 := ⟨_, rfl⟩
  obtain ⟨rest', hrest'⟩ : ∃ rest', rest' = rest - 1461 * q := ⟨_, rfl⟩
  obtain ⟨r, hr⟩ : ∃ r, r = if rest' = 1460 then 3 else rest' / 365 := ⟨_, rfl⟩
  have hr' : r ≤ 3 ∧ 365 * r ≤ rest' ∧ (rest' - 365 * r < 365 ∨ r = 3 ∧ rest' = 1460) := by
    split_ifs at hr with hlast
    · omega
    · omega
  clear hc hr
  exact ⟨c, q, r, rest' - 365 * r, hc'.1, by omega, hr'.1, by omega, by omega, by omega⟩

/-- The closed form finds the year of the era. -/
theorem yearOfEra_eq {doe c q r doy : ℕ} (hc : c ≤ 3) (hq : q ≤ 24) (hr : r ≤ 3)
    (hdoe : doe = 36524 * c + 1461 * q + 365 * r + doy) (hdoy : doy ≤ 365)
    (hlast : doy = 365 → r = 3 ∧ (q = 24 → c = 3)) :
    yearOfEra doe = some (100 * c + 4 * q + r) := by
  have hcentury : 1461 * q + 365 * r + doy < 36524 ∨
      c = 3 ∧ 1461 * q + 365 * r + doy = 36524 := by omega
  have hcenturies : doe / 36524 - doe / 146096 = c ∧ doe / 146096 ≤ doe / 36524 := by omega
  have hfours : doe / 1460 = 25 * c + q + (24 * c + q + 365 * r + doy) / 1460 := by omega
  -- The days that are subtracted but do not belong to a leap day before the year.
  generalize hcarry : (24 * c + q + 365 * r + doy) / 1460 = carry at hfours
  have hcarry' : carry ≤ doy ∧ doy - carry ≤ 364 := by
    interval_cases r <;> omega
  unfold yearOfEra
  rw [U64.checkedSub_of_le (by omega), bind_eq_bind, bind_some,
    U64.checkedAdd_of_lt (by unfold U64.size; omega)]
  rw [bind_some, U64.checkedSub_of_le (by omega)]
  simp only [bind_some, pure_def, Option.some.injEq]
  omega

/-- And the day of the year. -/
theorem dayOfYear_eq {doe c q r doy : ℕ} (hc : c ≤ 3) (hq : q ≤ 24) (hr : r ≤ 3)
    (hdoe : doe = 36524 * c + 1461 * q + 365 * r + doy) :
    dayOfYear doe (100 * c + 4 * q + r) = some doy := by
  unfold dayOfYear
  rw [U64.checkedMul_of_lt (by unfold U64.size; omega), bind_eq_bind, bind_some,
    U64.checkedAdd_of_lt (by unfold U64.size; omega)]
  rw [bind_some, U64.checkedSub_of_le (by omega), bind_some,
    U64.checkedSub_of_le (by omega)]
  congr 1
  omega

/-- The days of a year before a month after February. -/
theorem sum_take_monthLengths (year : ℤ) {mp : ℕ} (h : mp < 10) :
    ((monthLengths year).take (mp + 2)).sum =
      (if isLeapYear year then 60 else 59) + (153 * mp + 2) / 5 := by
  unfold monthLengths
  split_ifs
  · interval_cases mp <;> rfl
  · interval_cases mp <;> rfl

/-- The days of a month after February. -/
theorem getD_monthLengths (year : ℤ) {mp : ℕ} (h : mp < 10) :
    (monthLengths year).getD (mp + 2) 0 = (153 * (mp + 1) + 2) / 5 - (153 * mp + 2) / 5 := by
  unfold monthLengths
  interval_cases mp <;> rfl

/-- The month and the day of a day of the year that begins in March of the year `y`: those of a date
of the calendar. -/
theorem monthDayOf_spec {doy : ℕ} (hdoy : doy ≤ 365) :
    ∃ m d, monthDayOf doy = some (m, d) ∧ ∀ y : ℤ, (doy = 365 → isLeapYear (y + 1)) →
      ∃ date : GregorianDate, date.year = (if m ≤ 2 then y + 1 else y) ∧ date.month = m ∧
        date.day = d ∧ date.dayNumber = daysBefore (y + 1) - 306 + doy := by
  obtain ⟨mp, hmp⟩ : ∃ mp, mp = (5 * doy + 2) / 153 := ⟨_, rfl⟩
  have hbounds : mp ≤ 11 ∧ (153 * mp + 2) / 5 ≤ doy ∧ doy < (153 * (mp + 1) + 2) / 5 := by omega
  have hread : monthDayOf doy =
      some (if mp < 10 then mp + 3 else mp - 9, doy - (153 * mp + 2) / 5 + 1) := by
    have hfive := U64.checkedMul_of_lt (show 5 * doy < U64.size by unfold U64.size; omega)
    have htwo := U64.checkedAdd_of_lt (show 5 * doy + 2 < U64.size by unfold U64.size; omega)
    have hdays := U64.checkedMul_of_lt (show 153 * mp < U64.size by unfold U64.size; omega)
    have hdays' := U64.checkedAdd_of_lt (show 153 * mp + 2 < U64.size by unfold U64.size; omega)
    have hrest := U64.checkedSub_of_le hbounds.2.1
    have hday := U64.checkedAdd_of_lt
      (show doy - (153 * mp + 2) / 5 + 1 < U64.size by unfold U64.size; omega)
    simp only [monthDayOf, bind_eq_bind, hfive, htwo, bind_some, ← hmp, hdays, hdays',
      hrest, hday]
    split_ifs with h
    · rw [U64.checkedAdd_of_lt (by unfold U64.size; omega)]
      rfl
    · rw [U64.checkedSub_of_le (by omega)]
      rfl
  refine ⟨_, _, hread, fun y hleap => ?_⟩
  clear hmp hread
  obtain ⟨hle, hfrom, hto⟩ := hbounds
  obtain ⟨offset, hoffset⟩ : ∃ offset, offset = (153 * mp + 2) / 5 := ⟨_, rfl⟩
  rw [← hoffset] at hfrom ⊢
  by_cases hm : mp < 10
  · -- From March to December.
    rw [if_pos hm, if_neg (by omega)]
    have hlength := getD_monthLengths y hm
    have hdays := sum_take_monthLengths y hm
    refine ⟨⟨y, mp + 3, doy - offset + 1, by omega, by omega, by omega, ?_⟩, rfl, rfl, rfl, ?_⟩
    · rw [Nat.add_sub_assoc (by decide), hlength]
      omega
    · have hyear := daysBefore_succ y
      rw [sum_monthLengths] at hyear
      unfold GregorianDate.dayNumber
      dsimp only
      rw [hyear, Nat.add_sub_assoc (by decide), hdays]
      split_ifs <;> omega
  · -- January and February are of the next year.
    rw [if_neg hm, if_pos (by omega)]
    have hindex : mp - 9 - 1 = mp - 10 := by omega
    have hlength : doy - offset + 1 ≤ (monthLengths (y + 1)).getD (mp - 10) 0 := by
      obtain rfl | rfl : mp = 10 ∨ mp = 11 := by omega
      · change _ ≤ 31
        omega
      · change _ ≤ if isLeapYear (y + 1) then 29 else 28
        split_ifs with h
        · omega
        · have hnot : doy ≠ 365 := fun hlast => h (hleap hlast)
          omega
    have hdays : ((monthLengths (y + 1)).take (mp - 10)).sum + 306 = offset := by
      obtain rfl | rfl : mp = 10 ∨ mp = 11 := by omega
      · exact hoffset.symm
      · exact hoffset.symm
    refine ⟨⟨y + 1, mp - 9, doy - offset + 1, by omega, by omega, by omega, ?_⟩, rfl, rfl, rfl, ?_⟩
    · rw [hindex]
      exact hlength
    · unfold GregorianDate.dayNumber
      dsimp only
      rw [hindex]
      omega

/-- The closed form gives the date of a day of an era. -/
theorem closedForm_spec {doe : ℕ} (h : doe < 146097) :
    ∃ yoe doy m d, yearOfEra doe = some yoe ∧ yoe < 400 ∧ dayOfYear doe yoe = some doy ∧
      monthDayOf doy = some (m, d) ∧ ∀ era : ℤ, ∃ date : GregorianDate,
        date.year = (if m ≤ 2 then yoe + era * 400 + 1 else yoe + era * 400) ∧ date.month = m ∧
          date.day = d ∧ date.dayNumber = era * 146097 + doe - 719468 := by
  obtain ⟨c, q, r, doy, hc, hq, hr, hdoe, hdoy, hlast⟩ := exists_yearOfEra h
  obtain ⟨m, d, hread, hdate⟩ := monthDayOf_spec hdoy
  refine ⟨_, doy, m, d, yearOfEra_eq hc hq hr hdoe hdoy hlast, by omega,
    dayOfYear_eq hc hq hr hdoe, hread, fun era => ?_⟩
  obtain ⟨date, hyear, hmonth, hday, hnumber⟩ :=
    hdate (((100 * c + 4 * q + r : ℕ) : ℤ) + era * 400) fun hleap => by
      obtain ⟨rfl, hcentury⟩ := hlast hleap
      unfold isLeapYear
      rw [decide_eq_true_iff]
      omega
  refine ⟨date, hyear, hmonth, hday, hnumber.trans ?_⟩
  clear hdate hyear hnumber hread hlast
  obtain ⟨y, hy⟩ : ∃ y : ℤ, y = ((100 * c + 4 * q + r : ℕ) : ℤ) + era * 400 := ⟨_, rfl⟩
  have hfours : y / 4 = 25 * c + q + 100 * era := by omega
  have hhundreds : y / 100 = c + 4 * era := by omega
  have heras : y / 400 = era := by omega
  rw [← hy]
  unfold daysBefore
  rw [add_sub_cancel_right, hfours, hhundreds, heras]
  omega

/-- What `days_to_ymd` gives. -/
theorem daysToYmd_spec {days : ℕ} (h : days + 719468 < U64.size) :
    ∃ date : GregorianDate, 0 ≤ date.year ∧ date.dayNumber = days ∧
      daysToYmd days = some (date.year.toNat, date.month, date.day) := by
  obtain ⟨z, hz⟩ : ∃ z, z = days + 719468 := ⟨_, rfl⟩
  obtain ⟨era, hera⟩ : ∃ era, era = z / 146097 := ⟨_, rfl⟩
  obtain ⟨start, hstart⟩ : ∃ start, start = era * 146097 := ⟨_, rfl⟩
  obtain ⟨y, hy⟩ : ∃ y, y = era * 400 := ⟨_, rfl⟩
  obtain ⟨yoe, doy, m, d, hyoe, hlt, hdoy, hmd, hdate⟩ := @closedForm_spec (z - start) (by omega)
  obtain ⟨date, hyear, hmonth, hday, hnumber⟩ := hdate era
  rw [← hz] at h
  unfold U64.size at h
  have hsum : U64.checkedAdd days 719468 = some z := by
    rw [hz, U64.checkedAdd_of_lt (by unfold U64.size; omega)]
  have hmul : U64.checkedMul era 146097 = some start := by
    rw [hstart, U64.checkedMul_of_lt (by unfold U64.size; omega)]
  have hsub : U64.checkedSub z start = some (z - start) := U64.checkedSub_of_le (by omega)
  have hyears : U64.checkedMul era 400 = some y := by
    rw [hy, U64.checkedMul_of_lt (by unfold U64.size; omega)]
  have hadd := U64.checkedAdd_of_lt (show yoe + y < U64.size by unfold U64.size; omega)
  refine ⟨date, by split_ifs at hyear <;> omega, by omega, ?_⟩
  unfold daysToYmd
  rw [hsum]
  refine bind_eq_some_iff.mpr ⟨z, rfl, ?_⟩
  rw [← hera]
  refine bind_eq_some_iff.mpr ⟨start, hmul, ?_⟩
  refine bind_eq_some_iff.mpr ⟨z - start, hsub, ?_⟩
  refine bind_eq_some_iff.mpr ⟨yoe, hyoe, ?_⟩
  refine bind_eq_some_iff.mpr ⟨y, hyears, ?_⟩
  refine bind_eq_some_iff.mpr ⟨yoe + y, hadd, ?_⟩
  refine bind_eq_some_iff.mpr ⟨doy, hdoy, ?_⟩
  refine bind_eq_some_iff.mpr ⟨(m, d), hmd, ?_⟩
  dsimp only
  split_ifs with hm
  · rw [if_pos hm] at hyear
    have hnat : date.year.toNat = yoe + y + 1 := by omega
    rw [U64.checkedAdd_of_lt (by unfold U64.size; omega), hmonth, hday, hnat]
    rfl
  · rw [if_neg hm] at hyear
    have hnat : date.year.toNat = yoe + y := by omega
    rw [hmonth, hday, hnat]
    rfl

/-- What `system_time_to_rfc3339` gives. -/
theorem civilDate_spec {days : ℕ} (h : days ≤ U64.size / 86400) :
    ∃ date : GregorianDate, date.dayNumber = days ∧
      civilDate days = some (date.year, date.month, date.day) := by
  obtain ⟨z, hz⟩ : ∃ z, z = days + 719468 := ⟨_, rfl⟩
  obtain ⟨era, hera⟩ : ∃ era, era = z / 146097 := ⟨_, rfl⟩
  obtain ⟨start, hstart⟩ : ∃ start, start = era * 146097 := ⟨_, rfl⟩
  obtain ⟨y, hy⟩ : ∃ y, y = era * 400 := ⟨_, rfl⟩
  obtain ⟨yoe, doy, m, d, hyoe, hlt, hdoy, hmd, hdate⟩ := @closedForm_spec (z - start) (by omega)
  obtain ⟨date, hyear, hmonth, hday, hnumber⟩ := hdate era
  unfold U64.size at h
  have hsum : I64.checkedAdd (I64.ofU64 days) 719468 = some (z : ℤ) := by
    rw [I64.ofU64_of_lt (by omega), I64.checkedAdd,
      I64.checked_of_isWord (by unfold I64.IsWord; omega)]
    exact congrArg some (by omega)
  have hdiv : (z : ℤ).tdiv 146097 = (era : ℤ) := by
    rw [Int.natCast_tdiv_eq_ediv]
    omega
  have hmul : I64.checkedMul era 146097 = some (start : ℤ) := by
    rw [I64.checkedMul, I64.checked_of_isWord (by unfold I64.IsWord; omega)]
    exact congrArg some (by omega)
  have hsub : I64.checkedSub z start = some ((z - start : ℕ) : ℤ) := by
    rw [I64.checkedSub, I64.checked_of_isWord (by unfold I64.IsWord; omega),
      Nat.cast_sub (by omega)]
  have hyears : I64.checkedMul era 400 = some (y : ℤ) := by
    rw [I64.checkedMul, I64.checked_of_isWord (by unfold I64.IsWord; omega)]
    exact congrArg some (by omega)
  have hadd : I64.checkedAdd yoe y = some ((yoe : ℤ) + y) :=
    I64.checked_of_isWord (by unfold I64.IsWord; omega)
  have hword : I64.toU64 ((z - start : ℕ) : ℤ) = z - start := by
    rw [I64.toU64_of_nonneg (by omega) (by unfold I64.IsWord; omega), Int.toNat_natCast]
  have hpos : (z : ℤ) ≥ 0 := Int.natCast_nonneg z
  refine ⟨date, by omega, ?_⟩
  unfold civilDate
  rw [hsum]
  refine bind_eq_some_iff.mpr ⟨z, rfl, ?_⟩
  rw [if_pos hpos]
  refine bind_eq_some_iff.mpr ⟨z, rfl, ?_⟩
  beta_reduce
  rw [hdiv]
  refine bind_eq_some_iff.mpr ⟨start, hmul, ?_⟩
  refine bind_eq_some_iff.mpr ⟨(z - start : ℕ), hsub, ?_⟩
  rw [hword]
  refine bind_eq_some_iff.mpr ⟨yoe, hyoe, ?_⟩
  rw [I64.ofU64_of_lt (by omega)]
  refine bind_eq_some_iff.mpr ⟨y, hyears, ?_⟩
  refine bind_eq_some_iff.mpr ⟨yoe + y, hadd, ?_⟩
  refine bind_eq_some_iff.mpr ⟨doy, hdoy, ?_⟩
  refine bind_eq_some_iff.mpr ⟨(m, d), hmd, ?_⟩
  dsimp only
  split_ifs with hm
  · rw [if_pos hm] at hyear
    have hint : date.year = (yoe : ℤ) + y + 1 := by omega
    rw [I64.checkedAdd, I64.checked_of_isWord (by unfold I64.IsWord; omega), hmonth, hday, hint]
    rfl
  · rw [if_neg hm] at hyear
    have hint : date.year = (yoe : ℤ) + y := by omega
    rw [hmonth, hday, hint]
    rfl

/-! ## Days and dates -/

/-- The text of the clock at a second of the date. -/
def GregorianDate.clockText (date : GregorianDate) (t : SystemTime) : String :=
  String.ofList (dateText (zeroPadded 4 date.year.toNat) date.month date.day ++
    'T' :: timeText (t.secs % 86400).toNat)

/-- What a day of the clock is turned into: a date of the calendar with the number of the day, which
is later for a later day. For every second of the day `system_time_to_rfc3339` computes the same
date, and both texts of the clock begin with it. -/
structure GregorianDate.IsDateOf (date : GregorianDate) (days : ℕ) : Prop where
  ymd : daysToYmd days = some (date.year.toNat, date.month, date.day)
  year_nonneg : 0 ≤ date.year
  dayNumber : date.dayNumber = days
  later : ∀ earlier < days, ∃ date' < date,
    daysToYmd earlier = some (date'.year.toNat, date'.month, date'.day)
  civil : ∀ t : SystemTime, t.secs / 86400 = days →
    civilDate (t.asSecs.getD 0 / 86400) = some (date.year, date.month, date.day)
  rfc3339 : ∀ t : SystemTime, t.secs / 86400 = days →
    systemTimeToRfc3339 t = some (date.clockText t)
  iso8601 : ∀ t : SystemTime, t.secs / 86400 = days → nowIso8601 t = some (date.clockText t)

/-- The seconds of a time on a day that is not before the epoch. -/
theorem SystemTime.asSecs_eq {t : SystemTime} {days : ℕ} (ht : t.secs / 86400 = days) :
    t.asSecs = some t.secs.toNat ∧ t.secs.toNat / 86400 = days ∧
      t.secs.toNat % 86400 = (t.secs % 86400).toNat ∧ days ≤ U64.size / 86400 := by
  have hword := t.secs_isWord.2
  refine ⟨if_pos (by omega), by omega, by omega, ?_⟩
  unfold U64.size
  omega

/-- A day for which no sum overflows is turned into its date of the Gregorian calendar. -/
theorem daysToYmd_gregorian {days : ℕ} (h : days + 719468 < U64.size) :
    ∃ date : GregorianDate, date.IsDateOf days := by
  obtain ⟨date, hyear, hnumber, hymd⟩ := daysToYmd_spec h
  have hcivil : days ≤ U64.size / 86400 →
      civilDate days = some (date.year, date.month, date.day) := by
    intro hdays
    obtain ⟨date', hnumber', hcivil⟩ := civilDate_spec hdays
    have hdate : date' = date :=
      GregorianDate.dayNumber_strictMono.injective (hnumber'.trans hnumber.symm)
    rw [hdate] at hcivil
    exact hcivil
  refine ⟨date, hymd, hyear, hnumber, fun earlier hlt => ?_, fun t ht => ?_, fun t ht => ?_,
    fun t ht => ?_⟩
  · obtain ⟨date', -, hnumber', hymd'⟩ := @daysToYmd_spec earlier (by omega)
    exact ⟨date', GregorianDate.dayNumber_strictMono.lt_iff_lt.mp (by omega), hymd'⟩
  · obtain ⟨hsecs, hday, -, hdays⟩ := SystemTime.asSecs_eq ht
    rw [hsecs, getD_some, hday]
    exact hcivil hdays
  · obtain ⟨hsecs, hday, hrest, hdays⟩ := SystemTime.asSecs_eq ht
    have hpadded : paddedYear date.year = zeroPadded 4 date.year.toNat := by
      have habs : date.year.natAbs = date.year.toNat := by omega
      rw [paddedYear, if_neg (by omega), habs]
    rw [systemTimeToRfc3339, hsecs, getD_some, hday, hcivil hdays, hrest]
    exact congrArg (fun year => some (String.ofList (dateText year _ _ ++ _))) hpadded
  · obtain ⟨hsecs, hday, hrest, -⟩ := SystemTime.asSecs_eq ht
    rw [nowIso8601, hsecs]
    dsimp only
    rw [hday, hymd, hrest]
    rfl

/-- The 29th of February 2024. -/
theorem leapDay_gregorian : ∃ date : GregorianDate, date.IsDateOf 19782 :=
  daysToYmd_gregorian (by norm_num)

end Oxydra
