import Mathlib.Data.Char
import Mathlib.Data.Prod.Lex
import Oxydra.Library.TextOrder

/-!
# Timestamps of the scheduler

The scheduler keeps its times as texts, which `to_rfc3339` of `chrono` prints for a `DateTime<Utc>`,
and SQLite compares these texts. `toRfc3339_lt_iff` says that the order of the texts is the order of
the times, from the year 0 to the year 9999, with every combination of fractions of a second.
-/

namespace Oxydra

open List TextOrder

/-! ## Times -/

/-- The hours and the minutes of a time have numbers that are literals. -/
instance neZero_hours : NeZero 24 := ⟨by decide⟩

instance neZero_minutes : NeZero 60 := ⟨by decide⟩

/-- Whether a year of the proleptic Gregorian calendar has 366 days. -/
def isLeapYear (year : ℤ) : Bool := year % 4 = 0 ∧ (year % 100 ≠ 0 ∨ year % 400 = 0)

/-- The days of the months of a year. -/
def monthLengths (year : ℤ) : List ℕ :=
  [31, if isLeapYear year then 29 else 28, 31, 30, 31, 30, 31, 31, 30, 31, 30, 31]

/-- `DateTime<Utc>`: the year, the day of the year from 1 on, the second of the day, and the
nanosecond. In a leap second the nanoseconds of the second before it go on. -/
structure UtcDateTime where
  year : ℤ
  ordinal : ℕ
  secs : ℕ
  nanos : ℕ
  ordinal_pos : 1 ≤ ordinal
  ordinal_le : ordinal ≤ (monthLengths year).sum
  secs_lt : secs < 86400
  nanos_lt : nanos < 10^9 ∨ (secs % 60 = 59 ∧ nanos < 2 * 10^9)
  deriving DecidableEq

namespace UtcDateTime

/-- What times are compared by. -/
def key (t : UtcDateTime) : ℤ ×ₗ ℕ ×ₗ ℕ ×ₗ ℕ :=
  toLex (t.year, toLex (t.ordinal, toLex (t.secs, t.nanos)))

theorem key_injective : Function.Injective key := by
  rintro ⟨y, o, s, n, _, _, _, _⟩ ⟨y', o', s', n', _, _, _, _⟩ h
  simp only [key, EmbeddingLike.apply_eq_iff_eq, Prod.mk.injEq] at h
  obtain ⟨rfl, rfl, rfl, rfl⟩ := h
  rfl

/-- `Ord` of `DateTime<Utc>`. -/
instance : LinearOrder UtcDateTime := LinearOrder.lift' key key_injective

/-- What it is for a time to be before another. -/
theorem lt_iff {a b : UtcDateTime} : a < b ↔ a.year < b.year ∨ a.year = b.year ∧
    (a.ordinal < b.ordinal ∨ a.ordinal = b.ordinal ∧
      (a.secs < b.secs ∨ a.secs = b.secs ∧ a.nanos < b.nanos)) := by
  change key a < key b ↔ _
  simp [key, Prod.Lex.toLex_lt_toLex]

end UtcDateTime

/-! ## Their texts -/

/-- The month and the day of the month, from a month on whose days and those of the months after it
are given. -/
def monthAndDay : List ℕ → ℕ → ℕ → ℕ × ℕ
  | [], month, day => (month, day)
  | days :: rest, month, day =>
    if day ≤ days then (month, day) else monthAndDay rest (month + 1) (day - days)

/-- The fraction of a second, with as many digits as it needs of none, 3, 6, and 9. -/
def fraction (nanos : ℕ) : List Char :=
  if nanos = 0 then []
  else if nanos % 10^6 = 0 then '.' :: fixed 3 (nanos / 10^6)
  else if nanos % 10^3 = 0 then '.' :: fixed 6 (nanos / 10^3)
  else '.' :: fixed 9 nanos

/-- A year with at least four digits, and with a sign if it has more or is negative. -/
def yearText (year : ℤ) : List Char :=
  if 0 ≤ year ∧ year ≤ 9999 then fixed 4 year.toNat
  else (if year < 0 then '-' else '+') ::
    (List.replicate (4 - (toString year.natAbs).length) '0' ++ (toString year.natAbs).toList)

namespace UtcDateTime

variable (t : UtcDateTime)

/-- The month and the day of the month. -/
def monthDay : ℕ × ℕ := monthAndDay (monthLengths t.year) 1 t.ordinal

/-- The second of the minute, which is 60 in a leap second. -/
def second : ℕ := t.secs % 60 + if 10^9 ≤ t.nanos then 1 else 0

/-- The characters of the text: `YYYY-MM-DDTHH:MM:SS`, the fraction, and the offset. -/
def chars : List Char :=
  yearText t.year ++ ('-' :: (fixed 2 t.monthDay.1 ++ ('-' :: (fixed 2 t.monthDay.2 ++ ('T' ::
    (fixed 2 (t.secs / 3600) ++ (':' :: (fixed 2 (t.secs / 60 % 60) ++ (':' ::
      (fixed 2 t.second ++ (fraction (t.nanos % 10^9) ++ "+00:00".toList)))))))))))

/-- `to_rfc3339`. -/
def toRfc3339 : String := String.ofList t.chars

end UtcDateTime

/-! ## The order of the texts -/

/-- The last month and the last day that a list of months allows. -/
theorem monthAndDay_bounds : ∀ (lengths : List ℕ) (month day : ℕ), lengths ≠ [] →
    (∀ days ∈ lengths, days ≤ 31) → day ≤ lengths.sum →
    (monthAndDay lengths month day).1 < month + lengths.length ∧
      (monthAndDay lengths month day).2 ≤ 31
  | [days], month, day, _, hmax, hday => by
    have hle : day ≤ days := by simpa using hday
    rw [monthAndDay, if_pos hle]
    exact ⟨by simp, hle.trans (hmax days (by simp))⟩
  | days :: next :: rest, month, day, _, hmax, hday => by
    rw [monthAndDay]
    split_ifs with hle
    · exact ⟨by simp, hle.trans (hmax days (by simp))⟩
    · have hrest : day - days ≤ (next :: rest).sum := by
        rw [sum_cons] at hday
        omega
      obtain ⟨hm, hd⟩ := monthAndDay_bounds (next :: rest) (month + 1) (day - days) (by simp)
        (fun d hd => hmax d (mem_cons_of_mem _ hd)) hrest
      refine ⟨?_, hd⟩
      rw [length_cons]
      omega

/-- A month is not before the one from which the days are counted. -/
theorem le_monthAndDay : ∀ (lengths : List ℕ) (month day : ℕ),
    month ≤ (monthAndDay lengths month day).1
  | [], month, _ => le_rfl
  | days :: rest, month, day => by
    rw [monthAndDay]
    split_ifs
    · exact le_rfl
    · exact (Nat.le_succ month).trans (le_monthAndDay rest (month + 1) (day - days))

/-- A later day of the year is in a later month, or later in the same one. -/
theorem monthAndDay_lt : ∀ (lengths : List ℕ) (month : ℕ) {day day' : ℕ}, day < day' →
    (monthAndDay lengths month day).1 < (monthAndDay lengths month day').1 ∨
      (monthAndDay lengths month day).1 = (monthAndDay lengths month day').1 ∧
        (monthAndDay lengths month day).2 < (monthAndDay lengths month day').2
  | [], month, _, _, h => .inr ⟨rfl, h⟩
  | days :: rest, month, day, day', h => by
    rw [monthAndDay, monthAndDay]
    split_ifs with hle hle' hle'
    · exact .inr ⟨rfl, h⟩
    · exact .inl (le_monthAndDay rest (month + 1) _)
    · omega
    · exact monthAndDay_lt rest (month + 1) (by omega)

theorem plus_lt_digit : ∀ e < 10, '+' < Nat.digitChar e := by decide

/-- How many digits a fraction that is not zero has. -/
def fractionWidth (nanos : ℕ) : ℕ :=
  if nanos % 10^6 = 0 then 3 else if nanos % 10^3 = 0 then 6 else 9

theorem fraction_of_ne_zero {n : ℕ} (hn : n ≠ 0) :
    fraction n = '.' :: fixed (fractionWidth n) (n / 10^(9 - fractionWidth n)) := by
  unfold fraction fractionWidth
  rw [if_neg hn]
  split_ifs
  · rfl
  · rfl
  · rw [Nat.sub_self, pow_zero, Nat.div_one]

/-- The digits that a fraction leaves out are zeros. -/
theorem fractionWidth_spec (n : ℕ) : fractionWidth n ≤ 9 ∧ 10^(9 - fractionWidth n) ∣ n := by
  unfold fractionWidth
  split_ifs with h6 h3
  · exact ⟨by decide, Nat.dvd_of_mod_eq_zero h6⟩
  · exact ⟨by decide, Nat.dvd_of_mod_eq_zero h3⟩
  · exact ⟨le_rfl, one_dvd n⟩

/-- The smaller fraction comes first, before the offset. -/
theorem fraction_lt {n m : ℕ} (hm : m < 10^9) (h : n < m) :
    fraction n ++ "+00:00".toList < fraction m ++ "+00:00".toList := by
  have hoffset : "+00:00".toList = '+' :: "00:00".toList := by decide
  rw [hoffset, fraction_of_ne_zero (by omega : m ≠ 0)]
  by_cases hn : n = 0
  · subst hn
    exact cons_lt_of_lt (by decide)
  · rw [fraction_of_ne_zero hn]
    obtain ⟨hwn, hdn⟩ := fractionWidth_spec n
    obtain ⟨hwm, hdm⟩ := fractionWidth_spec m
    exact cons_lt_cons_of_lt '.'
      (fraction_lt_fraction hwn hwm hdn hdm hm h plus_lt_digit)

namespace UtcDateTime

variable {a b : UtcDateTime}

/-- The month and the day have two digits. -/
theorem monthDay_lt (t : UtcDateTime) : t.monthDay.1 < 10^2 ∧ t.monthDay.2 < 10^2 := by
  have hmax : ∀ days ∈ monthLengths t.year, days ≤ 31 := by
    unfold monthLengths
    split_ifs <;> simp
  obtain ⟨hm, hd⟩ := monthAndDay_bounds (monthLengths t.year) 1 t.ordinal (by simp [monthLengths])
    hmax t.ordinal_le
  have hlen : (monthLengths t.year).length = 12 := rfl
  rw [hlen] at hm
  exact ⟨by unfold monthDay; omega, by unfold monthDay; omega⟩

theorem second_lt (t : UtcDateTime) : t.second < 10^2 := by
  unfold second
  split_ifs <;> omega

/-- The part of the text after the date. -/
theorem time_lt (hsecs : a.secs < b.secs ∨ a.secs = b.secs ∧ a.nanos < b.nanos) :
    fixed 2 (a.secs / 3600) ++ (':' :: (fixed 2 (a.secs / 60 % 60) ++ (':' ::
      (fixed 2 a.second ++ (fraction (a.nanos % 10^9) ++ "+00:00".toList))))) <
    fixed 2 (b.secs / 3600) ++ (':' :: (fixed 2 (b.secs / 60 % 60) ++ (':' ::
      (fixed 2 b.second ++ (fraction (b.nanos % 10^9) ++ "+00:00".toList))))) := by
  have ha := a.nanos_lt
  have hb := b.nanos_lt
  have hday := b.secs_lt
  have hb2 := b.second_lt
  obtain hlt | hhour := (by omega :
    a.secs / 3600 < b.secs / 3600 ∨ a.secs / 3600 = b.secs / 3600)
  · exact fixed_append_lt (by omega) hlt
  rw [hhour]
  refine append_left_lt (cons_lt_cons_of_lt ':' ?_)
  obtain hlt | hminute := (by omega :
    a.secs / 60 % 60 < b.secs / 60 % 60 ∨ a.secs / 60 % 60 = b.secs / 60 % 60)
  · exact fixed_append_lt (by omega) hlt
  rw [hminute]
  refine append_left_lt (cons_lt_cons_of_lt ':' ?_)
  -- a leap second is the 60th, after every fraction of the 59th
  obtain hlt | ⟨hsecond, hnanos⟩ : a.second < b.second ∨
      a.second = b.second ∧ a.nanos % 10^9 < b.nanos % 10^9 := by
    unfold second
    split_ifs <;> omega
  · exact fixed_append_lt hb2 hlt
  · rw [hsecond]
    exact append_left_lt (fraction_lt (Nat.mod_lt _ (by positivity)) hnanos)

/-- The text of an earlier time comes first. -/
theorem chars_lt (ha : 0 ≤ a.year) (hb : b.year ≤ 9999) (h : a < b) : a.chars < b.chars := by
  have hle : a.year ≤ b.year := by
    obtain hyear | ⟨hyear, -⟩ := lt_iff.mp h <;> omega
  unfold chars yearText
  rw [if_pos ⟨ha, hle.trans hb⟩, if_pos ⟨ha.trans hle, hb⟩]
  obtain hyear | ⟨hyear, hdate⟩ := lt_iff.mp h
  · exact fixed_append_lt (by omega) (by omega)
  rw [hyear]
  refine append_left_lt (cons_lt_cons_of_lt '-' ?_)
  obtain ⟨hm, hd⟩ := b.monthDay_lt
  obtain hordinal | ⟨hordinal, hsecs⟩ := hdate
  · -- the same year has the same months
    have hmonthDay := monthAndDay_lt (monthLengths b.year) 1 hordinal
    have hma : a.monthDay = monthAndDay (monthLengths b.year) 1 a.ordinal := by
      rw [monthDay, hyear]
    rw [← hma] at hmonthDay
    obtain hlt | ⟨hmonth, hlt⟩ := hmonthDay
    · exact fixed_append_lt hm hlt
    · rw [hmonth]
      exact append_left_lt (cons_lt_cons_of_lt '-' (fixed_append_lt hd hlt))
  · have hsame : a.monthDay = b.monthDay := by rw [monthDay, monthDay, hyear, hordinal]
    rw [hsame]
    refine append_left_lt (cons_lt_cons_of_lt '-' ?_)
    exact append_left_lt (cons_lt_cons_of_lt 'T' (time_lt hsecs))

/-- A year of four digits. -/
def FourDigitYear (t : UtcDateTime) : Prop := 0 ≤ t.year ∧ t.year ≤ 9999

theorem fraction_ascii (n : ℕ) : ∀ c ∈ fraction n, c.toNat < 128 := by
  unfold fraction
  split_ifs
  · simp
  all_goals
    intro c hc
    obtain rfl | hc := mem_cons.mp hc
    · decide
    · exact fixed_ascii _ _ c hc

/-- The text is of ASCII characters. -/
theorem chars_ascii {t : UtcDateTime} (ht : t.FourDigitYear) : ∀ c ∈ t.chars, c.toNat < 128 := by
  have hoffset : ∀ c ∈ "+00:00".toList, c.toNat < 128 := by
    have hall : "+00:00".toList.all (fun c => decide (c.toNat < 128)) = true := by decide
    intro c hc
    exact of_decide_eq_true (all_eq_true.mp hall c hc)
  have hyear : 0 ≤ t.year ∧ t.year ≤ 9999 := ht
  unfold chars yearText
  rw [if_pos hyear]
  intro c hc
  simp only [mem_append, mem_cons] at hc
  obtain hc | rfl | hc | rfl | hc | rfl | hc | rfl | hc | rfl | hc | hc | hc := hc
  all_goals first
    | exact fixed_ascii _ _ c hc
    | exact fraction_ascii _ c hc
    | exact hoffset c hc
    | decide

/-- The order of the bytes of the texts is the order of the times. -/
theorem toRfc3339_lt_iff (ha : a.FourDigitYear) (hb : b.FourDigitYear) :
    bytes a.toRfc3339 < bytes b.toRfc3339 ↔ a < b := by
  have hlt : ∀ {a b : UtcDateTime}, a.FourDigitYear → b.FourDigitYear → a < b →
      bytes a.toRfc3339 < bytes b.toRfc3339 := fun ha hb h =>
    bytes_lt_of_lt (chars_ascii ha) (chars_ascii hb) (chars_lt ha.1 hb.2 h)
  constructor
  · intro h
    by_contra hnot
    obtain heq | hgt := (not_lt.mp hnot).eq_or_lt
    · rw [heq] at h
      exact List.lt_irrefl _ h
    · exact List.lt_asymm h (hlt hb ha hgt)
  · exact hlt ha hb

end UtcDateTime

end Oxydra
