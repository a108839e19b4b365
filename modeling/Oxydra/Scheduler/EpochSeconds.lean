import Oxydra.Scheduler.Timestamps

/-!
# The seconds of a time

`DateTime::timestamp` of `chrono`: the seconds since the beginning of the year 1970, in which a leap
second is not counted. A time with more of them is later (`lt_of_timestamp_lt`), and from 1970 on
there are at least none (`timestamp_nonneg`).
-/

namespace Oxydra

/-- The days from the beginning of the year 1970 to that of a year. -/
def daysBefore (year : ℤ) : ℤ :=
  365 * (year - 1970) + ((year - 1) / 4 - (year - 1) / 100 + (year - 1) / 400 - 477)

/-- The days of a year. -/
theorem sum_monthLengths (year : ℤ) :
    (monthLengths year).sum = if isLeapYear year then 366 else 365 := by
  unfold monthLengths
  split_ifs <;> rfl

/-- The next year begins after the days of this one. -/
theorem daysBefore_succ (year : ℤ) :
    daysBefore (year + 1) = daysBefore year + (monthLengths year).sum := by
  have hleap : isLeapYear year = true ↔ year % 4 = 0 ∧ (year % 100 ≠ 0 ∨ year % 400 = 0) := by
    unfold isLeapYear
    exact decide_eq_true_iff
  rw [sum_monthLengths]
  unfold daysBefore
  split_ifs with h
  · rw [hleap] at h
    push_cast
    omega
  · rw [hleap] at h
    push_cast
    omega

/-- A later year begins after all days of an earlier one. -/
theorem daysBefore_add_le {year year' : ℤ} (h : year < year') :
    daysBefore year + (monthLengths year).sum ≤ daysBefore year' := by
  rw [← daysBefore_succ]
  unfold daysBefore
  omega

namespace UtcDateTime

/-- `DateTime::timestamp`. -/
def timestamp (t : UtcDateTime) : ℤ := (daysBefore t.year + t.ordinal - 1) * 86400 + t.secs

variable {a b : UtcDateTime}

theorem timestamp_le (h : a ≤ b) : a.timestamp ≤ b.timestamp := by
  rcases h.eq_or_lt with rfl | hlt
  · exact le_rfl
  have hsecs := a.secs_lt
  have hordinal := a.ordinal_le
  have hordinal' := b.ordinal_pos
  unfold timestamp
  rcases lt_iff.mp hlt with hyear | ⟨hyear, hdate⟩
  · have hdays := daysBefore_add_le hyear
    omega
  · rw [hyear]
    omega

/-- A time with more seconds is later. -/
theorem lt_of_timestamp_lt (h : a.timestamp < b.timestamp) : a < b :=
  not_le.mp fun hle => (timestamp_le hle).not_gt h

theorem timestamp_nonneg (h : 1970 ≤ a.year) : 0 ≤ a.timestamp := by
  have hordinal := a.ordinal_pos
  have hdays : 0 ≤ daysBefore a.year := by
    unfold daysBefore
    omega
  unfold timestamp
  omega

section

variable (t : UtcDateTime)

/-- The same time of the next day. -/
def nextDay : UtcDateTime :=
  if h : t.ordinal < (monthLengths t.year).sum then
    { t with ordinal := t.ordinal + 1, ordinal_pos := by omega, ordinal_le := h }
  else
    { t with
      year := t.year + 1
      ordinal := 1
      ordinal_pos := le_rfl
      ordinal_le := by rw [sum_monthLengths]; split_ifs <;> decide }

theorem timestamp_nextDay : t.nextDay.timestamp = t.timestamp + 86400 := by
  have hle := t.ordinal_le
  unfold nextDay
  split_ifs with h
  · unfold timestamp
    push_cast
    ring
  · unfold timestamp
    rw [daysBefore_succ]
    have hlast : t.ordinal = (monthLengths t.year).sum := by omega
    rw [← hlast]
    push_cast
    ring

@[simp] theorem nextDay_nanos : t.nextDay.nanos = t.nanos := by
  unfold nextDay
  split_ifs <;> rfl

/-- A time plus a positive number of seconds, which end a leap second. -/
def addSecs (n : ℕ) : UtcDateTime :=
  nextDay^[(t.secs + n) / 86400]
    { t with
      secs := (t.secs + n) % 86400
      nanos := t.nanos % 10^9
      secs_lt := Nat.mod_lt _ (by decide)
      nanos_lt := .inl (Nat.mod_lt _ (by decide)) }

theorem timestamp_iterate_nextDay (k : ℕ) :
    (nextDay^[k] t).timestamp = t.timestamp + 86400 * k := by
  induction k with
  | zero => simp
  | succ k ih =>
    rw [Function.iterate_succ_apply', timestamp_nextDay, ih]
    push_cast
    ring

theorem timestamp_addSecs (n : ℕ) :
    (t.addSecs n).timestamp = t.timestamp + n := by
  unfold addSecs
  rw [timestamp_iterate_nextDay]
  unfold timestamp
  push_cast
  omega

theorem addSecs_nanos (n : ℕ) : (t.addSecs n).nanos = t.nanos % 10^9 := by
  have hiterate : ∀ (k : ℕ) (u : UtcDateTime), (nextDay^[k] u).nanos = u.nanos := by
    intro k u
    induction k with
    | zero => rfl
    | succ k ih => rw [Function.iterate_succ_apply', nextDay_nanos, ih]
  exact hiterate _ _

end

end UtcDateTime

end Oxydra
