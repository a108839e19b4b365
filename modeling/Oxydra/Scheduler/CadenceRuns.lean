import Oxydra.Scheduler.EpochSeconds
import Oxydra.Scheduler.Schedules

/-!
# The runs of an accepted cadence

`validate_cadence` accepts a cadence once, and `next_run_for_cadence` computes its runs from then
on. `schedulable_iff` says for which accepted cadences, and after which times, there is a next run
without a panic, later than the time, and at least the minimum interval before the one that follows
it.

The sum of an interval panics where `chrono` cannot represent it, and goes back in time where the
seconds are negative as an `i64`. The firings of a cron expression are a set of times, of which the
validation looks at two.
-/

namespace Oxydra

/-! ## What `chrono` and `cron` compute -/

/-- Whether `after + Duration::seconds(every_secs as i64)` is computed without a panic. -/
def canAdd (after : UtcDateTime) (every_secs : ℕ) : Bool :=
  ((chronoSeconds (asI64 every_secs)).bind
    (addDuration (after.timestamp * 1000000000))).isSome

/-- Sums of `chrono`: positive seconds are added to the seconds of a time, which ends a leap second;
they are those between a time outside of a leap second and the sum; and a sum with others is not
later. -/
structure ChronoLaws (cal : Calendar) : Prop where
  timestamp_add : ∀ {after every_secs}, canAdd after every_secs → 0 < asI64 every_secs →
    (cal.addSeconds after every_secs).timestamp = after.timestamp + asI64 every_secs
  nanos_add : ∀ {after every_secs}, canAdd after every_secs → 0 < asI64 every_secs →
    (cal.addSeconds after every_secs).nanos < 10^9
  secondsBetween_add : ∀ {after every_secs}, canAdd after every_secs → 0 < asI64 every_secs →
    after.nanos < 10^9 → cal.secondsBetween after (cal.addSeconds after every_secs) = asI64 every_secs
  add_le : ∀ {after every_secs}, canAdd after every_secs → asI64 every_secs ≤ 0 →
    cal.addSeconds after every_secs ≤ after

/-- The next of some times after a time. -/
def IsNext (firings : Set UtcDateTime) (after next : UtcDateTime) : Prop :=
  IsLeast {firing | firing ∈ firings ∧ after < firing} next

/-- Firings of `cron`: those of an expression in a timezone come in increasing order, up to the
last. -/
structure CronLaws (cal : Calendar) (firings : String → String → Set UtcDateTime) : Prop where
  isNext : ∀ {expression timezone after next},
    cal.cronAfter expression timezone after = some next →
      IsNext (firings expression timezone) after next
  exists_of_lt : ∀ {expression timezone after}, ∀ firing ∈ firings expression timezone,
    after < firing → (cal.cronAfter expression timezone after).isSome

/-! ## The law -/

/-- `next_run_for_cadence`, where `none` is a panic. -/
def nextRun (cal : Calendar) (cadence : ScheduleCadence) (after : UtcDateTime) :
    Option (Except SchedulerError (Option UtcDateTime)) :=
  match cadence with
  | .interval every_secs =>
    if canAdd after every_secs then some (nextRunForCadence cal cadence after) else none
  | _ => some (nextRunForCadence cal cadence after)

/-- A cadence that runs more than once. -/
def ScheduleCadence.recurs : ScheduleCadence → Bool
  | .once _ => false
  | _ => true

/-- After this time the next run is computed without a panic; a recurring cadence has one, which is
later; and any two consecutive runs of it are at least the minimum interval apart. -/
structure Schedulable (cal : Calendar) (min_interval_secs : ℕ) (cadence : ScheduleCadence)
    (after : UtcDateTime) : Prop where
  no_panic : (nextRun cal cadence after).isSome
  later : cadence.recurs → ∃ next, nextRun cal cadence after = some (.ok (some next)) ∧ after < next
  apart : cadence.recurs → ∀ {earlier first second},
    nextRun cal cadence earlier = some (.ok (some first)) →
      nextRun cal cadence first = some (.ok (some second)) →
        (min_interval_secs : ℤ) ≤ cal.secondsBetween first second

/-- When an accepted cadence is schedulable after a time. -/
def CadenceFits (cal : Calendar) (firings : String → String → Set UtcDateTime)
    (min_interval_secs : ℕ) (cadence : ScheduleCadence) (after : UtcDateTime) : Prop :=
  match cadence with
  | .once _ => True
  | .cron expression timezone =>
    let firings := firings ("0 " ++ expression) timezone
    (∃ firing ∈ firings, after < firing) ∧
      ∀ {earlier first second}, IsNext firings earlier first → IsNext firings first second →
        (min_interval_secs : ℤ) ≤ cal.secondsBetween first second
  | .interval every_secs => 0 < every_secs ∧ after.timestamp + every_secs < 8210266876800

section Validated

variable {cal : Calendar} {firings : String → String → Set UtcDateTime} {min_interval_secs : ℕ}
  {now after : UtcDateTime} {expression timezone : String} {every_secs : ℕ}

/-- The expression with a second. -/
theorem parseCron_eq {full_expression : String}
    (h : parseCron cal expression timezone = .ok full_expression) :
    full_expression = "0 " ++ expression := by
  unfold parseCron at h
  dsimp only at h
  split at h
  · cases h
  · split at h
    · cases h
    · cases h
      rfl

/-- An accepted expression is parsed when a run is computed. -/
theorem parseCron_of_validateCadence
    (h : validateCadence cal (.cron expression timezone) min_interval_secs now = .ok ()) :
    parseCron cal expression timezone = .ok ("0 " ++ expression) := by
  cases hparse : parseCron cal expression timezone with
  | ok full_expression => rw [parseCron_eq hparse]
  | error e =>
    unfold validateCadence at h
    dsimp only at h
    rw [hparse] at h
    cases h

/-- The next run of an expression. -/
theorem nextRun_cron
    (h : validateCadence cal (.cron expression timezone) min_interval_secs now = .ok ()) :
    nextRun cal (.cron expression timezone) after =
      some (.ok (cal.cronAfter ("0 " ++ expression) timezone after)) := by
  show some (nextRunForCadence cal _ after) = _
  unfold nextRunForCadence
  dsimp only
  rw [parseCron_of_validateCadence h]
  rfl

/-- The next run of an interval. -/
theorem nextRun_interval_eq_some {next : UtcDateTime} :
    nextRun cal (.interval every_secs) after = some (.ok (some next)) ↔
      canAdd after every_secs ∧ cal.addSeconds after every_secs = next := by
  unfold nextRun nextRunForCadence
  dsimp only
  split_ifs with hadd
  · refine ⟨fun h => ⟨hadd, ?_⟩, fun h => ?_⟩
    · cases h
      rfl
    · rw [h.2]
      rfl
  · exact ⟨fun h => absurd h (by simp), fun h => absurd h.1 hadd⟩

/-- A valid interval is not too short. -/
theorem le_of_validateCadence
    (h : validateCadence cal (.interval every_secs) min_interval_secs now = .ok ()) :
    min_interval_secs ≤ every_secs := by
  unfold validateCadence at h
  dsimp only at h
  split_ifs at h with hlt
  exact not_lt.mp hlt

/-- The runs of an accepted cron cadence are the firings of its expression. -/
theorem nextRun_cron_eq_some (hcron : CronLaws cal firings)
    (h : validateCadence cal (.cron expression timezone) min_interval_secs now = .ok ())
    {next : UtcDateTime} :
    nextRun cal (.cron expression timezone) after = some (.ok (some next)) ↔
      IsNext (firings ("0 " ++ expression) timezone) after next := by
  rw [nextRun_cron h, Option.some_inj, Except.ok.injEq]
  refine ⟨hcron.isNext, fun hnext => ?_⟩
  obtain ⟨next', hnext'⟩ :=
    Option.isSome_iff_exists.mp (hcron.exists_of_lt next hnext.1.1 hnext.1.2)
  rw [hnext', (hcron.isNext hnext').unique hnext]

/-- Seconds that are a word and positive as an `i64` are read as they are. -/
theorem asI64_of_pos (hword : every_secs < U64.size) (hpos : 0 < asI64 every_secs) :
    asI64 every_secs = every_secs := by
  have hsize : U64.size = 18446744073709551616 := by decide
  rw [hsize] at hword
  unfold asI64 at hpos ⊢
  rw [Int.bmod_def] at hpos ⊢
  split_ifs at hpos ⊢ <;> omega

/-- From 1970 on, positive seconds can be added up to the last year of `chrono`. -/
theorem canAdd_iff (hyear : 1970 ≤ after.year) (hpos : 0 < asI64 every_secs)
    (hread : asI64 every_secs = every_secs) :
    canAdd after every_secs ↔ after.timestamp + every_secs < 8210266876800 := by
  have hnonneg := UtcDateTime.timestamp_nonneg hyear
  unfold canAdd
  rw [hread] at hpos ⊢
  unfold chronoSeconds
  rw [abs_of_pos hpos]
  constructor
  · intro hadd
    split_ifs at hadd with hbound
    · rw [Option.bind_some] at hadd
      unfold addDuration at hadd
      split_ifs at hadd with hrange
      · have hhigh : after.timestamp * 1000000000 + (every_secs : ℤ) * 1000000000 <
            8210266876800 * 1000000000 := hrange.2
        omega
      · cases hadd
    · cases hadd
  · intro hrange
    have hlow : -8334601228800 * 1000000000 ≤
        after.timestamp * 1000000000 + (every_secs : ℤ) * 1000000000 := by omega
    have hhigh : after.timestamp * 1000000000 + (every_secs : ℤ) * 1000000000 <
        8210266876800 * 1000000000 := by omega
    rw [if_pos (by omega), Option.bind_some]
    unfold addDuration
    rw [if_pos ⟨hlow, hhigh⟩]
    rfl

/-- A one-shot that was accepted has a time. -/
theorem schedulable_once {time : String}
    (cal : Calendar) (min_interval_secs : ℕ) (after : UtcDateTime) :
    Schedulable cal min_interval_secs (.once time) after :=
  ⟨rfl, fun hrecurs => absurd hrecurs Bool.false_ne_true,
    fun hrecurs => absurd hrecurs Bool.false_ne_true⟩

/-- The expressions. -/
theorem schedulable_cron_iff (hcron : CronLaws cal firings)
    (h : validateCadence cal (.cron expression timezone) min_interval_secs now = .ok ()) :
    Schedulable cal min_interval_secs (.cron expression timezone) after ↔
      CadenceFits cal firings min_interval_secs (.cron expression timezone) after := by
  constructor
  · rintro ⟨-, hlater, hapart⟩
    obtain ⟨next, hnext, -⟩ := hlater rfl
    have hfirst := ((nextRun_cron_eq_some hcron h).mp hnext).1
    exact ⟨⟨next, hfirst⟩, fun hfirst hsecond => hapart rfl
      ((nextRun_cron_eq_some hcron h).mpr hfirst) ((nextRun_cron_eq_some hcron h).mpr hsecond)⟩
  · rintro ⟨⟨firing, hfiring, hlt⟩, hapart⟩
    obtain ⟨next, hnext⟩ := Option.isSome_iff_exists.mp (hcron.exists_of_lt firing hfiring hlt)
    refine ⟨rfl, fun _ => ⟨next, ?_, (hcron.isNext hnext).1.2⟩, fun _ _ _ _ hfirst hsecond => ?_⟩
    · rw [nextRun_cron h, hnext]
    · exact hapart ((nextRun_cron_eq_some hcron h).mp hfirst)
        ((nextRun_cron_eq_some hcron h).mp hsecond)

/-- The intervals. -/
theorem schedulable_interval_iff (hchrono : ChronoLaws cal) (hyear : 1970 ≤ after.year)
    (hword : every_secs < U64.size)
    (h : validateCadence cal (.interval every_secs) min_interval_secs now = .ok ()) :
    Schedulable cal min_interval_secs (.interval every_secs) after ↔
      CadenceFits cal firings min_interval_secs (.interval every_secs) after := by
  constructor
  · rintro ⟨-, hlater, -⟩
    obtain ⟨next, hnext, hlt⟩ := hlater rfl
    obtain ⟨hadd, rfl⟩ := nextRun_interval_eq_some.mp hnext
    have hpos : 0 < asI64 every_secs :=
      not_le.mp fun hle => (hchrono.add_le hadd hle).not_gt hlt
    have hread := asI64_of_pos hword hpos
    exact ⟨by omega, (canAdd_iff hyear hpos hread).mp hadd⟩
  · rintro ⟨hpos, hrange⟩
    have hnonneg := UtcDateTime.timestamp_nonneg hyear
    have hread : asI64 every_secs = every_secs := by
      unfold asI64
      exact Int.bmod_eq_of_le (by omega) (by omega)
    have hpos' : 0 < asI64 every_secs := by omega
    have hadd := (canAdd_iff hyear hpos' hread).mpr hrange
    have hnext : nextRun cal (.interval every_secs) after =
        some (.ok (some (cal.addSeconds after every_secs))) :=
      nextRun_interval_eq_some.mpr ⟨hadd, rfl⟩
    refine ⟨by rw [hnext]; rfl, fun _ => ⟨_, hnext, ?_⟩, fun _ _ _ _ hfirst hsecond => ?_⟩
    · refine UtcDateTime.lt_of_timestamp_lt ?_
      rw [hchrono.timestamp_add hadd hpos']
      omega
    · obtain ⟨hadd₁, rfl⟩ := nextRun_interval_eq_some.mp hfirst
      obtain ⟨hadd₂, rfl⟩ := nextRun_interval_eq_some.mp hsecond
      rw [hchrono.secondsBetween_add hadd₂ hpos' (hchrono.nanos_add hadd₁ hpos'), hread]
      exact Int.ofNat_le.mpr (le_of_validateCadence h)

end Validated

/-- A cadence as it can be received: the seconds of an interval are a `u64`. -/
def ScheduleCadence.IsWord : ScheduleCadence → Prop
  | .interval every_secs => every_secs < U64.size
  | _ => True

/-- An accepted cadence is schedulable after a time from 1970 on exactly when it fits. -/
theorem schedulable_iff {cal : Calendar} {firings : String → String → Set UtcDateTime}
    (hchrono : ChronoLaws cal) (hcron : CronLaws cal firings) {cadence : ScheduleCadence}
    (hword : cadence.IsWord) {min_interval_secs : ℕ} {now after : UtcDateTime}
    (hyear : 1970 ≤ after.year)
    (h : validateCadence cal cadence min_interval_secs now = .ok ()) :
    Schedulable cal min_interval_secs cadence after ↔
      CadenceFits cal firings min_interval_secs cadence after := by
  cases cadence with
  | once time => exact iff_of_true (schedulable_once cal min_interval_secs after) trivial
  | cron expression timezone => exact schedulable_cron_iff hcron h
  | interval every_secs => exact schedulable_interval_iff hchrono hyear hword h

/-! ## Two hours of the year 2030 -/

/-- A minute of the first day of the year 2030. -/
def newYear (hour : Fin 24) (minute : Fin 60) : UtcDateTime where
  year := 2030
  ordinal := 1
  secs := 3600 * hour + 60 * minute
  nanos := 0
  ordinal_pos := Nat.one_pos
  ordinal_le := by decide
  secs_lt := by omega
  nanos_lt := .inl (by decide)

/-- The firings of `0 0,59 0,2 1 1 * 2030`. -/
def newYearFirings : List UtcDateTime := [newYear 0 0, newYear 0 59, newYear 2 0, newYear 2 59]

/-- A calendar that knows this expression. -/
def newYears : Calendar where
  parseFromRfc3339 _ := .error "input contains invalid characters"
  isTimezone tz := tz = "UTC"
  cronError _ := none
  cronAfter _ _ t := newYearFirings.find? (t < ·)
  secondsBetween a b := b.timestamp - a.timestamp - if b.nanos < a.nanos then 1 else 0
  addSeconds t n := if 0 < asI64 n then t.addSecs (asI64 n).toNat else t

/-- The seconds of the calendar. -/
theorem newYears_addSeconds (after : UtcDateTime) (every_secs : ℕ) :
    newYears.addSeconds after every_secs =
      if 0 < asI64 every_secs then after.addSecs (asI64 every_secs).toNat else after := by
  unfold newYears
  dsimp only

/-- It keeps the laws of `chrono`. -/
theorem newYears_chronoLaws : ChronoLaws newYears := by
  refine ⟨fun {after every_secs} _ hpos => ?_, fun {after every_secs} _ hpos => ?_,
    fun {after every_secs} _ hpos hnanos => ?_, fun {after every_secs} _ hle => ?_⟩
  · rw [newYears_addSeconds, if_pos hpos, UtcDateTime.timestamp_addSecs,
      Int.toNat_of_nonneg hpos.le]
  · rw [newYears_addSeconds, if_pos hpos, UtcDateTime.addSecs_nanos]
    exact Nat.mod_lt _ (by decide)
  · have hsame := after.addSecs_nanos (asI64 every_secs).toNat
    rw [newYears_addSeconds, if_pos hpos]
    unfold newYears
    dsimp only
    rw [hsame, Nat.mod_eq_of_lt hnanos, if_neg (lt_irrefl _), UtcDateTime.timestamp_addSecs,
      Int.toNat_of_nonneg hpos.le]
    ring
  · rw [newYears_addSeconds, if_neg (not_lt.mpr hle)]

/-- In an increasing list, the first element after a time is the next. -/
theorem isNext_of_find? {firings : List UtcDateTime} (hsorted : firings.Pairwise (· < ·))
    {after next : UtcDateTime} (h : firings.find? (after < ·) = some next) :
    IsNext {firing | firing ∈ firings} after next := by
  induction firings with
  | nil => cases h
  | cons firing firings ih =>
    obtain ⟨hfirst, hrest⟩ := List.pairwise_cons.mp hsorted
    rw [List.find?_cons] at h
    by_cases hlt : after < firing
    · rw [decide_eq_true hlt] at h
      cases h
      refine ⟨⟨List.mem_cons_self, hlt⟩, fun firing' hfiring' => ?_⟩
      rcases List.mem_cons.mp hfiring'.1 with rfl | hmem
      · exact le_rfl
      · exact (hfirst firing' hmem).le
    · rw [decide_eq_false hlt] at h
      obtain ⟨⟨hmem, hafter⟩, hleast⟩ := ih hrest h
      refine ⟨⟨List.mem_cons_of_mem _ hmem, hafter⟩, fun firing' hfiring' => ?_⟩
      rcases List.mem_cons.mp hfiring'.1 with rfl | hmem'
      · exact absurd hfiring'.2 hlt
      · exact hleast ⟨hmem', hfiring'.2⟩

/-- And those of `cron`. -/
theorem newYears_cronLaws : CronLaws newYears fun _ _ => {firing | firing ∈ newYearFirings} where
  isNext h := isNext_of_find? (by decide) h
  exists_of_lt firing hfiring hlt :=
    List.find?_isSome.mpr ⟨firing, hfiring, decide_eq_true hlt⟩

/-- An interval of an hour, and the expression while its firings need not be an hour apart. -/
theorem newYears_schedulable :
    Schedulable newYears 60 (.interval 3600) (newYear 0 0) ∧
      Schedulable newYears 3000 (.cron "0,59 0,2 1 1 * 2030" "UTC") (newYear 0 30) := by
  constructor
  · have hword : (ScheduleCadence.interval 3600).IsWord := (by decide : 3600 < U64.size)
    have hvalid : validateCadence newYears (.interval 3600) 60 (newYear 0 0) = .ok () := rfl
    exact (schedulable_iff newYears_chronoLaws newYears_cronLaws hword (by decide) hvalid).mpr
      ⟨by decide, by decide⟩
  · have hvalid : validateCadence newYears (.cron "0,59 0,2 1 1 * 2030" "UTC") 3000
      (newYear 0 10) = .ok () := rfl
    refine (schedulable_iff newYears_chronoLaws newYears_cronLaws (by exact trivial) (by decide)
      hvalid).mpr ⟨⟨newYear 2 0, ?_, by decide⟩, ?_⟩
    · exact (by decide : newYear 2 0 ∈ newYearFirings)
    · intro earlier first second hfirst hsecond
      have hapart : ∀ first ∈ newYearFirings, ∀ second ∈ newYearFirings, first < second →
          (3000 : ℤ) ≤ newYears.secondsBetween first second := by decide
      exact hapart first hfirst.1.1 second hsecond.1.1 hsecond.1.2

/-- An accepted interval that panics, one that goes back by a minute, and an expression whose second
gap is long enough and whose third is not. -/
theorem accepted_not_schedulable :
    (validateCadence newYears (.interval (10^16)) 60 (newYear 0 0) = .ok () ∧
      nextRun newYears (.interval (10^16)) (newYear 0 0) = none) ∧
    (validateCadence newYears (.interval (2^64 - 60)) 60 (newYear 0 0) = .ok () ∧
      ¬ Schedulable newYears 60 (.interval (2^64 - 60)) (newYear 0 0)) ∧
    validateCadence newYears (.cron "0,59 0,2 1 1 * 2030" "UTC") 3600 (newYear 0 10) = .ok () ∧
      ¬ Schedulable newYears 3600 (.cron "0,59 0,2 1 1 * 2030" "UTC") (newYear 0 30) := by
  refine ⟨⟨rfl, by decide⟩, ⟨rfl, fun hrun => ?_⟩, rfl, fun hrun => ?_⟩
  · obtain ⟨next, hnext, hlt⟩ := hrun.later rfl
    obtain ⟨-, hsum⟩ := nextRun_interval_eq_some.mp hnext
    have hsame : newYears.addSeconds (newYear 0 0) (2^64 - 60) = newYear 0 0 := by decide
    exact absurd (hsum.symm.trans hsame) hlt.ne'
  · have hfirst : nextRun newYears (.cron "0,59 0,2 1 1 * 2030" "UTC") (newYear 1 0) =
      some (.ok (some (newYear 2 0))) := rfl
    have hsecond : nextRun newYears (.cron "0,59 0,2 1 1 * 2030" "UTC") (newYear 2 0) =
      some (.ok (some (newYear 2 59))) := rfl
    exact absurd (hrun.apart rfl hfirst hsecond) (by decide)

end Oxydra
