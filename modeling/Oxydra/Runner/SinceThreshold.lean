import Oxydra.Library.DecimalFraction
import Oxydra.Library.TextLaws
import Oxydra.Runner.LogFiles

/-!
# Since values and their thresholds

What a since value of a log request denotes, a timestamp of RFC 3339 in UTC or a duration before the
current time, and what `parse_since_threshold` makes of it. It panics exactly where the last byte of
the value is inside a character, or where the seconds of a duration overflow
(`isSome_parseSinceThreshold_iff`).
-/

namespace Oxydra

open List DecimalFraction Text TextOrder

/-! ## Instants -/

/-- An instant: the day from 1970-01-01 on, the second of the day, where a leap second is the
86400th, and the fraction of the second. -/
abbrev Instant : Type := ℤ ×ₗ ℕ ×ₗ ℚ

/-- An instant from its parts. -/
def Instant.of (day : ℤ) (second : ℕ) (fraction : ℚ) : Instant :=
  toLex (day, toLex (second, fraction))

theorem Instant.of_lt {day day' : ℤ} {second second' : ℕ} {fraction fraction' : ℚ} :
    Instant.of day second fraction < Instant.of day' second' fraction' ↔
      day < day' ∨ day = day' ∧ (second < second' ∨ second = second' ∧ fraction < fraction') := by
  simp [Instant.of, Prod.Lex.toLex_lt_toLex]

/-- The instant of a number of seconds and nanoseconds from the beginning of 1970 on. -/
def instantAt (secs : ℤ) (nanos : ℕ) : Instant :=
  Instant.of (secs / 86400) (secs % 86400).toNat (nanos / 10^9)

/-! ## Timestamps -/

/-- How UTC is written in a timestamp of RFC 3339. -/
inductive UtcZone where
  | upperZ
  | lowerZ
  | plusZero
  | minusZero
  deriving DecidableEq, Repr

/-- The characters of a zone. -/
def UtcZone.chars : UtcZone → List Char
  | .upperZ => ['Z']
  | .lowerZ => ['z']
  | .plusZero => ['+', '0', '0', ':', '0', '0']
  | .minusZero => ['-', '0', '0', ':', '0', '0']

/-- Whether a zone is an offset in numbers. -/
def UtcZone.isNumeric : UtcZone → Bool
  | .upperZ | .lowerZ => false
  | .plusZero | .minusZero => true

/-- The first character of a zone, which tells it from the others. -/
def UtcZone.first : UtcZone → Char
  | .upperZ => 'Z'
  | .lowerZ => 'z'
  | .plusZero => '+'
  | .minusZero => '-'

/-- A timestamp of RFC 3339 in UTC, with any number of digits behind the second. -/
structure UtcStamp where
  date : GregorianDate
  hour : ℕ
  minute : ℕ
  second : ℕ
  digits : List ℕ
  /-- Whether the separator is `t`. -/
  lowerT : Bool
  zone : UtcZone
  year_nonneg : 0 ≤ date.year
  year_le : date.year ≤ 9999
  hour_lt : hour < 24
  minute_lt : minute < 60
  second_lt : second < 60 ∨ hour = 23 ∧ minute = 59 ∧ second = 60
  digits_lt : ∀ d ∈ digits, d < 10

/-- A fraction of a second with its point, or nothing. -/
def fractionChars (digits : List ℕ) : List Char :=
  if digits = [] then [] else '.' :: DecimalFraction.chars digits

namespace UtcStamp

variable (t : UtcStamp)

/-- The second of the day. -/
def daySecond : ℕ := t.hour * 3600 + t.minute * 60 + t.second

/-- The characters of a timestamp up to the second. -/
def baseChars : List Char :=
  fixed 4 t.date.year.toNat ++ '-' :: (fixed 2 t.date.month ++ '-' :: (fixed 2 t.date.day ++
    (if t.lowerT then 't' else 'T') :: (fixed 2 t.hour ++ ':' :: (fixed 2 t.minute ++
      ':' :: fixed 2 t.second))))

/-- The characters of a timestamp. -/
def chars : List Char := t.baseChars ++ (fractionChars t.digits ++ t.zone.chars)

/-- The instant of a timestamp. -/
def instant : Instant := Instant.of t.date.dayNumber t.daySecond (value t.digits)

/-- Two timestamps in one second. -/
def SameSecond (t t' : UtcStamp) : Prop :=
  t.date.dayNumber = t'.date.dayNumber ∧ t.daySecond = t'.daySecond

end UtcStamp

/-! ## What a since value denotes -/

/-- The units of a duration. -/
inductive DurationUnit where
  | seconds
  | minutes
  | hours
  | days
  deriving DecidableEq, Repr

/-- The letter of a unit. -/
def DurationUnit.letter : DurationUnit → Char
  | .seconds => 's'
  | .minutes => 'm'
  | .hours => 'h'
  | .days => 'd'

/-- The seconds of a unit. -/
def DurationUnit.secs : DurationUnit → ℕ
  | .seconds => 1
  | .minutes => 60
  | .hours => 3600
  | .days => 86400

/-- A since value that denotes an instant: a timestamp, or a duration before the current time. -/
inductive SinceValue where
  | stamp (t : UtcStamp)
  | duration (digits : List ℕ) (unit : DurationUnit) (ne_nil : digits ≠ [])
    (digits_lt : ∀ d ∈ digits, d < 10)

/-- The number that digits write. -/
def numberOf (digits : List ℕ) : ℕ := digits.foldl (fun n d => 10 * n + d) 0

namespace SinceValue

/-- The characters of a since value. -/
def chars : SinceValue → List Char
  | .stamp t => t.chars
  | .duration digits unit _ _ => DecimalFraction.chars digits ++ [unit.letter]

/-- The instant that a since value denotes. -/
def instant (now : SystemTime) : SinceValue → Instant
  | .stamp t => t.instant
  | .duration digits unit _ _ => instantAt (now.secs - numberOf digits * unit.secs) now.nanos

end SinceValue

/-! ## Where the filter is right -/

/-- The seconds of the unit that a since value ends with, by which its number is multiplied. -/
def unitFactor : Char → ℕ
  | 'm' => 60
  | 'h' => 3600
  | 'd' => 86400
  | _ => 0

/-- A since value of which the last byte can be split off, and whose duration does not overflow,
where it is taken for one. -/
def Splittable (since : String) : Prop :=
  trim since = "" ∨ ('T' ∈ (trim since).toList ∧ 19 ≤ (trim since).utf8ByteSize) ∨
    (trim since).utf8ByteSize < 2 ∨
    ∃ num last, (trim since).toList = num ++ [last] ∧ last.utf8Size = 1 ∧
      ∀ n, parseU64 (String.ofList num) = some n → n * unitFactor last < U64.size

/-! ## Splitting off the unit -/

theorem size_concat (num : List Char) (last : Char) :
    (String.ofList (num ++ [last])).utf8ByteSize =
      (String.ofList num).utf8ByteSize + last.utf8Size := by
  rw [String.ofList_append, String.utf8ByteSize_append, ← String.singleton_eq_ofList,
    String.utf8ByteSize_singleton]

/-- The last byte of a text is a character of its own, or there is no boundary before it. -/
theorem sliceTo_last (num : List Char) (last : Char) :
    sliceTo ((String.ofList (num ++ [last])).utf8ByteSize - 1) (String.ofList (num ++ [last])) =
      if last.utf8Size = 1 then some (String.ofList num) else none := by
  split_ifs with hlast
  · rw [size_concat, hlast, Nat.add_sub_cancel, sliceTo_eq_some_iff]
    exact ⟨String.singleton last, by rw [String.ofList_append, String.singleton_eq_ofList], rfl⟩
  · cases hcut : sliceTo ((String.ofList (num ++ [last])).utf8ByteSize - 1)
      (String.ofList (num ++ [last])) with
    | none => rfl
    | some head =>
      obtain ⟨tail, hsplit, hsize⟩ := sliceTo_eq_some_iff.mp hcut
      have hpos := last.utf8Size_pos
      have htail : tail.utf8ByteSize = 1 := by
        have hall := congrArg String.utf8ByteSize hsplit
        rw [String.utf8ByteSize_append] at hall
        rw [size_concat] at hall hsize
        omega
      rcases eq_nil_or_concat' tail.toList with hnil | ⟨front, c, hc⟩
      · rw [String.toList_eq_nil_iff.mp hnil] at htail
        exact absurd htail (by decide)
      · have hlists := congrArg String.toList hsplit
        rw [String.toList_ofList, String.toList_append, hc, ← append_assoc] at hlists
        obtain rfl : last = c := singleton_inj.mp (append_inj_right' hlists rfl)
        rw [← String.ofList_toList (s := tail), hc, size_concat] at htail
        omega

theorem slice_last (num : List Char) {last : Char} (h : last.utf8Size = 1) :
    slice ((String.ofList (num ++ [last])).utf8ByteSize - 1)
      (String.ofList (num ++ [last])).utf8ByteSize (String.ofList (num ++ [last])) =
        some (String.singleton last) := by
  rw [size_concat, h, Nat.add_sub_cancel, slice_eq_some_iff]
  refine ⟨String.ofList num, "", ?_, rfl, ?_⟩
  · rw [String.append_empty, String.ofList_append, String.singleton_eq_ofList]
  · rw [String.utf8ByteSize_singleton, h]

/-- The seconds of a shorthand, by the letter of its unit. -/
theorem shorthandSecs_singleton (n : ℕ) (c : Char) : shorthandSecs n (String.singleton c) =
    if c = 's' then some (some n)
    else if unitFactor c = 0 then some none
    else if n * unitFactor c < U64.size then some (some (n * unitFactor c)) else none := by
  have hproduct : ∀ k, (U64.checkedMul n k).map some =
      if n * k < U64.size then some (some (n * k)) else none := by
    intro k
    unfold U64.checkedMul U64.checked
    split_ifs <;> rfl
  have hsingle : ∀ d : Char, String.singleton c = String.singleton d → c = d := by
    intro d h
    simpa using congrArg String.toList h
  by_cases hs : c = 's'
  · subst hs
    rfl
  rw [if_neg hs]
  by_cases hm : c = 'm'
  · subst hm
    exact hproduct 60
  by_cases hh : c = 'h'
  · subst hh
    exact hproduct 3600
  by_cases hd : c = 'd'
  · subst hd
    exact hproduct 86400
  have hfactor : unitFactor c = 0 := by
    unfold unitFactor
    split
    · exact absurd rfl hm
    · exact absurd rfl hh
    · exact absurd rfl hd
    · rfl
  rw [if_pos hfactor]
  unfold shorthandSecs
  split
  · next h => exact absurd (hsingle 's' h) hs
  · next h => exact absurd (hsingle 'm' h) hm
  · next h => exact absurd (hsingle 'h' h) hh
  · next h => exact absurd (hsingle 'd' h) hd
  · rfl

/-! ## The threshold -/

theorem asSecs_getD (t : SystemTime) : t.asSecs.getD 0 = t.secs.toNat := by
  unfold SystemTime.asSecs
  split_ifs with h
  · rfl
  · rw [Option.getD_none]
    omega

/-- The text of a time, of which one before 1970 is the beginning of that year. -/
theorem systemTimeToRfc3339_eq (t : SystemTime) : ∃ date : GregorianDate,
    date.dayNumber = (t.secs.toNat / 86400 : ℕ) ∧ systemTimeToRfc3339 t =
      some (String.ofList (dateText (paddedYear date.year) date.month date.day ++
        'T' :: timeText (t.secs.toNat % 86400))) := by
  have hword := t.secs_isWord.2
  obtain ⟨date, hnumber, hcivil⟩ := @civilDate_spec (t.secs.toNat / 86400) (by
    unfold U64.size
    omega)
  refine ⟨date, hnumber, ?_⟩
  rw [systemTimeToRfc3339, asSecs_getD, hcivil]
  rfl

/-- What is read of a duration, after its unit is split off. -/
def thresholdOf (now : SystemTime) (num : Option ℕ) (last : Char) : Option (Option String) :=
  match num with
  | none => some none
  | some n =>
    (shorthandSecs n (String.singleton last)).bind fun
      | none => some none
      | some secs =>
        match now.checkedSub secs with
        | none => some none
        | some threshold => (systemTimeToRfc3339 threshold).map some

/-- A since value that is not taken for a timestamp. -/
theorem parseSinceThreshold_of_concat (now : SystemTime) {since : String} {num : List Char}
    {last : Char} (htrim : trim since = String.ofList (num ++ [last]))
    (hstamp : ¬('T' ∈ (trim since).toList ∧ 19 ≤ (trim since).utf8ByteSize))
    (hsize : ¬(trim since).utf8ByteSize < 2) : parseSinceThreshold now since =
      if last.utf8Size = 1 then thresholdOf now (parseU64 (String.ofList num)) last else none := by
  have hne : trim since ≠ "" := by
    intro hempty
    rw [hempty] at hsize
    exact hsize (by decide)
  unfold parseSinceThreshold
  rw [if_neg hne, if_neg hstamp, if_neg hsize, htrim, sliceTo_last]
  split_ifs with hlast
  · rw [slice_last num hlast, Option.bind_eq_bind, Option.bind_some, Option.bind_eq_bind,
      Option.bind_some]
    rfl
  · rfl

/-- Nothing after the split panics but a product. -/
theorem isSome_thresholdOf_iff (now : SystemTime) (num : Option ℕ) (last : Char) :
    (thresholdOf now num last).isSome ↔ ∀ n, num = some n → n * unitFactor last < U64.size := by
  have hpos : 0 < U64.size := Nat.two_pow_pos 64
  cases num with
  | none => exact iff_of_true rfl nofun
  | some n =>
    have hsubtract : ∀ secs, (match now.checkedSub secs with
        | none => some none
        | some threshold => (systemTimeToRfc3339 threshold).map some).isSome := by
      intro secs
      split
      · rfl
      · next threshold _ =>
        obtain ⟨date, -, htext⟩ := systemTimeToRfc3339_eq threshold
        rw [htext]
        rfl
    have hproduct : (∀ k, some n = some k → k * unitFactor last < U64.size) ↔
        n * unitFactor last < U64.size := by simp
    rw [hproduct, thresholdOf, shorthandSecs_singleton]
    split_ifs with hs hfactor hfits
    · subst hs
      exact iff_of_true (hsubtract n) hpos
    · rw [hfactor]
      exact iff_of_true rfl hpos
    · exact iff_of_true (hsubtract _) hfits
    · exact iff_of_false nofun hfits

/-- No panic exactly where the value can be split. -/
theorem isSome_parseSinceThreshold_iff (now : SystemTime) (since : String) :
    (parseSinceThreshold now since).isSome ↔ Splittable since := by
  unfold Splittable
  by_cases hempty : trim since = ""
  · refine iff_of_true ?_ (.inl hempty)
    rw [parseSinceThreshold, if_pos hempty]
    rfl
  by_cases hstamp : 'T' ∈ (trim since).toList ∧ 19 ≤ (trim since).utf8ByteSize
  · refine iff_of_true ?_ (.inr (.inl hstamp))
    rw [parseSinceThreshold, if_neg hempty, if_pos hstamp]
    rfl
  by_cases hshort : (trim since).utf8ByteSize < 2
  · refine iff_of_true ?_ (.inr (.inr (.inl hshort)))
    rw [parseSinceThreshold, if_neg hempty, if_neg hstamp, if_pos hshort]
    rfl
  rw [or_iff_right hempty, or_iff_right hstamp, or_iff_right hshort]
  rcases eq_nil_or_concat' (trim since).toList with hnil | ⟨num, last, hlast⟩
  · exact absurd (String.toList_eq_nil_iff.mp hnil) hempty
  have htrim : trim since = String.ofList (num ++ [last]) := by
    rw [← hlast, String.ofList_toList]
  rw [parseSinceThreshold_of_concat now htrim hstamp hshort, hlast]
  have hunique : ∀ num' last', num ++ [last] = num' ++ [last'] → num' = num ∧ last' = last := by
    intro num' last' h
    obtain ⟨hnum, hlast⟩ := append_inj' h rfl
    exact ⟨hnum.symm, (singleton_inj.mp hlast).symm⟩
  split_ifs with hone
  · rw [isSome_thresholdOf_iff]
    constructor
    · exact fun h => ⟨num, last, rfl, hone, h⟩
    · rintro ⟨num', last', hsplit, -, h⟩
      obtain ⟨rfl, rfl⟩ := hunique _ _ hsplit
      exact h
  · refine iff_of_false nofun ?_
    rintro ⟨num', last', hsplit, hone', -⟩
    obtain ⟨rfl, rfl⟩ := hunique _ _ hsplit
    exact hone hone'

end Oxydra
