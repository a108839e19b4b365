import Oxydra.Runner.TimestampOrder

/-!
# Timestamps in since values and in log lines

What the code reads of timestamps and durations: the threshold of a since value
(`parseSinceThreshold_stamp`, `parseSinceThreshold_duration`), and the timestamp of a line that
starts with one (`extractTimestamp_chars`). Neither reads one with a small `t`.
-/

namespace Oxydra

open List DecimalFraction Text TextOrder

variable {c : Char} {digits : List ℕ} {d : ℕ}

/-! ## The line -/

/-- The characters of timestamps. -/
theorem digitChar_cases (h : d < 10) : Nat.digitChar d ∈ "0123456789".toList := by
  interval_cases d <;> decide

/-- A number of fixed width is of digits. -/
theorem mem_fixed {w n : ℕ} (h : n < 10^w) (hc : c ∈ fixed w n) :
    c ∈ "0123456789".toList := by
  induction w generalizing n with
  | zero => simp [fixed] at hc
  | succ w ih =>
    rw [fixed] at hc
    rcases mem_cons.mp hc with rfl | hrest
    · exact digitChar_cases (div_lt_ten h)
    · exact ih (Nat.mod_lt _ (by positivity)) hrest

/-- So is a fraction. -/
theorem mem_chars (h : ∀ d ∈ digits, d < 10) (hc : c ∈ DecimalFraction.chars digits) :
    c ∈ "0123456789".toList := by
  obtain ⟨d, hd, rfl⟩ := mem_map.mp hc
  exact digitChar_cases (h d hd)

/-- The bytes of two parts. -/
theorem bytes_ofList_append (a b : List Char) :
    bytes (String.ofList (a ++ b)) = bytes (String.ofList a) ++ bytes (String.ofList b) := by
  rw [String.ofList_append, bytes, String.toByteArray_append]
  simp [bytes]

/-- A character has a byte at least. -/
theorem length_le_utf8ByteSize (l : List Char) : l.length ≤ (String.ofList l).utf8ByteSize := by
  induction l with
  | nil => exact Nat.zero_le _
  | cons c l ih =>
    have hpos := c.utf8Size_pos
    rw [utf8ByteSize_cons, length_cons]
    omega

namespace UtcStamp

variable (t : UtcStamp)

/-- The characters up to the seconds. -/
theorem mem_baseChars (hc : c ∈ t.baseChars) :
    c ∈ "0123456789-:".toList ∨ c = if t.lowerT then 't' else 'T' := by
  have hyear : t.date.year.toNat < 10^4 := by
    have := t.year_le
    omega
  have hmonth : t.date.month < 10^2 := by
    have := t.date.month_le
    omega
  have hhour : t.hour < 10^2 := by
    have := t.hour_lt
    omega
  have hminute : t.minute < 10^2 := by
    have := t.minute_lt
    omega
  have hsecond : t.second < 10^2 := by
    have := t.second_lt
    omega
  have hdigit : "0123456789".toList ⊆ "0123456789-:".toList := by decide
  simp only [baseChars, mem_append, mem_cons] at hc
  rcases hc with h | rfl | h | rfl | h | rfl | h | rfl | h | rfl | h
  · exact .inl (hdigit (mem_fixed hyear h))
  · exact .inl (by decide)
  · exact .inl (hdigit (mem_fixed hmonth h))
  · exact .inl (by decide)
  · exact .inl (hdigit (mem_fixed (day_lt _) h))
  · exact .inr rfl
  · exact .inl (hdigit (mem_fixed hhour h))
  · exact .inl (by decide)
  · exact .inl (hdigit (mem_fixed hminute h))
  · exact .inl (by decide)
  · exact .inl (hdigit (mem_fixed hsecond h))

/-- The characters of a timestamp. -/
theorem mem_chars (hc : c ∈ t.chars) :
    c ∈ "0123456789-:.Zz+".toList ∨ c = if t.lowerT then 't' else 'T' := by
  have hbase : "0123456789-:".toList ⊆ "0123456789-:.Zz+".toList := by decide
  have hdigit : "0123456789".toList ⊆ "0123456789-:.Zz+".toList := by decide
  have hzone : ∀ z : UtcZone, z.chars ⊆ "0123456789-:.Zz+".toList := by
    intro z
    cases z <;> decide
  unfold chars fractionChars at hc
  rcases mem_append.mp hc with h | h
  · exact (t.mem_baseChars h).imp_left (@hbase c)
  refine .inl ?_
  rcases mem_append.mp h with h | h
  · split_ifs at h
    · exact absurd h not_mem_nil
    · rcases mem_cons.mp h with rfl | h
      · decide
      · exact hdigit (Oxydra.mem_chars t.digits_lt h)
  · exact hzone _ h

/-- They are ASCII. -/
theorem ascii (hc : c ∈ t.chars) : c.toNat < 128 := by
  have hall : "0123456789-:.Zz+".toList.all (fun c => c.toNat < 128) = true := by decide
  rcases t.mem_chars hc with h | rfl
  · exact of_decide_eq_true (all_eq_true.mp hall c h)
  · split_ifs <;> decide

/-- None of them ends a field. -/
theorem not_isDelimiter (hc : c ∈ t.chars) : isDelimiter c = false := by
  have hall : "0123456789-:.Zz+".toList.all (fun c => !isDelimiter c) = true := by decide
  rcases t.mem_chars hc with h | rfl
  · exact (Bool.not_eq_true' _).mp (all_eq_true.mp hall c h)
  · split_ifs <;> decide

/-- The separators of the date and the time. -/
theorem separators : t.baseChars[4]? = some '-' ∧ t.baseChars[7]? = some '-' ∧
    t.baseChars[10]? = some (if t.lowerT then 't' else 'T') :=
  ⟨rfl, rfl, rfl⟩

/-- A `T` is the separator. -/
theorem mem_T_iff : 'T' ∈ t.chars ↔ t.lowerT = false := by
  have hother : 'T' ∉ "0123456789-:.Zz+".toList := by decide
  constructor
  · intro h
    have hseparator := (t.mem_chars h).resolve_left hother
    by_contra hlower
    rw [if_pos (by simpa using hlower)] at hseparator
    exact absurd hseparator (by decide)
  · intro hlower
    have hseparator := t.separators.2.2
    rw [hlower] at hseparator
    exact mem_append_left _ (mem_of_getElem? hseparator)

/-- The first bytes of a line are those of the date and the time. -/
theorem getElem?_bytes (more : List Char) {i : ℕ} (hi : i < 19) :
    (bytes (String.ofList (t.chars ++ more)))[i]? =
      t.baseChars[i]?.map fun c => c.val.toUInt8 := by
  have hascii : ∀ c ∈ t.baseChars, c.toNat < 128 := fun c hc =>
    t.ascii (mem_append_left _ hc)
  rw [chars, append_assoc, bytes_ofList_append, bytes_ofList_ascii hascii,
    List.getElem?_append_left (by rw [length_map, length_baseChars]; exact hi),
    List.getElem?_map]

/-- A timestamp has 19 characters at least. -/
theorem le_size (more : List Char) : 19 ≤ (String.ofList (t.chars ++ more)).utf8ByteSize := by
  have hlength := length_le_utf8ByteSize (t.chars ++ more)
  have hbase := t.length_baseChars
  unfold chars at hlength ⊢
  simp only [length_append] at hlength
  omega

/-- The timestamp of a line that starts with one, up to the first space. -/
theorem extractTimestamp_chars (more : List Char) :
    extractTimestamp (String.ofList (t.chars ++ more)) = if t.lowerT then none
      else some (String.ofList (t.chars ++ more.takeWhile fun c => !isDelimiter c)) := by
  have hfield : firstField (String.ofList (t.chars ++ more)) =
      String.ofList (t.chars ++ more.takeWhile fun c => !isDelimiter c) := by
    rw [firstField, String.toList_ofList, takeWhile_append_of_pos]
    intro c hc
    rw [t.not_isDelimiter hc, Bool.not_false]
  obtain ⟨h4, h7, h10⟩ := t.separators
  have hstamped : looksStamped (String.ofList (t.chars ++ more)) = !t.lowerT := by
    unfold looksStamped
    dsimp only
    rw [t.getElem?_bytes more (by decide), t.getElem?_bytes more (by decide),
      t.getElem?_bytes more (by decide), h4, h7, h10, decide_eq_true (t.le_size more)]
    cases t.lowerT <;> decide
  rw [extractTimestamp, hstamped, hfield]
  cases t.lowerT
  · exact if_pos ⟨rfl, t.le_size _⟩
  · exact if_neg (by simp)

end UtcStamp

/-! ## The threshold of a timestamp -/

/-- A text that begins with a digit. -/
theorem parseU64_digitChar (hd : d < 10) {l rest : List Char} (h : l = Nat.digitChar d :: rest) :
    parseU64 (String.ofList l) =
      if l.isEmpty ∨ ¬l.all Char.isDigit then none
      else if l.foldl (fun n c => 10 * n + (c.toNat - '0'.toNat)) 0 < 2^64 then
        some (l.foldl (fun n c => 10 * n + (c.toNat - '0'.toNat)) 0)
      else none := by
  unfold parseU64
  rw [String.toList_ofList, h]
  interval_cases d <;> rfl

/-- What has a hyphen in it is no number. -/
theorem parseU64_of_mem (hd : d < 10) {l rest : List Char} (h : l = Nat.digitChar d :: rest)
    (hmem : '-' ∈ l) : parseU64 (String.ofList l) = none := by
  have hall : ¬l.all Char.isDigit := by
    intro hall
    exact absurd (all_eq_true.mp hall _ hmem) (by decide)
  rw [parseU64_digitChar hd h]
  exact if_pos (.inr hall)

/-- An ASCII character is one byte. -/
theorem utf8Size_of_ascii (h : c.toNat < 128) : c.utf8Size = 1 := by
  rw [Char.utf8Size, if_pos]
  exact UInt32.le_iff_toNat_le.mpr (Nat.le_of_lt_succ h)

/-- A timestamp is its own threshold, but one with a small letter is none. -/
theorem parseSinceThreshold_stamp (now : SystemTime) {since : String} {t : UtcStamp}
    (htrim : trim since = String.ofList t.chars) : parseSinceThreshold now since =
      some (if t.lowerT then none else some (String.ofList t.chars)) := by
  have hsize := t.le_size []
  rw [append_nil] at hsize
  have hne : trim since ≠ "" := by
    intro hempty
    rw [← htrim, hempty] at hsize
    exact absurd hsize (by decide)
  have hstamp : ('T' ∈ (trim since).toList ∧ 19 ≤ (trim since).utf8ByteSize) ↔
      t.lowerT = false := by
    rw [htrim, String.toList_ofList, t.mem_T_iff, and_iff_left hsize]
  cases hlower : t.lowerT with
  | false =>
    rw [parseSinceThreshold, if_neg hne, if_pos (hstamp.mpr hlower), htrim]
    rfl
  | true =>
    obtain ⟨num, last, hsplit, ⟨d, rest, hd, hnum⟩, hmem⟩ : ∃ num last, t.chars = num ++ [last] ∧
        (∃ d rest, d < 10 ∧ num = Nat.digitChar d :: rest) ∧ '-' ∈ num := by
      obtain ⟨front, last, hzone⟩ : ∃ front last, t.zone.chars = front ++ [last] := by
        cases t.zone with
        | upperZ => exact ⟨[], 'Z', rfl⟩
        | lowerZ => exact ⟨[], 'z', rfl⟩
        | plusZero => exact ⟨['+', '0', '0', ':', '0'], '0', rfl⟩
        | minusZero => exact ⟨['-', '0', '0', ':', '0'], '0', rfl⟩
      refine ⟨t.baseChars ++ (fractionChars t.digits ++ front), last, ?_, ?_, ?_⟩
      · rw [UtcStamp.chars, hzone, append_assoc, append_assoc]
      · have hyear := t.year_le
        exact ⟨_, _, div_lt_ten (show t.date.year.toNat < 10^(3 + 1) by omega), rfl⟩
      · exact mem_append_left _ (mem_of_getElem? t.separators.1)
    have hlast : last.utf8Size = 1 := by
      refine utf8Size_of_ascii (t.ascii ?_)
      rw [hsplit]
      exact mem_append_right _ (mem_singleton_self last)
    rw [parseSinceThreshold_of_concat now (by rw [htrim, hsplit])
      (by rw [hstamp, hlower]; decide) (by rw [htrim]; omega), if_pos hlast,
      parseU64_of_mem hd hnum hmem]
    rfl

/-! ## The threshold of a duration -/

/-- The character of a digit. -/
theorem isDigit_digitChar (h : d < 10) :
    (Nat.digitChar d).isDigit = true ∧ (Nat.digitChar d).toNat - '0'.toNat = d := by
  interval_cases d <;> decide

/-- Digits are read as their number, if it fits. -/
theorem parseU64_chars (hne : digits ≠ []) (h : ∀ d ∈ digits, d < 10) :
    parseU64 (String.ofList (DecimalFraction.chars digits)) =
      if numberOf digits < 2^64 then some (numberOf digits) else none := by
  have hfold : ∀ (n : ℕ) (l : List ℕ), (∀ d ∈ l, d < 10) →
      (l.map Nat.digitChar).foldl (fun n c => 10 * n + (c.toNat - '0'.toNat)) n =
        l.foldl (fun n d => 10 * n + d) n := by
    intro n l hl
    induction l generalizing n with
    | nil => rfl
    | cons d l ih =>
      obtain ⟨hd, hrest⟩ := forall_mem_cons.mp hl
      rw [map_cons, foldl_cons, foldl_cons, (isDigit_digitChar hd).2, ih _ hrest]
  have hall : (DecimalFraction.chars digits).all Char.isDigit = true := by
    rw [all_eq_true]
    intro c hc
    obtain ⟨d, hd, rfl⟩ := mem_map.mp hc
    exact (isDigit_digitChar (h d hd)).1
  have hnonempty : ¬(DecimalFraction.chars digits).isEmpty := by
    simpa [DecimalFraction.chars] using hne
  obtain ⟨d, rest, rfl⟩ := exists_cons_of_ne_nil hne
  rw [parseU64_digitChar (h d (by simp)) (show DecimalFraction.chars (d :: rest) = _ from rfl),
    if_neg (by rw [hall]; exact not_or.mpr ⟨hnonempty, fun hno => hno rfl⟩)]
  unfold numberOf
  rw [DecimalFraction.chars, hfold 0 _ h]

/-- The seconds of a duration, where they do not overflow. -/
theorem shorthandSecs_letter {n : ℕ} (unit : DurationUnit)
    (h : n * unitFactor unit.letter < U64.size) :
    shorthandSecs n (String.singleton unit.letter) = some (some (n * unit.secs)) := by
  rw [shorthandSecs_singleton]
  cases unit with
  | seconds => rw [if_pos (by rfl), DurationUnit.secs, Nat.mul_one]
  | minutes => rw [if_neg (by decide), if_neg (by decide), if_pos h]; rfl
  | hours => rw [if_neg (by decide), if_neg (by decide), if_pos h]; rfl
  | days => rw [if_neg (by decide), if_neg (by decide), if_pos h]; rfl

/-- A duration is subtracted from the current time, and there is no threshold where the clock has no
such time. -/
theorem parseSinceThreshold_duration {now : SystemTime} {since : String} {unit : DurationUnit}
    (hne : digits ≠ []) (hdigits : ∀ d ∈ digits, d < 10)
    (htrim : trim since = String.ofList (DecimalFraction.chars digits ++ [unit.letter]))
    (hsome : (parseSinceThreshold now since).isSome) : parseSinceThreshold now since =
      match now.checkedSub (numberOf digits * unit.secs) with
      | none => some none
      | some threshold => (systemTimeToRfc3339 threshold).map some := by
  have hletter : unit.letter.utf8Size = 1 := by cases unit <;> decide
  have hstamp : ¬('T' ∈ (trim since).toList ∧ 19 ≤ (trim since).utf8ByteSize) := by
    rintro ⟨hmem, -⟩
    rw [htrim, String.toList_ofList] at hmem
    rcases mem_append.mp hmem with h | h
    · exact absurd (mem_chars hdigits h) (by decide)
    · revert h
      cases unit <;> decide
  have hsize : ¬(trim since).utf8ByteSize < 2 := by
    have hlength := length_le_utf8ByteSize (DecimalFraction.chars digits ++ [unit.letter])
    have hpos := length_pos_of_ne_nil hne
    rw [length_append, DecimalFraction.chars, length_map, length_singleton]
      at hlength
    rw [htrim, DecimalFraction.chars]
    omega
  have hparse := parseSinceThreshold_of_concat now htrim hstamp hsize
  rw [if_pos hletter, parseU64_chars hne hdigits] at hparse
  rw [hparse]
  rw [hparse, isSome_thresholdOf_iff] at hsome
  split_ifs at hsome ⊢ with hn
  · have hfits := hsome _ rfl
    rw [thresholdOf, shorthandSecs_letter unit hfits]
    rfl
  · have hpos : 1 ≤ unit.secs := by cases unit <;> decide
    have hlarge : 2^64 ≤ numberOf digits * unit.secs :=
      (not_lt.mp hn).trans (Nat.le_mul_of_pos_right _ hpos)
    have hclock := now.secs_isWord.2
    have hnone : now.checkedSub (numberOf digits * unit.secs) = none := by
      refine dif_neg fun hword => ?_
      have hlow := hword.1
      push_cast at hlow hclock
      have hlarge' : (2^64 : ℤ) ≤ (numberOf digits * unit.secs : ℕ) := by exact_mod_cast hlarge
      push_cast at hlarge'
      linarith
    rw [hnone]
    rfl

end Oxydra
