import Mathlib.Data.List.Basic

/-!
# UTF-8, decoded piece by piece

The units that bytes decode to: a character, or a longest part of an ill-formed sequence that could
have become one, which stands for the replacement character in lossy text. A machine reads the bytes
one at a time and keeps the unit that it is in.

Bytes that are cut between two units decode to the two parts one after the other (`units_append`),
and bytes that are cut inside a unit decode to more units than the whole (`length_units_append_lt`).
So a text that is decoded piece by piece is the text of the whole exactly where no cut falls inside
a unit (`flatten_lossy_iff`). Strict decoding stops at the first unit that is no character.
-/

namespace Utf8

open List

/-! ## Units -/

/-- A unit that may go on: its bytes so far, how many are missing, and the range of the next one. -/
structure Pending where
  cur : List UInt8
  missing : ℕ
  low : ℕ
  high : ℕ
  /-- What goes on is a continuation byte. -/
  continues : 0x80 ≤ low ∧ high ≤ 0xBF
  deriving DecidableEq

namespace Pending

variable (p : Pending)

/-- The unit goes on with this byte. -/
def Accepts (b : UInt8) : Prop := p.low ≤ b.toNat ∧ b.toNat ≤ p.high

instance (b : UInt8) : Decidable (p.Accepts b) := inferInstanceAs (Decidable (_ ∧ _))

/-- The unit with one more byte. -/
def next (b : UInt8) : Pending := ⟨p.cur ++ [b], p.missing - 1, 0x80, 0xBF, by decide⟩

/-- The unit that starts with a byte, where it has more than one. -/
def first (b : UInt8) : Option Pending :=
  let n := b.toNat
  if 0xC2 ≤ n ∧ n ≤ 0xDF then some ⟨[b], 1, 0x80, 0xBF, by decide⟩
  else if n = 0xE0 then some ⟨[b], 2, 0xA0, 0xBF, by decide⟩
  else if n = 0xED then some ⟨[b], 2, 0x80, 0x9F, by decide⟩
  else if 0xE1 ≤ n ∧ n ≤ 0xEF then some ⟨[b], 2, 0x80, 0xBF, by decide⟩
  else if n = 0xF0 then some ⟨[b], 3, 0x90, 0xBF, by decide⟩
  else if 0xF1 ≤ n ∧ n ≤ 0xF3 then some ⟨[b], 3, 0x80, 0xBF, by decide⟩
  else if n = 0xF4 then some ⟨[b], 3, 0x80, 0x8F, by decide⟩
  else none

/-- No unit of several bytes starts with a continuation byte. -/
theorem first_of_continuation {b : UInt8} (h : 0x80 ≤ b.toNat ∧ b.toNat ≤ 0xBF) :
    first b = none := by
  unfold first
  dsimp only
  split_ifs <;> first | rfl | omega

end Pending

/-- A byte between two units. -/
def start (b : UInt8) : List (List UInt8) × Option Pending :=
  match Pending.first b with
  | some p => ([], some p)
  | none => ([[b]], none)

/-- A byte: the units that end with it or before it, and the unit that goes on. -/
def step (state : Option Pending) (b : UInt8) : List (List UInt8) × Option Pending :=
  match state with
  | none => start b
  | some p =>
    if p.Accepts b then
      if p.missing ≤ 1 then ([p.cur ++ [b]], none) else ([], some (p.next b))
    else (p.cur :: (start b).1, (start b).2)

/-- The unit that the bytes end in. -/
def rest : Option Pending → List (List UInt8)
  | none => []
  | some p => [p.cur]

/-- The units of bytes. -/
def units (state : Option Pending) : List UInt8 → List (List UInt8)
  | [] => rest state
  | b :: bs => (step state b).1 ++ units (step state b).2 bs

/-- The unit that goes on behind bytes. -/
def after (state : Option Pending) : List UInt8 → Option Pending
  | [] => state
  | b :: bs => after (step state b).2 bs

/-- The units that end within bytes. -/
def ended (state : Option Pending) : List UInt8 → List (List UInt8)
  | [] => []
  | b :: bs => (step state b).1 ++ ended (step state b).2 bs

theorem units_eq (state : Option Pending) (xs : List UInt8) :
    units state xs = ended state xs ++ rest (after state xs) := by
  induction xs generalizing state with
  | nil => rfl
  | cons b bs ih => rw [units, ended, after, ih, append_assoc]

theorem units_append_eq (state : Option Pending) (xs ys : List UInt8) :
    units state (xs ++ ys) = ended state xs ++ units (after state xs) ys := by
  induction xs generalizing state with
  | nil => rfl
  | cons b bs ih => rw [cons_append, units, ended, after, ih, append_assoc]

theorem after_append (state : Option Pending) (xs ys : List UInt8) :
    after state (xs ++ ys) = after (after state xs) ys := by
  induction xs generalizing state with
  | nil => rfl
  | cons b bs ih => rw [cons_append, after, after, ih]

/-! ## Cuts -/

/-- A cut between two parts falls inside a unit: one goes on behind the first, and does with the
first byte of the second. -/
def Inside (xs ys : List UInt8) : Prop :=
  ∃ p ∈ after none xs, ∃ b ∈ ys.head?, p.Accepts b

instance (xs ys : List UInt8) : Decidable (Inside xs ys) :=
  inferInstanceAs (Decidable (∃ p ∈ after none xs, ∃ b ∈ ys.head?, p.Accepts b))

/-- A byte that a unit does not go on with starts the next one. -/
theorem step_of_not_accepts {p : Pending} {b : UInt8} (h : ¬p.Accepts b) :
    step (some p) b = (p.cur :: (step none b).1, (step none b).2) := by
  simp only [step]
  rw [if_neg h]

/-- Bytes that are cut between two units. -/
theorem units_append {xs ys : List UInt8} (h : ¬Inside xs ys) :
    units none (xs ++ ys) = units none xs ++ units none ys := by
  rw [units_append_eq, units_eq none xs, append_assoc]
  congr 1
  cases hafter : after none xs with
  | none => rfl
  | some p =>
    cases ys with
    | nil => rfl
    | cons b bs =>
      have hout : ¬p.Accepts b := fun hin => h ⟨p, hafter, b, rfl, hin⟩
      rw [units, step_of_not_accepts hout, units]
      rfl

/-- A continuation byte that no unit goes on with is one of its own. -/
theorem units_continuation {b : UInt8} (h : 0x80 ≤ b.toNat ∧ b.toNat ≤ 0xBF) (bs : List UInt8) :
    units none (b :: bs) = [b] :: units none bs := by
  rw [units, step, start, Pending.first_of_continuation h]
  rfl

/-- A unit that goes on makes at most one more of the bytes behind it, and none where it goes on
with the first of them. -/
theorem length_units_some_le (p : Pending) (bs : List UInt8) :
    (units (some p) bs).length ≤ 1 + (units none bs).length ∧
      ∀ b cs, bs = b :: cs → p.Accepts b →
        (units (some p) bs).length ≤ (units none bs).length := by
  induction bs generalizing p with
  | nil => exact ⟨Nat.le_refl 1, nofun⟩
  | cons b bs ih =>
    have hgoes : p.Accepts b →
        (units (some p) (b :: bs)).length ≤ (units none (b :: bs)).length := by
      intro hin
      have hcontinuation : 0x80 ≤ b.toNat ∧ b.toNat ≤ 0xBF :=
        ⟨Nat.le_trans p.continues.1 hin.1, Nat.le_trans hin.2 p.continues.2⟩
      have hnext := (ih (p.next b)).1
      rw [units_continuation hcontinuation, units, length_append, length_cons]
      simp only [step, if_pos hin]
      split_ifs
      · dsimp only [length_singleton]
        omega
      · dsimp only [length_nil]
        omega
    refine ⟨?_, ?_⟩
    · by_cases hin : p.Accepts b
      · exact Nat.le_trans (hgoes hin) (Nat.le_add_left _ _)
      · refine Nat.le_of_eq ?_
        rw [units, step_of_not_accepts hin, units, cons_append, length_cons, Nat.add_comm]
    · rintro b' cs heq hin
      cases heq
      exact hgoes hin

/-- Bytes that are cut inside a unit decode to more units than the whole. -/
theorem length_units_append_lt {xs ys : List UInt8} (h : Inside xs ys) :
    (units none (xs ++ ys)).length < (units none xs).length + (units none ys).length := by
  obtain ⟨p, hafter, b, hb, hin⟩ := h
  obtain ⟨cs, rfl⟩ : ∃ cs, ys = b :: cs := by
    cases ys with
    | nil => exact nomatch hb
    | cons c cs => exact ⟨cs, by rw [Option.some.inj hb]⟩
  have hle := (length_units_some_le p (b :: cs)).2 b cs rfl hin
  rw [units_append_eq, units_eq none xs, Option.mem_def.mp hafter, length_append,
    length_append]
  simp only [rest, length_singleton]
  omega

theorem length_units_append_le (xs ys : List UInt8) :
    (units none (xs ++ ys)).length ≤ (units none xs).length + (units none ys).length := by
  by_cases h : Inside xs ys
  · exact Nat.le_of_lt (length_units_append_lt h)
  · refine Nat.le_of_eq ?_
    rw [units_append h, length_append]

/-- Behind a cut between two units, the later cuts fall where they would if the bytes stood alone.
-/
theorem inside_append_iff {xs ys zs : List UInt8} (h : ¬Inside xs (ys ++ zs)) :
    Inside (xs ++ ys) zs ↔ Inside ys zs := by
  cases ys with
  | nil =>
    rw [append_nil]
    exact iff_of_false h fun ⟨p, hp, _⟩ => nomatch hp
  | cons b bs =>
    have hsame : after none (xs ++ b :: bs) = after none (b :: bs) := by
      rw [after_append]
      cases hafter : after none xs with
      | none => rfl
      | some p =>
        have hout : ¬p.Accepts b := fun hin => h ⟨p, hafter, b, rfl, hin⟩
        rw [after, step_of_not_accepts hout, after]
    unfold Inside
    rw [hsame]

/-! ## Text -/

/-- The character of a unit, where it is one. -/
def unitChar : List UInt8 → Option Char
  | [a] => if a.toNat < 0x80 then some (Char.ofNat a.toNat) else none
  | [a, b] =>
    if 0xC2 ≤ a.toNat ∧ a.toNat ≤ 0xDF then
      some (Char.ofNat ((a.toNat - 0xC0) * 64 + (b.toNat - 0x80)))
    else none
  | [a, b, c] =>
    if 0xE0 ≤ a.toNat ∧ a.toNat ≤ 0xEF then
      some (Char.ofNat (((a.toNat - 0xE0) * 64 + (b.toNat - 0x80)) * 64 + (c.toNat - 0x80)))
    else none
  | [a, b, c, d] =>
    some (Char.ofNat ((((a.toNat - 0xF0) * 64 + (b.toNat - 0x80)) * 64 + (c.toNat - 0x80)) * 64 +
      (d.toNat - 0x80)))
  | _ => none

/-- `String::from_utf8_lossy`. -/
def lossy (bytes : List UInt8) : List Char :=
  (units none bytes).map fun unit => (unitChar unit).getD '\uFFFD'

theorem lossy_append {xs ys : List UInt8} (h : ¬Inside xs ys) :
    lossy (xs ++ ys) = lossy xs ++ lossy ys := by
  unfold lossy
  rw [units_append h, map_append]

theorem length_lossy_flatten_le (pieces : List (List UInt8)) :
    (lossy pieces.flatten).length ≤ (pieces.map lossy).flatten.length := by
  induction pieces with
  | nil => exact Nat.le_refl 0
  | cons piece pieces ih =>
    have hle := length_units_append_le piece pieces.flatten
    rw [flatten_cons, map_cons, flatten_cons, length_append]
    simp only [lossy, length_map] at *
    omega

/-- A text that is decoded piece by piece is that of the whole exactly where no cut falls inside a
unit. -/
theorem flatten_lossy_iff (pieces : List (List UInt8)) :
    (pieces.map lossy).flatten = lossy pieces.flatten ↔
      ∀ before later, pieces = before ++ later → ¬Inside before.flatten later.flatten := by
  induction pieces with
  | nil =>
    refine iff_of_true rfl fun before later h => ?_
    obtain ⟨rfl, rfl⟩ := append_eq_nil_iff.mp h.symm
    exact by decide
  | cons piece pieces ih =>
    rw [map_cons, flatten_cons, flatten_cons]
    constructor
    · intro htext before later h
      have hcut : ¬Inside piece pieces.flatten := by
        intro hin
        have hlength := congrArg List.length htext
        have hrest := length_lossy_flatten_le pieces
        have hlt := length_units_append_lt hin
        rw [length_append] at hlength
        simp only [lossy, length_map] at *
        omega
      rw [lossy_append hcut] at htext
      have hlater := ih.mp (append_cancel_left htext)
      cases before with
      | nil => exact fun ⟨p, hp, _⟩ => nomatch hp
      | cons first before =>
        cases h
        rw [append_eq, flatten_append] at hcut
        rw [flatten_cons, inside_append_iff hcut]
        exact hlater before later rfl
    · intro hcuts
      have hcut : ¬Inside piece pieces.flatten := by
        simpa using hcuts [piece] pieces rfl
      rw [lossy_append hcut, ih.mpr fun before later h => ?_]
      have hall := hcuts (piece :: before) later (by rw [h, cons_append])
      rw [h, flatten_append] at hcut
      rwa [flatten_cons, inside_append_iff hcut] at hall

/-! ## Strict decoding -/

/-- The characters of units, or the text of the error at the first unit that is none. The last unit
may be `open`: more bytes could have made it a character. -/
def decode (isOpen : Bool) : List (List UInt8) → ℕ → Except String (List Char)
  | [], _ => .ok []
  | unit :: rest, index =>
    match unitChar unit with
    | some c => (decode isOpen rest (index + unit.length)).map (c :: ·)
    | none =>
      .error (if rest = [] ∧ isOpen then s!"incomplete utf-8 byte sequence from index {index}"
        else s!"invalid utf-8 sequence of {unit.length} bytes from index {index}")

/-- `str::from_utf8`. -/
def fromUtf8 (bytes : List UInt8) : Except String String :=
  (decode (after none bytes).isSome (units none bytes) 0).map String.ofList

/-- The first two bytes of a character, at the end and before another one. -/
example : fromUtf8 [0x61, 0xE2, 0x82] = .error "incomplete utf-8 byte sequence from index 1" ∧
    fromUtf8 [0xE2, 0x82, 0x61] = .error "invalid utf-8 sequence of 2 bytes from index 0" ∧
    lossy [0xE2, 0x82, 0x61] = ['\uFFFD', 'a'] := by decide

end Utf8
