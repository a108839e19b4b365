import Oxydra.Library.Word

/-!
# The budget ledger

`BudgetLedger` of `crates/runtime/src/budget_ledger.rs`, as its counters: the initial budget, the
amount reserved for pending provider calls, and the amount settled. The counters are `AtomicU64`s,
so `fetch_add` and `fetch_sub` wrap; reads of what remains saturate. Each operation here is one
whole call; `Runtime/LedgerInterleaving.lean` takes them apart into their atomic steps, and
`Runtime/LedgerTree.lean` adds the parent and child ledgers.
-/

namespace Oxydra

/-- `BudgetExhausted`: a reservation that did not fit. -/
structure BudgetExhausted where
  requested : ℕ
  remaining : ℕ
  deriving DecidableEq, Repr

structure BudgetSnapshot where
  initial : ℕ
  reserved : ℕ
  settled : ℕ
  remaining : ℕ
  deriving DecidableEq, Repr

/-- The counters of a `BudgetLedgerInner`, in micro-USD. -/
structure BudgetLedger where
  initial : ℕ
  reserved : ℕ
  settled : ℕ
  deriving DecidableEq, Repr

namespace BudgetLedger

/-- `BudgetLedger::new`. -/
def new (initial : ℕ) : BudgetLedger := ⟨initial, 0, 0⟩

section

variable (l : BudgetLedger)

/-- `remaining`: two saturating subtractions, as the subtraction of natural numbers is. -/
def remaining : ℕ := l.initial - l.reserved - l.settled

/-- `snapshot`. -/
def snapshot : BudgetSnapshot :=
  ⟨l.initial, l.reserved, l.settled, l.remaining⟩

/-- `is_exhausted`. -/
def isExhausted : Bool := l.remaining == 0

/-- `settled.fetch_add`. -/
def addSettled (n : ℕ) : BudgetLedger :=
  { l with settled := U64.wrappingAdd l.settled n }

/-- `settled.fetch_sub`. -/
def subSettled (n : ℕ) : BudgetLedger :=
  { l with settled := U64.wrappingSub l.settled n }

/-- `reserved.fetch_sub`. -/
def subReserved (n : ℕ) : BudgetLedger :=
  { l with reserved := U64.wrappingSub l.reserved n }

/-- `try_reserve`, with no other client between its reads and its compare-exchange. -/
def tryReserve (amount : ℕ) : Option BudgetLedger :=
  if l.remaining < amount then none else some { l with reserved := l.reserved + amount }

/-- `reserve`: the amount of the reservation and the new counters. A zero reservation always
succeeds and touches no counter. -/
def reserve (estimated_cost : ℕ) :
    Except BudgetExhausted (ℕ × BudgetLedger) :=
  if estimated_cost = 0 then .ok (0, l)
  else
    match l.tryReserve estimated_cost with
    | some l' => .ok (estimated_cost, l')
    | none => .error ⟨estimated_cost, l.remaining⟩

/-- `settle`: the actual cost is settled first, then the reservation is given back. -/
def settle (reserved_amount actual_cost : ℕ) : BudgetLedger :=
  (l.addSettled actual_cost).subReserved reserved_amount

end

/-- The difference that `settle` returns, in `i64` arithmetic. -/
def settleDiff (reserved_amount actual_cost : ℕ) : ℤ :=
  ((reserved_amount : ℤ).bmod (2^64) - (actual_cost : ℤ).bmod (2^64)).bmod (2^64)

@[simp] theorem new_initial (b : ℕ) : (new b).initial = b := rfl
@[simp] theorem new_reserved (b : ℕ) : (new b).reserved = 0 := rfl
@[simp] theorem new_settled (b : ℕ) : (new b).settled = 0 := rfl

section

variable (l : BudgetLedger) (n : ℕ)

@[simp] theorem addSettled_initial :
    (l.addSettled n).initial = l.initial := rfl
@[simp] theorem addSettled_reserved :
    (l.addSettled n).reserved = l.reserved := rfl
@[simp] theorem subSettled_initial :
    (l.subSettled n).initial = l.initial := rfl
@[simp] theorem subSettled_reserved :
    (l.subSettled n).reserved = l.reserved := rfl
@[simp] theorem subReserved_initial :
    (l.subReserved n).initial = l.initial := rfl
@[simp] theorem subReserved_settled :
    (l.subReserved n).settled = l.settled := rfl

end

/-- A ledger is exhausted when its counters together reach the initial budget. -/
theorem isExhausted_iff (l : BudgetLedger) :
    l.isExhausted = true ↔ l.initial ≤ l.reserved + l.settled := by
  unfold isExhausted remaining
  rw [beq_iff_eq]
  omega

/-- A reservation that succeeds adds its amount to the reserved counter and leaves the rest, and
the reserved counter stays within the initial budget. -/
theorem reserve_spec {l l' : BudgetLedger} {n r : ℕ} (h : l.reserve n = .ok (r, l')) :
    r = n ∧ l' = { l with reserved := l.reserved + n } ∧ (n = 0 ∨ l.reserved + n ≤ l.initial) := by
  unfold reserve tryReserve remaining at h
  split_ifs at h with h0 hr
  · simp only [Except.ok.injEq, Prod.mk.injEq] at h
    obtain ⟨rfl, rfl⟩ := h
    subst h0
    exact ⟨rfl, rfl, Or.inl rfl⟩
  · simp only [Except.ok.injEq, Prod.mk.injEq] at h
    obtain ⟨rfl, rfl⟩ := h
    exact ⟨rfl, rfl, Or.inr (by omega)⟩

end BudgetLedger

end Oxydra
