import Oxydra.Library.Interleaving
import Oxydra.Runtime.BudgetLedger
import Mathlib.Tactic.Linarith

/-!
# The atomic steps of a root ledger under any interleaving

`try_reserve`, `settle`, and `cancel_reservation` of `crates/runtime/src/budget_ledger.rs`, one
atomic operation a step: the two loads and the compare-exchange of a reservation, the `fetch_add`
and then the `fetch_sub` of a settlement, and the `fetch_sub` of a cancelled or dropped reservation.
Any number of clients share one ledger, and each holds the reservations that it was granted.

`reserved_accounted` says what every interleaving keeps: the reserved counter is the sum of the
outstanding reservations and of those that a settlement has charged and not yet given back. That
settled and outstanding amounts together stay within the budget is not kept: the compare-exchange
looks at the reserved counter only, so it also succeeds when that counter has left the loaded value
and come back while a settlement ran from end to end (`reservation_overcommits`). It is kept in the
runs in which no settlement completes between a client's load of the settled counter and its
successful compare-exchange (`reservations_within_budget`).
-/

namespace Oxydra

open Option Lts
open scoped BigOperators

/-- Where a client is between two atomic steps. -/
inductive ClientPhase where
  /-- Between operations. -/
  | idle
  /-- In `try_reserve`, before the load of the reserved counter, at first or after a failed
  compare-exchange. -/
  | reserving (amount : ℕ)
  /-- In `try_reserve`, after that load. -/
  | loadedReserved (amount reserved : ℕ)
  /-- In `try_reserve`, after the load of the settled counter too. -/
  | loadedBoth (amount reserved settled : ℕ)
  /-- In `settle`, after the `fetch_add` of the cost and before the `fetch_sub` of the amount. -/
  | settling (amount : ℕ)
  deriving DecidableEq, Repr

/-- A client, with the amounts of the reservations that it holds. -/
structure Client where
  phase : ClientPhase := .idle
  held : List ℕ := []
  deriving DecidableEq, Repr

/-- What a client may do next. -/
inductive ClientAction where
  /-- Call `reserve`. -/
  | reserve (amount : ℕ)
  | loadReserved
  | loadSettled
  /-- The branch of `try_reserve` on the loaded values: give up, or compare and exchange. -/
  | compareExchange
  /-- Call `settle` on a held reservation: the `fetch_add` of its cost. -/
  | settle (amount cost : ℕ)
  /-- The `fetch_sub` that ends a settlement. -/
  | giveBack
  /-- Cancel or drop a held reservation: one `fetch_sub`. -/
  | cancel (amount : ℕ)
  deriving DecidableEq, Repr

/-- One atomic step of one client on the shared counters, if the client can take it. -/
def clientStep (l : BudgetLedger) (c : Client) : ClientAction → Option (BudgetLedger × Client)
  | .reserve amount =>
    match c.phase with
    | .idle =>
      -- a zero reservation is granted without touching a counter
      if amount = 0 then some (l, { c with held := 0 :: c.held })
      else some (l, { c with phase := .reserving amount })
    | _ => none
  | .loadReserved =>
    match c.phase with
    | .reserving amount => some (l, { c with phase := .loadedReserved amount l.reserved })
    | _ => none
  | .loadSettled =>
    match c.phase with
    | .loadedReserved amount r => some (l, { c with phase := .loadedBoth amount r l.settled })
    | _ => none
  | .compareExchange =>
    match c.phase with
    | .loadedBoth amount r s =>
      if l.initial - r - s < amount then some (l, { c with phase := .idle })
      else if l.reserved = r then
        some ({ l with reserved := r + amount }, { phase := .idle, held := amount :: c.held })
      else some (l, { c with phase := .reserving amount })
    | _ => none
  | .settle amount cost =>
    match c.phase with
    | .idle =>
      if amount ∈ c.held then
        some (l.addSettled cost, { phase := .settling amount, held := c.held.erase amount })
      else none
    | _ => none
  | .giveBack =>
    match c.phase with
    | .settling amount => some (l.subReserved amount, { c with phase := .idle })
    | _ => none
  | .cancel amount =>
    match c.phase with
    | .idle =>
      if amount ∈ c.held then some (l.subReserved amount, { c with held := c.held.erase amount })
      else none
    | _ => none

/-- All interleavings of the clients `ι` on a fresh root ledger with the budget `initial`. -/
def ledgerSystem (ι : Type) [DecidableEq ι] (initial : ℕ) :
    System (Threads ι BudgetLedger Client) (ι × ClientAction) :=
  interleave (fun s => s = ⟨BudgetLedger.new initial, fun _ => {}⟩) clientStep

/-- The actions of clients that settle no more than they reserved. -/
def SettlesWithin {ι : Type} : ι × ClientAction → Prop
  | (_, .settle amount cost) => cost ≤ amount
  | _ => True

instance {ι : Type} : DecidablePred (SettlesWithin (ι := ι))
  | (_, .settle amount cost) => inferInstanceAs (Decidable (cost ≤ amount))
  | (_, .reserve _) | (_, .loadReserved) | (_, .loadSettled) | (_, .compareExchange)
  | (_, .giveBack) | (_, .cancel _) => inferInstanceAs (Decidable True)

/-- The amount that a client has charged and not yet given back. -/
def Client.midway (c : Client) : ℕ :=
  match c.phase with
  | .settling amount => amount
  | _ => 0

section Totals

variable {ι : Type} [Fintype ι]

/-- The sum of the outstanding reservations. -/
def outstanding (s : Threads ι BudgetLedger Client) : ℕ := ∑ i, (s.threads i).held.sum

/-- The sum of the reservations in the middle of a settlement. -/
def midSettlement (s : Threads ι BudgetLedger Client) : ℕ := ∑ i, (s.threads i).midway

end Totals

section Fresh

variable {ι : Type} [Fintype ι]

/-- The steps in which no compare-exchange succeeds on a stale settled counter: when it succeeds,
the settled counter has grown since the client loaded it by no more than the reservations that are
still in the middle of their settlement. -/
def FreshSettled (s : Threads ι BudgetLedger Client) : ι × ClientAction → Prop
  | (i, .compareExchange) =>
    match (s.threads i).phase with
    | .loadedBoth amount reserved settled =>
      s.shared.reserved = reserved → amount ≤ s.shared.initial - reserved - settled →
        s.shared.settled ≤ settled + midSettlement s
    | _ => True
  | _ => True

instance (s : Threads ι BudgetLedger Client) : DecidablePred (FreshSettled s)
  | (i, .compareExchange) =>
    match h : (s.threads i).phase with
    | .loadedBoth amount reserved settled =>
      decidable_of_iff (s.shared.reserved = reserved →
        amount ≤ s.shared.initial - reserved - settled →
          s.shared.settled ≤ settled + midSettlement s) (by simp only [FreshSettled, h])
    | .idle | .reserving _ | .loadedReserved _ _ | .settling _ =>
      isTrue (by simp only [FreshSettled, h])
  | (_, .settle _ _) | (_, .reserve _) | (_, .loadReserved) | (_, .loadSettled) | (_, .giveBack)
  | (_, .cancel _) => isTrue trivial

end Fresh

/-- What every interleaving keeps: the reserved counter accounts for every reservation, and stays
within the budget. -/
structure Accounted {ι : Type} [Fintype ι] (initial : ℕ)
    (s : Threads ι BudgetLedger Client) : Prop where
  initial_eq : s.shared.initial = initial
  reserved_eq : s.shared.reserved = outstanding s + midSettlement s
  reserved_le : s.shared.reserved ≤ initial

/-- The reservation safety of one state: the reserved counter is the sum of the outstanding
reservations when no operation is midway, no pending `fetch_sub` underflows it, and settled and
outstanding amounts together are within the budget. -/
structure ReservationSafe {ι : Type} [Fintype ι] (initial : ℕ)
    (s : Threads ι BudgetLedger Client) : Prop where
  quiescent : (∀ i, (s.threads i).phase = .idle) → s.shared.reserved = outstanding s
  no_underflow : ∀ i amount, (s.threads i).phase = .settling amount ∨ amount ∈ (s.threads i).held →
    amount ≤ s.shared.reserved
  within_budget : s.shared.settled + outstanding s ≤ initial

/-- What one atomic step does to the counters and to what its client holds. -/
theorem clientStep_effect {l l' : BudgetLedger} {c c' : Client} {a : ClientAction}
    (h : clientStep l c a = some (l', c')) :
    -- a step that moves no amount: a call of `reserve`, a load, a refusal, a retry
    (l' = l ∧ c'.held.sum = c.held.sum ∧ c'.midway = c.midway) ∨
    -- a successful compare-exchange
    (∃ amount settled, a = .compareExchange ∧ c.phase = .loadedBoth amount l.reserved settled ∧
      amount ≤ l.initial - l.reserved - settled ∧ l' = { l with reserved := l.reserved + amount } ∧
      c'.held.sum = c.held.sum + amount ∧ c.midway = 0 ∧ c'.midway = 0) ∨
    -- the charge of a settlement
    (∃ amount cost, a = .settle amount cost ∧ l' = l.addSettled cost ∧
      c'.held.sum + amount = c.held.sum ∧ c.midway = 0 ∧ c'.midway = amount) ∨
    -- a reservation given back, by the end of a settlement or by a cancellation
    (∃ amount, l' = l.subReserved amount ∧ c'.held.sum ≤ c.held.sum ∧ c'.midway ≤ c.midway ∧
      c'.held.sum + c'.midway + amount = c.held.sum + c.midway) := by
  obtain ⟨phase, held⟩ := c
  cases a with
  | reserve amount =>
    cases phase <;> simp only [clientStep, reduceCtorEq] at h
    split_ifs at h <;> simp only [some.injEq, Prod.mk.injEq] at h <;>
      obtain ⟨rfl, rfl⟩ := h <;> left <;> simp [Client.midway]
  | loadReserved =>
    cases phase <;> simp only [clientStep, reduceCtorEq, some.injEq, Prod.mk.injEq] at h
    obtain ⟨rfl, rfl⟩ := h
    exact Or.inl ⟨rfl, rfl, rfl⟩
  | loadSettled =>
    cases phase <;> simp only [clientStep, reduceCtorEq, some.injEq, Prod.mk.injEq] at h
    obtain ⟨rfl, rfl⟩ := h
    exact Or.inl ⟨rfl, rfl, rfl⟩
  | compareExchange =>
    cases phase <;> simp only [clientStep, reduceCtorEq] at h
    split_ifs at h with hfits heq <;> simp only [some.injEq, Prod.mk.injEq] at h <;>
      obtain ⟨rfl, rfl⟩ := h
    · exact Or.inl ⟨rfl, rfl, rfl⟩
    · subst heq
      refine Or.inr (Or.inl ⟨_, _, rfl, rfl, by omega, rfl, ?_, rfl, rfl⟩)
      simp only [List.sum_cons]
      omega
    · exact Or.inl ⟨rfl, rfl, rfl⟩
  | settle amount cost =>
    cases phase <;> simp only [clientStep, reduceCtorEq] at h
    split_ifs at h with hmem
    simp only [some.injEq, Prod.mk.injEq] at h
    obtain ⟨rfl, rfl⟩ := h
    refine Or.inr (Or.inr (Or.inl ⟨amount, cost, rfl, rfl, ?_, rfl, rfl⟩))
    have := List.sum_erase hmem
    simp only
    omega
  | giveBack =>
    cases phase <;> simp only [clientStep, reduceCtorEq, some.injEq, Prod.mk.injEq] at h
    obtain ⟨rfl, rfl⟩ := h
    refine Or.inr (Or.inr (Or.inr ⟨_, rfl, le_refl _, ?_, ?_⟩)) <;> simp [Client.midway]
  | cancel amount =>
    cases phase <;> simp only [clientStep, reduceCtorEq] at h
    split_ifs at h with hmem
    simp only [some.injEq, Prod.mk.injEq] at h
    obtain ⟨rfl, rfl⟩ := h
    have := List.sum_erase hmem
    refine Or.inr (Or.inr (Or.inr ⟨amount, rfl, ?_, le_refl _, ?_⟩)) <;> simp only [Client.midway]
    · omega
    · omega

section Steps

variable {ι : Type} [Fintype ι] [DecidableEq ι] {initial : ℕ}
  {s t : Threads ι BudgetLedger Client} {l : ι × ClientAction}

/-- How the two totals move when one client steps. -/
theorem totals_update (s : Threads ι BudgetLedger Client) (g : BudgetLedger) (i : ι) (c : Client) :
    outstanding ⟨g, Function.update s.threads i c⟩ + (s.threads i).held.sum =
        outstanding s + c.held.sum ∧
      midSettlement ⟨g, Function.update s.threads i c⟩ + (s.threads i).midway =
        midSettlement s + c.midway :=
  ⟨sum_update (fun c => c.held.sum) s.threads i c, sum_update Client.midway s.threads i c⟩

omit [DecidableEq ι] in
/-- What one client holds, and has midway, is part of the totals. -/
theorem client_le_totals (s : Threads ι BudgetLedger Client) (i : ι) :
    (s.threads i).held.sum ≤ outstanding s ∧ (s.threads i).midway ≤ midSettlement s :=
  ⟨le_sum (fun c => c.held.sum) s.threads i, le_sum Client.midway s.threads i⟩

/-- Every atomic step keeps the reserved counter's account. -/
theorem accounted_step (hi : initial < U64.size) (h : Accounted initial s)
    (hst : (ledgerSystem ι initial).step s l t) : Accounted initial t := by
  obtain ⟨i, a⟩ := l
  obtain ⟨g, c, hstep, rfl⟩ := interleave_step hst
  obtain ⟨hout, hmid⟩ := totals_update s g i c
  obtain ⟨hle, hle'⟩ := client_le_totals s i
  obtain ⟨h1, h2, h3⟩ := h
  rcases clientStep_effect hstep with ⟨rfl, he, he'⟩ | ⟨amount, settled, rfl, -, hfit, rfl, he, he',
    he''⟩ | ⟨amount, cost, rfl, rfl, he, he', he''⟩ | ⟨amount, rfl, he, he', he''⟩
  · exact ⟨h1, by simp only; omega, h3⟩
  · exact ⟨h1, by simp only; omega, by simp only; omega⟩
  · exact ⟨h1, by simp only [BudgetLedger.addSettled_reserved]; omega, h3⟩
  · -- what is given back is still in the counter, so the `fetch_sub` does not wrap
    have hback : (s.shared.subReserved amount).reserved = s.shared.reserved - amount :=
      U64.wrappingSub_of_le (by omega) (by omega)
    refine ⟨h1, ?_, ?_⟩ <;> simp only [hback] <;> omega

/-- Under every interleaving, whatever the clients settle, the reserved counter is the sum of the
reservations that are outstanding or midway, and within the budget. -/
theorem reserved_accounted (hi : initial < U64.size) (h : (ledgerSystem ι initial).Reach s) :
    Accounted initial s := by
  refine System.ReachWithin.invariant ?_ (fun _ _ _ hs _ hst => accounted_step hi hs hst) h
  intro s hs
  obtain rfl : s = _ := hs
  exact ⟨rfl, by simp [outstanding, midSettlement, Client.midway], Nat.zero_le _⟩

/-- A step of a client that settles within its reservation, and that does not reserve on a stale
settled counter, keeps settled and outstanding amounts within the budget. -/
theorem within_budget_step (hi : initial < U64.size) (h : Accounted initial s)
    (hw : s.shared.settled + outstanding s ≤ initial) (hl : SettlesWithin l)
    (hf : FreshSettled s l) (hst : (ledgerSystem ι initial).step s l t) :
    t.shared.settled + outstanding t ≤ initial := by
  obtain ⟨i, a⟩ := l
  obtain ⟨g, c, hstep, rfl⟩ := interleave_step hst
  obtain ⟨hout, -⟩ := totals_update s g i c
  obtain ⟨hle, -⟩ := client_le_totals s i
  obtain ⟨h1, h2, h3⟩ := h
  rcases clientStep_effect hstep with ⟨rfl, he, he'⟩ | ⟨amount, settled, rfl, hphase, hfit, rfl, he,
    -, -⟩ | ⟨amount, cost, rfl, rfl, he, -, -⟩ | ⟨amount, rfl, he, -, -⟩
  · simp only
    omega
  · -- the loaded settled counter misses only what is still midway, which is reserved
    have hstale : s.shared.settled ≤ settled + midSettlement s := by
      simp only [FreshSettled, hphase] at hf
      exact hf trivial hfit
    simp only
    omega
  · -- the settled counter takes no more than the reservation that ends
    have hcost : cost ≤ amount := hl
    have hadd : (s.shared.addSettled cost).settled = s.shared.settled + cost :=
      U64.wrappingAdd_of_lt (by omega)
    simp only [hadd]
    omega
  · simp only [BudgetLedger.subReserved_settled]
    omega

omit [DecidableEq ι] in
/-- A state whose reserved counter is accounted for and within the budget is safe. -/
theorem Accounted.reservationSafe (h : Accounted initial s)
    (hw : s.shared.settled + outstanding s ≤ initial) : ReservationSafe initial s := by
  refine ⟨fun hidle => ?_, fun i amount hamount => ?_, hw⟩
  · have hmid : midSettlement s = 0 :=
      Finset.sum_eq_zero fun i _ => by rw [Client.midway, hidle i]
    rw [h.reserved_eq, hmid, Nat.add_zero]
  · obtain ⟨hle, hle'⟩ := client_le_totals s i
    have hres := h.reserved_eq
    rcases hamount with hphase | hmem
    · rw [Client.midway, hphase] at hle'
      simp only at hle'
      omega
    · have := List.le_sum_of_mem hmem
      omega

/-- Reservation safety of a root ledger, for any number of clients and any interleaving of their
atomic steps in which each settlement is within its reservation and no compare-exchange succeeds on
a stale settled counter. -/
theorem reservations_within_budget (hi : initial < U64.size)
    (h : (ledgerSystem ι initial).ReachWithin (fun s l => SettlesWithin l ∧ FreshSettled s l) s) :
    ReservationSafe initial s := by
  induction h with
  | init hs =>
    refine (reserved_accounted hi (.init hs)).reservationSafe ?_
    obtain rfl : _ = _ := hs
    simp [outstanding]
  | step hs hg hst ih =>
    have ha := reserved_accounted hi hs.reach
    exact (accounted_step hi ha hst).reservationSafe
      (within_budget_step hi ha ih.within_budget hg.1 hg.2 hst)

end Steps

/-- The schedule of one client that reserves 60 of 100 and settles it at 40, beside an idle one. -/
def reserveThenSettle : List (Fin 2 × ClientAction) :=
  [(0, .reserve 60), (0, .loadReserved), (0, .loadSettled), (0, .compareExchange),
    (0, .settle 60 40), (0, .giveBack)]

/-- The run of that schedule meets the guard to its end, and is safe there. -/
theorem reserveThenSettle_within_budget :
    ∃ s, (ledgerSystem (Fin 2) 100).ReachWithin (fun s l => SettlesWithin l ∧ FreshSettled s l) s ∧
      s.shared = ⟨100, 0, 40⟩ ∧ ReservationSafe 100 s := by
  obtain ⟨s, hs, hshared⟩ : ∃ s ∈ exec (fun s l => SettlesWithin l ∧ FreshSettled s l)
      (threadStep clientStep)      ⟨BudgetLedger.new 100, fun _ : Fin 2 => {}⟩ reserveThenSettle,
      s.shared = ⟨100, 0, 40⟩ := by decide
  have hreach : (ledgerSystem (Fin 2) 100).ReachWithin _ s := reachWithin_exec (.init rfl) hs
  exact ⟨s, hreach, hshared, reservations_within_budget (by decide) hreach⟩

/-- A schedule on a budget of 100 in which client 1 loads both counters while client 0 holds 50,
client 0 then settles all of it, and client 2 reserves 50: the reserved counter is back at the value
that client 1 loaded, so its compare-exchange for 50 more succeeds. -/
def settledBetweenLoadAndExchange : List (Fin 3 × ClientAction) :=
  [(0, .reserve 50), (0, .loadReserved), (0, .loadSettled), (0, .compareExchange),
    (1, .reserve 50), (1, .loadReserved), (1, .loadSettled),
    (0, .settle 50 50), (0, .giveBack),
    (2, .reserve 50), (2, .loadReserved), (2, .loadSettled), (2, .compareExchange),
    (1, .compareExchange)]

/-- Clients that never settle more than they reserved can still overcommit the budget: 50 are
settled and 100 are outstanding on a budget of 100. -/
theorem reservation_overcommits :
    ∃ s, (ledgerSystem (Fin 3) 100).ReachWithin (fun _ l => SettlesWithin l) s ∧
      s.shared.settled = 50 ∧ outstanding s = 100 ∧ ¬ReservationSafe 100 s := by
  obtain ⟨s, hs, hsettled, hout⟩ : ∃ s ∈ exec (fun _ l => SettlesWithin l) (threadStep clientStep)
      ⟨BudgetLedger.new 100, fun _ : Fin 3 => {}⟩ settledBetweenLoadAndExchange,
      s.shared.settled = 50 ∧ outstanding s = 100 := by decide
  refine ⟨s, reachWithin_exec (.init rfl) hs, hsettled, hout, fun hsafe => ?_⟩
  have := hsafe.within_budget
  omega

end Oxydra
