import Oxydra.Runtime.SessionSpec

/-!
# The payments of a run's turns

An iteration of the turn loop reserves an estimate of its cost, settles what the provider reports,
and tells a listener what is left. `payTurn` is that on the ledger alone (`payTurn_of_iteration`),
and `payTurns` a sequence of turns.

The price of a token is ten micro-USD, which the code computes by a multiplication with the price of
a million, and the counters are 64-bit words. `costsExact_iff` says for which turns nothing wraps:
then the settled counter is the price of all tokens, and turns that report fewer settle less.
-/

namespace Oxydra

open List Effect

/-! ## The ledger of a run -/

/-- The items and the ledger after a turn of this estimate and this cost. -/
def BudgetLedger.payTurn (l : BudgetLedger) (estimated_cost cost : ℕ) :
    BudgetLedger × List StreamItem :=
  let l' := match l.reserve estimated_cost with
    | .ok (amount, reserved) => reserved.settle amount cost
    | .error _ => l.settle 0 cost
  (l', budgetEvents l.snapshot l'.snapshot)

/-- The items and the ledger after turns of these estimates and costs. -/
def BudgetLedger.payTurns (l : BudgetLedger) : List (ℕ × ℕ) → BudgetLedger × List StreamItem
  | [] => (l, [])
  | (estimated_cost, cost) :: turns =>
    let (l', events) := l.payTurn estimated_cost cost
    let (l'', events') := l'.payTurns turns
    (l'', events ++ events')

/-- The reservation and the settlement of an iteration are a payment. -/
theorem payTurn_of_iteration {env : RunEnv} {l : BudgetLedger} {s : RunState}
    (h : s.budget_ledger = some l) (estimated_cost cost : ℕ) :
    wp (do
        let reservation ← reserveEstimate estimated_cost
        settleCost env reservation cost)
      (fun _ t => t.budget_ledger = some (l.payTurn estimated_cost cost).1 ∧
        t.events = s.events ++
          if env.stream_events then (l.payTurn estimated_cost cost).2 else [])
      (fun _ _ => False) s := by
  obtain ⟨context, memory, next, turn, accumulated, ledger, events, trace⟩ := s
  obtain rfl : ledger = some l := h
  unfold reserveEstimate settleCost BudgetLedger.payTurn
  simp only [wp_bind, wp_get]
  cases hreserve : l.reserve estimated_cost with
  | ok out =>
    obtain ⟨amount, reserved⟩ := out
    simp only [wp_bind, wp_set, wp_pure]
    exact ⟨trivial, trivial⟩
  | error e =>
    simp only [wp_set, wp_pure]
    exact ⟨trivial, trivial⟩

section Payments

variable {l : BudgetLedger}

/-- A payment from a ledger without reservations adds the cost to the settled counter. -/
theorem payTurn_settled (hreserved : l.reserved = 0) {estimated_cost : ℕ}
    (hword : estimated_cost < U64.size) (cost : ℕ) :
    (l.payTurn estimated_cost cost).1 = { l with settled := U64.wrappingAdd l.settled cost } := by
  obtain ⟨initial, reserved, settled⟩ := l
  obtain rfl : reserved = 0 := hreserved
  unfold BudgetLedger.payTurn
  cases hreserve : BudgetLedger.reserve ⟨initial, 0, settled⟩ estimated_cost with
  | ok out =>
    obtain ⟨amount, reserved⟩ := out
    obtain ⟨rfl, rfl, -⟩ := BudgetLedger.reserve_spec hreserve
    unfold BudgetLedger.settle BudgetLedger.addSettled BudgetLedger.subReserved
    simp only [Nat.zero_add, U64.wrappingSub_of_le le_rfl hword, Nat.sub_self]
  | error e =>
    unfold BudgetLedger.settle BudgetLedger.addSettled BudgetLedger.subReserved
    simp only [U64.wrappingSub_of_le le_rfl (show 0 < U64.size by decide), Nat.sub_self]

/-- A sequence of payments adds up all costs, as words. -/
theorem payTurns_settled (hreserved : l.reserved = 0) {turns : List (ℕ × ℕ)}
    (hword : ∀ turn ∈ turns, turn.1 < U64.size) :
    (l.payTurns turns).1 =
      { l with settled := (turns.map Prod.snd).foldl U64.wrappingAdd l.settled } := by
  induction turns generalizing l with
  | nil => rfl
  | cons turn turns ih =>
    obtain ⟨hturn, hturns⟩ := forall_mem_cons.mp hword
    have hpaid := payTurn_settled hreserved hturn turn.2
    have hrest := ih (l := { l with settled := U64.wrappingAdd l.settled turn.2 }) hreserved hturns
    show ((l.payTurn turn.1 turn.2).1.payTurns turns).1 = _
    rw [hpaid, hrest]
    rfl

end Payments

/-! ## The price of tokens -/

/-- The tokens that a context is estimated at: four bytes each. -/
def contextTokens (provider_context : Context) : ℕ :=
  (provider_context.messages.filterMap fun m => m.content.map String.utf8ByteSize).sum / 4

/-- The tokens that a provider reports. -/
def reportedTokens (usage : Option UsageUpdate) : ℕ := (usage.bind UsageUpdate.total).getD 0

theorem turnCostMicrousd_eq (usage : Option UsageUpdate) :
    turnCostMicrousd usage = tokenCost (reportedTokens usage) := by
  unfold turnCostMicrousd reportedTokens
  cases usage.bind UsageUpdate.total <;> rfl

/-- Below `2^64` the product is exact, and a token costs ten micro-USD. -/
theorem tokenCost_eq_iff (tokens : ℕ) :
    tokenCost tokens = 10 * tokens ↔ tokens * defaultCostPerMTokensMicrousd < U64.size := by
  unfold tokenCost U64.wrappingMul defaultCostPerMTokensMicrousd
  have hsize : U64.size = 18446744073709551616 := by decide
  rw [hsize]
  omega

/-- What is left of a product that wraps costs less. -/
theorem tokenCost_le (tokens : ℕ) : tokenCost tokens ≤ 10 * tokens := by
  have hmod : U64.wrappingMul tokens defaultCostPerMTokensMicrousd ≤ tokens * 10000000 :=
    Nat.mod_le _ _
  unfold tokenCost
  omega

/-- A price is far from the end of `i64`. -/
theorem tokenCost_small (tokens : ℕ) : tokenCost tokens < 2^45 := by
  have hlt : U64.wrappingMul tokens defaultCostPerMTokensMicrousd < U64.size :=
    Nat.mod_lt _ (by decide)
  have hsize : U64.size = 18446744073709551616 := by decide
  unfold tokenCost
  omega

/-- The difference of two prices is exact. -/
theorem settleDiff_of_small {reserved_amount actual_cost : ℕ} (hreserved : reserved_amount < 2^45)
    (hactual : actual_cost < 2^45) :
    BudgetLedger.settleDiff reserved_amount actual_cost = reserved_amount - actual_cost := by
  have hword : ∀ n : ℕ, n < 2^45 → (n : ℤ).bmod (2^64) = n := fun n hn =>
    Int.bmod_eq_of_le (by omega) (by omega)
  unfold BudgetLedger.settleDiff
  rw [hword _ hreserved, hword _ hactual]
  exact Int.bmod_eq_of_le (by omega) (by omega)

/-! ## Turns that do not wrap -/

/-- The context and the reported usage of a turn. -/
abbrev TurnUsage := Context × Option UsageUpdate

/-- The ledger of a run with this budget after some turns. -/
def ledgerAfter (initial : ℕ) (turns : List TurnUsage) : BudgetLedger :=
  ((BudgetLedger.new initial).payTurns
    (turns.map fun turn => (estimatedCost turn.1, turnCostMicrousd turn.2))).1

/-- The tokens of all turns. -/
def totalTokens (turns : List TurnUsage) : ℕ := (turns.map fun turn => reportedTokens turn.2).sum

/-- Each estimate, each cost and each difference of the two is exact; after any number of turns the
settled counter is the price of all tokens, and nothing is reserved; and turns that report no more
tokens settle no more. -/
structure CostsExact (initial : ℕ) (turns : List TurnUsage) : Prop where
  estimates : ∀ turn ∈ turns, estimatedCost turn.1 = 10 * contextTokens turn.1
  costs : ∀ turn ∈ turns, turnCostMicrousd turn.2 = 10 * reportedTokens turn.2
  differences : ∀ turn ∈ turns, ∀ amount ∈ [0, estimatedCost turn.1],
    BudgetLedger.settleDiff amount (turnCostMicrousd turn.2) =
      (amount : ℤ) - turnCostMicrousd turn.2
  settled : ∀ k, ledgerAfter initial (turns.take k) = ⟨initial, 0, 10 * totalTokens (turns.take k)⟩
  monotone : ∀ fewer, List.Forall₂
    (fun turn turn' => reportedTokens turn.2 ≤ reportedTokens turn'.2) fewer turns →
      (ledgerAfter initial fewer).settled ≤ (ledgerAfter initial turns).settled

/-- The price of a million tokens times the tokens of each turn, and the price of all tokens, are
words. -/
def PricesFit (turns : List TurnUsage) : Prop :=
  (∀ turn ∈ turns, contextTokens turn.1 * defaultCostPerMTokensMicrousd < U64.size ∧
    reportedTokens turn.2 * defaultCostPerMTokensMicrousd < U64.size) ∧
    10 * totalTokens turns < U64.size

theorem foldl_wrappingAdd_le (costs : List ℕ) (settled : ℕ) :
    costs.foldl U64.wrappingAdd settled ≤ settled + costs.sum := by
  induction costs generalizing settled with
  | nil => exact le_refl _
  | cons cost costs ih =>
    have hle := ih (U64.wrappingAdd settled cost)
    have hwrap : U64.wrappingAdd settled cost ≤ settled + cost := Nat.mod_le _ _
    rw [foldl_cons, sum_cons]
    omega

theorem foldl_wrappingAdd_eq {costs : List ℕ} {settled : ℕ}
    (h : settled + costs.sum < U64.size) :
    costs.foldl U64.wrappingAdd settled = settled + costs.sum := by
  induction costs generalizing settled with
  | nil => rfl
  | cons cost costs ih =>
    rw [sum_cons] at h
    rw [foldl_cons, U64.wrappingAdd_of_lt (by omega), ih (by omega), sum_cons]
    omega

theorem ledgerAfter_eq (initial : ℕ) (turns : List TurnUsage) :
    ledgerAfter initial turns = ⟨initial, 0,
      (turns.map fun turn => turnCostMicrousd turn.2).foldl U64.wrappingAdd 0⟩ := by
  unfold ledgerAfter
  have hword : ∀ turn ∈ turns.map fun turn => (estimatedCost turn.1, turnCostMicrousd turn.2),
      turn.1 < U64.size := by
    intro turn hturn
    obtain ⟨turn, -, rfl⟩ := mem_map.mp hturn
    exact tokenCost_lt _
  rw [payTurns_settled rfl hword, map_map]
  rfl

/-- The costs of some turns, added up. -/
def totalCost (turns : List TurnUsage) : ℕ := (turns.map fun turn => turnCostMicrousd turn.2).sum

theorem totalCost_le (turns : List TurnUsage) : totalCost turns ≤ 10 * totalTokens turns := by
  induction turns with
  | nil => exact le_refl _
  | cons turn turns ih =>
    have hturn : turnCostMicrousd turn.2 ≤ 10 * reportedTokens turn.2 := by
      rw [turnCostMicrousd_eq]
      exact tokenCost_le _
    show turnCostMicrousd turn.2 + totalCost turns ≤
      10 * (reportedTokens turn.2 + totalTokens turns)
    omega

theorem totalCost_eq {turns : List TurnUsage}
    (h : ∀ turn ∈ turns, turnCostMicrousd turn.2 = 10 * reportedTokens turn.2) :
    totalCost turns = 10 * totalTokens turns := by
  induction turns with
  | nil => rfl
  | cons turn turns ih =>
    obtain ⟨hturn, hturns⟩ := forall_mem_cons.mp h
    have htotal := ih hturns
    show turnCostMicrousd turn.2 + totalCost turns =
      10 * (reportedTokens turn.2 + totalTokens turns)
    omega

/-- What is settled is at most the price of the tokens. -/
theorem settled_ledgerAfter_le (initial : ℕ) (turns : List TurnUsage) :
    (ledgerAfter initial turns).settled ≤ 10 * totalTokens turns := by
  rw [ledgerAfter_eq]
  have hsum := foldl_wrappingAdd_le (turns.map fun turn => turnCostMicrousd turn.2) 0
  rw [Nat.zero_add] at hsum
  exact hsum.trans (totalCost_le turns)

/-- The settled counter is a word. -/
theorem settled_ledgerAfter_lt (initial : ℕ) (turns : List TurnUsage) :
    (ledgerAfter initial turns).settled < U64.size := by
  rw [ledgerAfter_eq]
  induction turns using List.reverseRecOn with
  | nil => exact (by decide : 0 < U64.size)
  | append_singleton turns turn _ =>
    rw [map_append, foldl_append]
    exact Nat.mod_lt _ (by decide)

theorem totalTokens_le {fewer turns : List TurnUsage} (h : List.Forall₂
    (fun turn turn' => reportedTokens turn.2 ≤ reportedTokens turn'.2) fewer turns) :
    totalTokens fewer ≤ totalTokens turns := by
  induction h with
  | nil => exact le_refl _
  | cons hturn _ ih => exact Nat.add_le_add hturn ih

theorem totalTokens_take_le (turns : List TurnUsage) (k : ℕ) :
    totalTokens (turns.take k) ≤ totalTokens turns := by
  have hsplit : totalTokens (turns.take k) + totalTokens (turns.drop k) = totalTokens turns := by
    unfold totalTokens
    rw [← sum_append, ← map_append, take_append_drop]
  omega

/-- Turns whose prices fit settle the price of their tokens. -/
theorem PricesFit.ledgerAfter_take {turns : List TurnUsage} (h : PricesFit turns) (initial k : ℕ) :
    ledgerAfter initial (turns.take k) = ⟨initial, 0, 10 * totalTokens (turns.take k)⟩ := by
  have htotal : totalCost (turns.take k) = 10 * totalTokens (turns.take k) := by
    refine totalCost_eq fun turn hturn => ?_
    rw [turnCostMicrousd_eq]
    exact (tokenCost_eq_iff _).mpr (h.1 turn (mem_of_mem_take hturn)).2
  have hfit : 0 + totalCost (turns.take k) < U64.size := by
    have hle := totalTokens_take_le turns k
    have hall := h.2
    omega
  rw [ledgerAfter_eq, foldl_wrappingAdd_eq hfit]
  show (⟨initial, 0, 0 + totalCost (turns.take k)⟩ : BudgetLedger) = _
  rw [Nat.zero_add, htotal]

/-- For which turns the arithmetic of the costs is exact. -/
theorem costsExact_iff (initial : ℕ) (turns : List TurnUsage) :
    CostsExact initial turns ↔ PricesFit turns := by
  constructor
  · intro hexact
    refine ⟨fun turn hturn => ⟨?_, ?_⟩, ?_⟩
    · exact (tokenCost_eq_iff _).mp (hexact.estimates turn hturn)
    · have hcost := hexact.costs turn hturn
      rw [turnCostMicrousd_eq] at hcost
      exact (tokenCost_eq_iff _).mp hcost
    · -- The settled counter after all turns is a word.
      have hall := hexact.settled turns.length
      have hword := settled_ledgerAfter_lt initial (turns.take turns.length)
      rw [hall, take_length] at hword
      exact hword
  · intro hfit
    have hall : ledgerAfter initial turns = ⟨initial, 0, 10 * totalTokens turns⟩ := by
      have htake := hfit.ledgerAfter_take initial turns.length
      rwa [take_length] at htake
    refine ⟨fun turn hturn => ?_, fun turn hturn => ?_, fun turn hturn amount hamount => ?_,
      hfit.ledgerAfter_take initial, fun fewer hfewer => ?_⟩
    · exact (tokenCost_eq_iff _).mpr (hfit.1 turn hturn).1
    · rw [turnCostMicrousd_eq]
      exact (tokenCost_eq_iff _).mpr (hfit.1 turn hturn).2
    · have hsmall : amount < 2^45 := by
        rcases mem_pair.mp hamount with rfl | rfl
        · decide
        · exact tokenCost_small _
      rw [turnCostMicrousd_eq]
      exact settleDiff_of_small hsmall (tokenCost_small _)
    · have hless := settled_ledgerAfter_le initial fewer
      have htokens := totalTokens_le hfewer
      rw [hall]
      show _ ≤ 10 * totalTokens turns
      omega

/-- A turn that reports this many tokens. -/
def reporting (tokens : ℕ) : TurnUsage :=
  (⟨"provider", "model", [], []⟩, some ⟨none, none, some tokens⟩)

/-- The product of 1844674407371 tokens wraps, and the turn costs less than one of a single token.
-/
theorem wrappedUsage_not_exact :
    (ledgerAfter 1000 [reporting 1844674407371]).settled = 0 ∧
      (ledgerAfter 1000 [reporting 1]).settled = 10 ∧
      ¬ CostsExact 1000 [reporting 1844674407371] := by
  refine ⟨by decide, by decide, fun hexact => ?_⟩
  exact absurd (hexact.costs _ (mem_singleton.mpr rfl)) (by decide)

end Oxydra
