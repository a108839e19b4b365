import Oxydra.Library.Forest
import Oxydra.Library.Lts
import Oxydra.Runtime.BudgetLedger

/-!
# Trees of budget ledgers

The public operations of `crates/runtime/src/budget_ledger.rs` on a root ledger and the ledgers that
`create_child` makes below it, in any order. Beside the counters, the state records what the
counters are meant to say: the spend that each ledger settled itself, which children were released,
and whether a counter has ever wrapped.

`Conserved` is the law of such a tree: a ledger's settled counter is its own spend, and for each
child its allocation, or its subtree's spend once it is released. `release_unused` keeps no mark
that a child was released, and `force_settle` charges the parent of a child for money that the
parent has already set aside, so the law breaks (`second_release_wraps`). `Sound` says of each
operation when it keeps the law; `ledgerTree_conserved` is the law for every run of such operations.
-/

namespace Oxydra

open Option Function Lts
open scoped BigOperators

/-- A root ledger, with every ledger created below it. -/
structure LedgerTree where
  /-- Which ledger is whose parent; the root is node 0. -/
  forest : Forest
  ledger : ℕ → BudgetLedger
  /-- The amounts of the live reservations of each ledger. -/
  reservations : ℕ → List ℕ
  /-- What each ledger has settled itself, by a reservation or by force. -/
  own : ℕ → ℕ
  /-- The children whose unused allocation was released. -/
  released : ℕ → Bool
  /-- Whether an operation has wrapped a counter. -/
  wrapped : Bool

/-- The public operations, each on the ledger with the index `i`. -/
inductive LedgerOp where
  | reserve (i estimated_cost : ℕ)
  /-- Settle a live reservation. -/
  | settle (i amount actual_cost : ℕ)
  /-- Cancel or drop a live reservation. -/
  | cancel (i amount : ℕ)
  | createChild (i allocation : ℕ)
  | releaseUnused (i : ℕ)
  | forceSettle (i cost : ℕ)
  deriving DecidableEq, Repr

namespace LedgerTree

/-- A fresh root ledger. -/
def root (initial : ℕ) : LedgerTree where
  forest := .root
  ledger := update (fun _ => .new 0) 0 (.new initial)
  reservations _ := []
  own _ := 0
  released _ := false
  wrapped := false

section

variable (s : LedgerTree)

/-- `settled.fetch_add` on the ledger `i`. -/
def addSettled (i n : ℕ) : LedgerTree :=
  { s with
    ledger := update s.ledger i ((s.ledger i).addSettled n)
    wrapped := s.wrapped || decide (U64.size ≤ (s.ledger i).settled + n) }

/-- `settled.fetch_sub` on the ledger `i`. -/
def subSettled (i n : ℕ) : LedgerTree :=
  { s with
    ledger := update s.ledger i ((s.ledger i).subSettled n)
    wrapped := s.wrapped || decide ((s.ledger i).settled < n) }

/-- A cost that the ledger `i` settles itself. -/
def spend (i n : ℕ) : LedgerTree :=
  { s.addSettled i n with own := update s.own i (s.own i + n) }

/-- The `reserved.fetch_sub` that ends a live reservation. -/
def giveBack (i amount : ℕ) : LedgerTree :=
  { s with
    ledger := update s.ledger i ((s.ledger i).subReserved amount)
    reservations := update s.reservations i ((s.reservations i).erase amount)
    wrapped := s.wrapped || decide ((s.ledger i).reserved < amount) }

/-- `reserve`: a refused reservation changes nothing. -/
def reserve (i estimated_cost : ℕ) : LedgerTree :=
  match (s.ledger i).reserve estimated_cost with
  | .ok (amount, l) =>
    { s with
      ledger := update s.ledger i l
      reservations := update s.reservations i (amount :: s.reservations i) }
  | .error _ => s

/-- `create_child`: a refused allocation changes nothing. -/
def createChild (i allocation : ℕ) (hi : i < s.forest.size) : LedgerTree :=
  if (s.ledger i).remaining < allocation then s
  else
    let t := s.addSettled i allocation
    { t with
      forest := s.forest.push i hi
      ledger := update t.ledger s.forest.size (.new allocation)
      reservations := update s.reservations s.forest.size []
      own := update s.own s.forest.size 0
      released := update s.released s.forest.size false }

/-- `release_unused`: nothing on a root; else the unspent part of the allocation leaves the parent's
settled counter, as often as it is called. -/
def releaseUnused (i : ℕ) : LedgerTree :=
  match s.forest.parent i with
  | none => s
  | some p =>
    let unused := (s.ledger i).initial - (s.ledger i).settled
    let t := if 0 < unused then s.subSettled p unused else s
    { t with released := update s.released i true }

/-- What `force_settle` deducts. -/
def forced (i cost : ℕ) : ℕ := min cost (s.ledger i).remaining

/-- `force_settle`: the ledger is charged, and then its parent. -/
def forceSettle (i cost : ℕ) : LedgerTree :=
  let t := s.spend i (s.forced i cost)
  match s.forest.parent i with
  | none => t
  | some p => t.addSettled p (s.forced i cost)

/-- One operation, if its ledger exists and its reservation is live. -/
def step : LedgerOp → Option LedgerTree
  | .reserve i estimated_cost =>
    if i < s.forest.size then some (s.reserve i estimated_cost) else none
  | .settle i amount actual_cost =>
    if i < s.forest.size ∧ amount ∈ s.reservations i then
      some ((s.spend i actual_cost).giveBack i amount)
    else none
  | .cancel i amount =>
    if i < s.forest.size ∧ amount ∈ s.reservations i then some (s.giveBack i amount) else none
  | .createChild i allocation =>
    if hi : i < s.forest.size then some (s.createChild i allocation hi) else none
  | .releaseUnused i => if i < s.forest.size then some (s.releaseUnused i) else none
  | .forceSettle i cost => if i < s.forest.size then some (s.forceSettle i cost) else none

/-- What a child stands for in its parent's settled counter: its allocation, or the spend of its
subtree once it is released. -/
def charged (c : ℕ) : ℕ :=
  if s.released c then s.forest.subtotal s.own c else (s.ledger c).initial

end

/-- The conservation law of a ledger tree. -/
structure Conserved (s : LedgerTree) : Prop where
  /-- No counter has wrapped. -/
  no_wrap : s.wrapped = false
  /-- A settled counter is the ledger's own spend, and what its children stand for. -/
  settled_eq : ∀ i, (s.ledger i).settled = s.own i + s.forest.childTotal s.charged i
  /-- Once the root's children are released, the root counts every spend of the tree once. -/
  root_once : (∀ c, s.forest.parent c = some 0 → s.released c = true) →
    (s.ledger 0).settled = ∑ j ∈ Finset.range s.forest.size, s.own j

/-- The operations that keep the law: a settlement overflows nothing and is on no ledger that is, or
is below, a released one; a child is first released when its counter, up to its allocation, is the
spend of its subtree, and again only when nothing is unused; and a forced settlement deducts
nothing, or is on the root, or is on a released child below no released ledger. -/
def Sound (s : LedgerTree) : LedgerOp → Prop
  | .settle i _ actual_cost =>
    (s.ledger i).settled + actual_cost < U64.size ∧
      (actual_cost = 0 ∨ ∀ c ∈ i :: s.forest.ancestors i, s.released c = false)
  | .releaseUnused i =>
    s.forest.parent i = none ∨
      (s.released i = false ∧
        min (s.ledger i).initial (s.ledger i).settled = s.forest.subtotal s.own i) ∨
      (s.released i = true ∧ (s.ledger i).initial ≤ (s.ledger i).settled)
  | .forceSettle i cost =>
    s.forced i cost = 0 ∨ s.forest.parent i = none ∨
      (s.released i = true ∧ (∀ a ∈ s.forest.ancestors i, s.released a = false) ∧
        ∀ p ∈ s.forest.parent i, (s.ledger p).settled + s.forced i cost < U64.size)
  | _ => True

instance (s : LedgerTree) : DecidablePred s.Sound
  | .settle _ _ _ => inferInstanceAs (Decidable (_ ∧ _))
  | .releaseUnused _ => inferInstanceAs (Decidable (_ ∨ _ ∨ _))
  | .forceSettle _ _ => inferInstanceAs (Decidable (_ ∨ _ ∨ _))
  | .reserve _ _ | .cancel _ _ | .createChild _ _ => inferInstanceAs (Decidable True)

/-! ## What each primitive changes -/

section Primitives

variable (s : LedgerTree) (i n j : ℕ)

@[simp] theorem addSettled_forest : (s.addSettled i n).forest = s.forest := rfl
@[simp] theorem addSettled_own : (s.addSettled i n).own = s.own := rfl
@[simp] theorem addSettled_released : (s.addSettled i n).released = s.released := rfl
@[simp] theorem addSettled_reservations : (s.addSettled i n).reservations = s.reservations := rfl
@[simp] theorem spend_forest : (s.spend i n).forest = s.forest := rfl
@[simp] theorem spend_released : (s.spend i n).released = s.released := rfl
@[simp] theorem spend_reservations : (s.spend i n).reservations = s.reservations := rfl
@[simp] theorem spend_ledger : (s.spend i n).ledger = (s.addSettled i n).ledger := rfl

/-- A change of one ledger leaves a field alone that it leaves alone there. -/
theorem field_update (ledger : ℕ → BudgetLedger) {i : ℕ} {l : BudgetLedger}
    (field : BudgetLedger → ℕ) (h : field l = field (ledger i)) (j : ℕ) :
    field (update ledger i l j) = field (ledger j) := by
  rw [update_apply]
  split_ifs with hj
  · rw [hj]
    exact h
  · rfl

@[simp] theorem addSettled_initial :
    ((s.addSettled i n).ledger j).initial = (s.ledger j).initial :=
  field_update s.ledger BudgetLedger.initial (BudgetLedger.addSettled_initial (s.ledger i) n) j

@[simp] theorem addSettled_reserved :
    ((s.addSettled i n).ledger j).reserved = (s.ledger j).reserved :=
  field_update s.ledger BudgetLedger.reserved (BudgetLedger.addSettled_reserved (s.ledger i) n) j

@[simp] theorem giveBack_initial :
    ((s.giveBack i n).ledger j).initial = (s.ledger j).initial :=
  field_update s.ledger BudgetLedger.initial (BudgetLedger.subReserved_initial (s.ledger i) n) j

@[simp] theorem giveBack_settled :
    ((s.giveBack i n).ledger j).settled = (s.ledger j).settled :=
  field_update s.ledger BudgetLedger.settled (BudgetLedger.subReserved_settled (s.ledger i) n) j

/-- An addition that fits moves one settled counter, and wraps nothing. -/
theorem addSettled_settled {s : LedgerTree} {i n : ℕ} (hfit : (s.ledger i).settled + n < U64.size)
    (j : ℕ) :
    ((s.addSettled i n).ledger j).settled = (s.ledger j).settled + if j = i then n else 0 := by
  by_cases h : j = i
  · subst h
    simp only [addSettled, update_self, if_true, BudgetLedger.addSettled]
    exact U64.wrappingAdd_of_lt hfit
  · simp [addSettled, h]

theorem addSettled_wrapped {s : LedgerTree} {i n : ℕ}
    (hfit : (s.ledger i).settled + n < U64.size) : (s.addSettled i n).wrapped = s.wrapped := by
  have : ¬U64.size ≤ (s.ledger i).settled + n := by omega
  simp [addSettled, this]

/-- A spend moves what the released ledgers above it stand for. -/
theorem charged_spend {s : LedgerTree} {i : ℕ} (n : ℕ) (hi : i < s.forest.size) (c : ℕ) :
    (s.spend i n).charged c =
      s.charged c + if s.released c = true ∧ s.forest.Below c i then n else 0 := by
  have hown : (s.spend i n).own = update s.own i (s.own i + n) := rfl
  simp only [charged, spend_released, spend_forest, spend_ledger, addSettled_initial, hown,
    Forest.subtotal_add s.own n hi]
  by_cases h : s.released c = true <;> simp [h]

end Primitives

/-! ## The invariant of sound operations -/

/-- The law, with the account of the reserved counters that it needs. -/
structure Kept (s : LedgerTree) : Prop where
  no_wrap : s.wrapped = false
  settled_eq : ∀ i, (s.ledger i).settled = s.own i + s.forest.childTotal s.charged i
  settled_lt : ∀ i, (s.ledger i).settled < U64.size
  initial_lt : ∀ i, (s.ledger i).initial < U64.size
  reserved_eq : ∀ i, (s.ledger i).reserved = (s.reservations i).sum
  reserved_le : ∀ i, (s.ledger i).reserved ≤ (s.ledger i).initial
  /-- There is a root, and every ledger is below it. -/
  nonempty : 0 < s.forest.size
  rooted : ∀ j < s.forest.size, s.forest.Below 0 j

variable {s : LedgerTree} {i n : ℕ}

/-- The invariant gives the law. -/
theorem Kept.conserved (h : s.Kept) : s.Conserved := by
  refine ⟨h.no_wrap, h.settled_eq, fun hall => ?_⟩
  have hchild : s.forest.childTotal s.charged 0 =
      s.forest.childTotal (s.forest.subtotal s.own) 0 :=
    Forest.childTotal_congr fun c hc => by rw [charged, if_pos (hall c hc)]
  have hbelow : s.forest.subtotal s.own 0 = ∑ j ∈ Finset.range s.forest.size, s.own j :=
    Finset.sum_congr rfl fun j hj => if_pos (h.rooted j (Finset.mem_range.mp hj))
  rw [h.settled_eq 0, hchild, ← Forest.subtotal_eq s.own h.nonempty, hbelow]

/-- A spend that overflows nothing, and that no released child has above it, keeps the law. -/
theorem Kept.spend (h : s.Kept) (hi : i < s.forest.size)
    (hfit : (s.ledger i).settled + n < U64.size)
    (hfree : n = 0 ∨ ∀ c, s.forest.Below c i → s.released c = false ∨ s.forest.parent c = none) :
    (s.spend i n).Kept := by
  have hset := addSettled_settled hfit
  refine ⟨?_, fun j => ?_, fun j => ?_, fun j => ?_, fun j => ?_, fun j => ?_, h.nonempty,
    h.rooted⟩
  · exact (addSettled_wrapped hfit).trans h.no_wrap
  · -- what the children stand for does not move, so the equation moves at `i` alone
    have hcharged : s.forest.childTotal (s.spend i n).charged j =
        s.forest.childTotal s.charged j := by
      refine Forest.childTotal_congr fun c hc => ?_
      rw [charged_spend n hi]
      rcases hfree with rfl | hfree
      · simp
      · rw [if_neg, Nat.add_zero]
        rintro ⟨hrel, hbelow⟩
        rcases hfree c hbelow with hf | hf
        · rw [hrel] at hf
          simp at hf
        · rw [hc] at hf
          simp at hf
    rw [spend_ledger, spend_forest, hcharged, hset, h.settled_eq j]
    by_cases hj : j = i
    · subst hj
      simp only [LedgerTree.spend, update_self, if_true]
      omega
    · simp [LedgerTree.spend, hj]
  · rw [spend_ledger, hset]
    have := h.settled_lt j
    split_ifs with hj
    · subst hj
      exact hfit
    · simpa using this
  · simpa using h.initial_lt j
  · simpa using h.reserved_eq j
  · simpa using h.reserved_le j

/-- A change of reservations alone keeps the law, if the reserved counters still add them up and
stay within their budgets. -/
theorem Kept.of_reservations {u : LedgerTree} (h : s.Kept) (hforest : u.forest = s.forest)
    (hown : u.own = s.own) (hreleased : u.released = s.released) (hwrapped : u.wrapped = false)
    (hinitial : ∀ j, (u.ledger j).initial = (s.ledger j).initial)
    (hsettled : ∀ j, (u.ledger j).settled = (s.ledger j).settled)
    (hreserved : ∀ j, (u.ledger j).reserved = (u.reservations j).sum)
    (hle : ∀ j, (u.ledger j).reserved ≤ (s.ledger j).initial) : u.Kept := by
  have hcharged : u.charged = s.charged := by
    funext c
    rw [charged, charged, hreleased, hforest, hown, hinitial]
  refine ⟨hwrapped, fun j => ?_, fun j => ?_, fun j => ?_, hreserved, fun j => ?_, ?_, ?_⟩
  · rw [hsettled, hown, hforest, hcharged]
    exact h.settled_eq j
  · rw [hsettled]
    exact h.settled_lt j
  · rw [hinitial]
    exact h.initial_lt j
  · rw [hinitial]
    exact hle j
  · rw [hforest]
    exact h.nonempty
  · rw [hforest]
    exact h.rooted

/-- Ending a live reservation keeps the law. -/
theorem Kept.giveBack (h : s.Kept) (hmem : n ∈ s.reservations i) : (s.giveBack i n).Kept := by
  have hsum := List.sum_erase hmem
  have hres := h.reserved_eq i
  have hle := h.reserved_le i
  have hlt := h.initial_lt i
  have hback : ((s.ledger i).subReserved n).reserved = (s.ledger i).reserved - n :=
    U64.wrappingSub_of_le (by omega) (by omega)
  have hwrapped : (s.giveBack i n).wrapped = false := by
    have hno : ¬(s.ledger i).reserved < n := by omega
    simp [LedgerTree.giveBack, h.no_wrap, hno]
  refine h.of_reservations rfl rfl rfl hwrapped (giveBack_initial s i n) (giveBack_settled s i n)
    (fun j => ?_) (fun j => ?_)
  · by_cases hj : j = i
    · subst hj
      simp only [LedgerTree.giveBack, update_self, hback]
      omega
    · simpa [LedgerTree.giveBack, hj] using h.reserved_eq j
  · by_cases hj : j = i
    · subst hj
      simp only [LedgerTree.giveBack, update_self, hback]
      omega
    · simpa [LedgerTree.giveBack, hj] using h.reserved_le j

/-- A reservation, granted or refused, keeps the law. -/
theorem Kept.reserve (h : s.Kept) : (s.reserve i n).Kept := by
  unfold LedgerTree.reserve
  cases hr : (s.ledger i).reserve n with
  | error e => exact h
  | ok r =>
    obtain ⟨amount, l⟩ := r
    obtain ⟨rfl, rfl, hfit⟩ := BudgetLedger.reserve_spec hr
    have hres := h.reserved_eq i
    have hle := h.reserved_le i
    refine h.of_reservations rfl rfl rfl h.no_wrap (field_update s.ledger BudgetLedger.initial rfl)
      (field_update s.ledger BudgetLedger.settled rfl) (fun j => ?_) (fun j => ?_)
    · by_cases hj : j = i
      · subst hj
        simp only [update_self, List.sum_cons]
        omega
      · simpa [hj] using h.reserved_eq j
    · by_cases hj : j = i
      · subst hj
        simp only [update_self]
        omega
      · simpa [hj] using h.reserved_le j

/-- What fits in what remains of a ledger can be added to its settled counter. -/
theorem Kept.fits (h : s.Kept) (hn : n ≤ (s.ledger i).remaining) :
    (s.ledger i).settled + n < U64.size := by
  have hset := h.settled_lt i
  have hinit := h.initial_lt i
  unfold BudgetLedger.remaining at hn
  omega

/-- A new child, granted or refused, keeps the law. -/
theorem Kept.createChild (h : s.Kept) (hi : i < s.forest.size) : (s.createChild i n hi).Kept := by
  unfold LedgerTree.createChild
  split_ifs with hrefused
  · exact h
  have hfit : (s.ledger i).settled + n < U64.size := h.fits (by omega)
  have hset := addSettled_settled hfit
  simp only
  -- the entries of the new ledger are fresh, and those of the others stand
  generalize hu : LedgerTree.mk _ _ _ _ _ _ = u
  have hforest : u.forest = s.forest.push i hi := by rw [← hu]
  have hledger : ∀ j, j ≠ s.forest.size → u.ledger j = (s.addSettled i n).ledger j := by
    intro j hj
    simp [← hu, hj]
  have hnew : u.ledger s.forest.size = .new n := by simp [← hu]
  have hown : ∀ j, j ≠ s.forest.size → u.own j = s.own j := by
    intro j hj
    simp [← hu, hj]
  have hownNew : u.own s.forest.size = 0 := by simp [← hu]
  have hcharged : ∀ c < s.forest.size, u.charged c = s.charged c := by
    intro c hc
    have hrel : u.released c = s.released c := by simp [← hu, hc.ne]
    rw [charged, charged, hrel, hforest,
      Forest.push_subtotal (fun j hj => hown j hj.ne) hownNew, hledger c hc.ne, addSettled_initial]
  have hchargedNew : u.charged s.forest.size = n := by
    have hrel : u.released s.forest.size = false := by simp [← hu]
    rw [charged, hrel, hnew]
    rfl
  refine ⟨?_, fun j => ?_, fun j => ?_, fun j => ?_, fun j => ?_, fun j => ?_, ?_, fun j hj => ?_⟩
  · rw [← hu]
    exact (addSettled_wrapped hfit).trans h.no_wrap
  · rw [hforest, Forest.push_childTotal hcharged, hchargedNew]
    by_cases hj : j = s.forest.size
    · subst hj
      rw [hnew, hownNew, Forest.childTotal_of_size_le _ le_rfl, if_neg hi.ne']
      rfl
    · rw [hledger j hj, hown j hj, hset, h.settled_eq j]
      omega
  · by_cases hj : j = s.forest.size
    · subst hj
      rw [hnew]
      exact Nat.two_pow_pos 64
    · rw [hledger j hj, hset]
      have := h.settled_lt j
      split_ifs with hji
      · subst hji
        exact hfit
      · simpa using this
  · by_cases hj : j = s.forest.size
    · subst hj
      rw [hnew]
      simp only [BudgetLedger.new_initial]
      omega
    · rw [hledger j hj, addSettled_initial]
      exact h.initial_lt j
  · by_cases hj : j = s.forest.size
    · subst hj
      simp [← hu]
    · rw [hledger j hj, addSettled_reserved, h.reserved_eq j]
      simp [← hu, hj]
  · by_cases hj : j = s.forest.size
    · subst hj
      rw [hnew]
      exact Nat.zero_le _
    · rw [hledger j hj, addSettled_reserved, addSettled_initial]
      exact h.reserved_le j
  · rw [hforest]
    exact Nat.succ_pos _
  · rw [hforest] at hj ⊢
    by_cases hj' : j = s.forest.size
    · subst hj'
      rw [Forest.below_of_parent Forest.push_parent_self, Forest.push_below_of_lt hi]
      exact Or.inr (h.rooted i hi)
    · have hlt : j < s.forest.size := by
        rw [Forest.push_size] at hj
        omega
      rw [Forest.push_below_of_lt hlt]
      exact h.rooted j hlt

/-- Releasing a child again when nothing of its allocation is unused changes nothing. -/
theorem releaseUnused_again (hrel : s.released i = true)
    (hused : (s.ledger i).initial ≤ (s.ledger i).settled) : s.releaseUnused i = s := by
  unfold releaseUnused
  have hunused : ¬0 < (s.ledger i).initial - (s.ledger i).settled := by omega
  have hsame : update s.released i true = s.released := by
    rw [← hrel, update_eq_self]
  cases s.forest.parent i with
  | none => rfl
  | some p => simp only [if_neg hunused, hsame]

/-- The first release of a child whose counter, up to its allocation, is its subtree's spend keeps
the law. -/
theorem Kept.releaseUnused {p : ℕ} (h : s.Kept) (hp : s.forest.parent i = some p)
    (hrel : s.released i = false)
    (hspent : min (s.ledger i).initial (s.ledger i).settled = s.forest.subtotal s.own i) :
    (s.releaseUnused i).Kept := by
  have hpi : i ≠ p := (Forest.parent_lt hp).ne'
  -- the allocation is part of the parent's counter, so what is unused can leave it
  have halloc : (s.ledger i).initial ≤ (s.ledger p).settled := by
    have hle := Forest.le_childTotal s.charged hp
    rw [charged, hrel] at hle
    have := h.settled_eq p
    simp only [Bool.false_eq_true, if_false] at hle
    omega
  generalize hu : s.releaseUnused i = u
  simp only [LedgerTree.releaseUnused, hp] at hu
  have hforest : u.forest = s.forest := by rw [← hu]; split_ifs <;> rfl
  have hown : u.own = s.own := by rw [← hu]; split_ifs <;> rfl
  have hreservations : u.reservations = s.reservations := by rw [← hu]; split_ifs <;> rfl
  have hwrapped : u.wrapped = false := by
    rw [← hu]
    split_ifs
    · have hno : ¬(s.ledger p).settled < (s.ledger i).initial - (s.ledger i).settled := by omega
      simp [subSettled, h.no_wrap, hno]
    · exact h.no_wrap
  have hsettled : ∀ j, (u.ledger j).settled =
      (s.ledger j).settled - if j = p then (s.ledger i).initial - (s.ledger i).settled else 0 := by
    intro j
    have hlt := h.settled_lt j
    rw [← hu]
    split_ifs with hpos hj hj
    · subst hj
      simp only [subSettled, update_self]
      exact U64.wrappingSub_of_le (by omega) hlt
    · simp [subSettled, hj]
    · simp only
      omega
    · rfl
  have hinitial : ∀ j, (u.ledger j).initial = (s.ledger j).initial ∧
      (u.ledger j).reserved = (s.ledger j).reserved := by
    intro j
    rw [← hu]
    split_ifs
    · by_cases hj : j = p
      · subst hj
        simp [subSettled]
      · simp [subSettled, hj]
    · exact ⟨rfl, rfl⟩
  have hreleased : u.released = update s.released i true := by
    rw [← hu]
  have hcharged : ∀ c, c ≠ i → u.charged c = s.charged c := by
    intro c hc
    rw [charged, charged, hreleased, update_of_ne hc, hforest, hown, (hinitial c).1]
  have hchargedSelf : u.charged i = s.forest.subtotal s.own i := by
    rw [charged, hreleased, update_self, if_pos rfl, hforest, hown]
  refine ⟨hwrapped, fun j => ?_, fun j => ?_, fun j => ?_, fun j => ?_, fun j => ?_, ?_, ?_⟩
  · have hchange := Forest.childTotal_change (i := j) hp fun c _ hc => hcharged c hc
    have hself : s.charged i = (s.ledger i).initial := by simp [charged, hrel]
    have hj := h.settled_eq j
    rw [hchargedSelf, hself] at hchange
    rw [hforest, hown, hsettled]
    split_ifs at hchange ⊢ with hjp
    · subst hjp
      omega
    · omega
  · rw [hsettled]
    exact lt_of_le_of_lt (Nat.sub_le _ _) (h.settled_lt j)
  · rw [(hinitial j).1]
    exact h.initial_lt j
  · rw [(hinitial j).2, hreservations]
    exact h.reserved_eq j
  · rw [(hinitial j).1, (hinitial j).2]
    exact h.reserved_le j
  · rw [hforest]
    exact h.nonempty
  · rw [hforest]
    exact h.rooted

/-- Adding nothing to a settled counter changes nothing. -/
theorem Kept.addSettled_zero (h : s.Kept) (p : ℕ) : s.addSettled p 0 = s := by
  have hlt := h.settled_lt p
  have hsame : (s.ledger p).addSettled 0 = s.ledger p := by
    rw [BudgetLedger.addSettled, U64.wrappingAdd_zero hlt]
  have hno : ¬U64.size ≤ (s.ledger p).settled + 0 := by omega
  simp only [addSettled, hsame, update_eq_self, hno, decide_false, Bool.or_false]

/-- A forced settlement on a released child, below no released ledger, keeps the law: what the
child stands for grows by what its parent is charged. -/
theorem Kept.spend_released {p : ℕ} (h : s.Kept) (hp : s.forest.parent i = some p)
    (hfit : (s.ledger i).settled + n < U64.size) (hrel : s.released i = true)
    (habove : ∀ a ∈ s.forest.ancestors i, s.released a = false)
    (hfit' : (s.ledger p).settled + n < U64.size) : ((s.spend i n).addSettled p n).Kept := by
  have hi := Forest.lt_size_of_parent hp
  have hpi : p ≠ i := (Forest.parent_lt hp).ne
  have hset := addSettled_settled hfit
  have hfit'' : ((s.spend i n).ledger p).settled + n < U64.size := by
    rw [spend_ledger, hset, if_neg hpi]
    exact hfit'
  have hset' := addSettled_settled hfit''
  -- of the released ledgers, only `i` itself has `i` below it
  have hcharged : ∀ c, ((s.spend i n).addSettled p n).charged c =
      s.charged c + if c = i then n else 0 := by
    intro c
    have hsame : ((s.spend i n).addSettled p n).charged c = (s.spend i n).charged c := by
      simp [charged]
    rw [hsame, charged_spend n hi]
    by_cases hc : c = i
    · subst hc
      simp [hrel, Forest.Below]
    · have hno : ¬(s.released c = true ∧ s.forest.Below c i) := by
        rintro ⟨hcrel, rfl | hmem⟩
        · exact hc rfl
        · rw [habove c hmem] at hcrel
          simp at hcrel
      simp [hc, hno]
  refine ⟨?_, fun j => ?_, fun j => ?_, fun j => ?_, fun j => ?_, fun j => ?_, h.nonempty,
    h.rooted⟩
  · exact (addSettled_wrapped hfit'').trans ((addSettled_wrapped hfit).trans h.no_wrap)
  · have hchange := Forest.childTotal_change (i := j) (f := s.charged)
      (g := ((s.spend i n).addSettled p n).charged) hp fun c _ hc => by simp [hcharged c, hc]
    have hj := h.settled_eq j
    rw [hcharged i, if_pos rfl] at hchange
    rw [hset', spend_ledger, hset]
    simp only [addSettled_forest, spend_forest, addSettled_own]
    by_cases hji : j = i
    · subst hji
      simp only [LedgerTree.spend, update_self, if_true, if_neg hpi.symm] at hchange ⊢
      omega
    · simp only [LedgerTree.spend, update_of_ne hji, if_neg hji] at hchange ⊢
      split_ifs at hchange ⊢ <;> omega
  · rw [hset', spend_ledger, hset]
    have hj := h.settled_lt j
    split_ifs with hji hjp hjp
    · exact absurd (hjp.symm.trans hji) hpi
    · subst hji
      omega
    · subst hjp
      omega
    · omega
  · simpa using h.initial_lt j
  · simpa using h.reserved_eq j
  · simpa using h.reserved_le j

/-- A sound forced settlement keeps the law. -/
theorem Kept.forceSettle {cost : ℕ} (h : s.Kept) (hi : i < s.forest.size)
    (hsound : s.Sound (.forceSettle i cost)) : (s.forceSettle i cost).Kept := by
  have hfit : (s.ledger i).settled + s.forced i cost < U64.size := h.fits (min_le_right _ _)
  unfold LedgerTree.forceSettle
  rcases hsound with hzero | hroot | ⟨hrel, habove, hfit'⟩
  · have hspend := h.spend (n := s.forced i cost) hi hfit (Or.inl hzero)
    simp only
    cases s.forest.parent i with
    | none => exact hspend
    | some p =>
      simp only [hzero] at hspend ⊢
      rw [hspend.addSettled_zero]
      exact hspend
  · simp only [hroot]
    refine h.spend hi hfit (Or.inr fun c hc => Or.inr ?_)
    -- nothing but the root itself is above a root
    rcases hc with rfl | hc
    · exact hroot
    · rw [List.head?_eq_none_iff.mp hroot] at hc
      simp at hc
  · cases hp : s.forest.parent i with
    | none =>
      refine h.spend hi hfit (Or.inr fun c hc => ?_)
      rcases hc with rfl | hc
      · exact Or.inr hp
      · exact Or.inl (habove c hc)
    | some p => exact h.spend_released hp hfit hrel habove (hfit' p hp)

/-- Every sound operation keeps the law. -/
theorem Kept.step {op : LedgerOp} {t : LedgerTree} (h : s.Kept) (hsound : s.Sound op)
    (hstep : s.step op = some t) : t.Kept := by
  cases op with
  | reserve i cost =>
    simp only [LedgerTree.step] at hstep
    split_ifs at hstep
    cases hstep
    exact h.reserve
  | settle i amount cost =>
    simp only [LedgerTree.step] at hstep
    split_ifs at hstep with hlive
    cases hstep
    obtain ⟨hfit, hfree⟩ := hsound
    -- the cost is added before the reservation is given back
    refine (h.spend hlive.1 hfit (hfree.imp_right fun hfree c hc => Or.inl ?_)).giveBack hlive.2
    exact hfree c (List.mem_cons.mpr hc)
  | cancel i amount =>
    simp only [LedgerTree.step] at hstep
    split_ifs at hstep with hlive
    cases hstep
    exact h.giveBack hlive.2
  | createChild i allocation =>
    simp only [LedgerTree.step] at hstep
    split_ifs at hstep with hi
    cases hstep
    exact h.createChild hi
  | releaseUnused i =>
    simp only [LedgerTree.step] at hstep
    split_ifs at hstep
    cases hstep
    rcases hsound with hroot | ⟨hrel, hspent⟩ | ⟨hrel, hused⟩
    · rw [LedgerTree.releaseUnused, hroot]
      exact h
    · cases hp : s.forest.parent i with
      | none =>
        rw [LedgerTree.releaseUnused, hp]
        exact h
      | some p => exact h.releaseUnused hp hrel hspent
    · rw [releaseUnused_again hrel hused]
      exact h
  | forceSettle i cost =>
    simp only [LedgerTree.step] at hstep
    split_ifs at hstep with hi
    cases hstep
    exact h.forceSettle hi hsound

/-- A fresh root ledger meets the law. -/
theorem root_kept {initial : ℕ} (hinit : initial < U64.size) : (root initial).Kept := by
  have hledger : ∀ j, ((root initial).ledger j).settled = 0 ∧
      ((root initial).ledger j).reserved = 0 ∧ ((root initial).ledger j).initial < U64.size := by
    intro j
    by_cases hj : j = 0
    · subst hj
      exact ⟨rfl, rfl, hinit⟩
    · simp [root, hj]
  refine ⟨rfl, fun j => ?_, fun j => ?_, fun j => (hledger j).2.2, fun j => (hledger j).2.1,
    fun j => ?_, Nat.one_pos, fun j hj => Or.inl ?_⟩
  · have hnone : (root initial).forest.childTotal (root initial).charged j = 0 :=
      Finset.sum_eq_zero fun c _ => if_neg (Option.some_ne_none j).symm
    rw [(hledger j).1, hnone]
    rfl
  · rw [(hledger j).1]
    exact Nat.two_pow_pos 64
  · rw [(hledger j).2.1]
    exact Nat.zero_le _
  · exact (Nat.lt_one_iff.mp hj).symm

end LedgerTree

/-- All runs of the public operations on a tree of ledgers, from a fresh root. -/
def ledgerTreeSystem (initial : ℕ) : System LedgerTree LedgerOp :=
  ofStep (fun s => s = LedgerTree.root initial) LedgerTree.step

/-- Conservation over every run of sound operations: no counter wraps, every settled counter is its
ledger's own spend and what its children stand for, the root counts every released spend once, and
releasing a child a second time changes nothing. -/
theorem ledgerTree_conserved {initial : ℕ} (hinit : initial < U64.size) {s : LedgerTree}
    (h : (ledgerTreeSystem initial).ReachWithin LedgerTree.Sound s) :
    s.Conserved ∧ ∀ i t, s.released i = true → s.Sound (.releaseUnused i) →
      s.step (.releaseUnused i) = some t → t = s := by
  have hkept : s.Kept := by
    induction h with
    | init hs =>
      obtain rfl : _ = _ := hs
      exact LedgerTree.root_kept hinit
    | step _ hsound hstep ih => exact ih.step hsound hstep
  refine ⟨hkept.conserved, fun i t hrel hsound hstep => ?_⟩
  simp only [LedgerTree.step] at hstep
  split_ifs at hstep
  cases hstep
  rcases hsound with hroot | ⟨hrel', -⟩ | ⟨-, hused⟩
  · rw [LedgerTree.releaseUnused, hroot]
  · rw [hrel] at hrel'
    simp at hrel'
  · exact LedgerTree.releaseUnused_again hrel hused

/-- A run of sound operations: a child settles 150 of its 500 and gives back the rest, and is
released again after it has spent everything that it was left with. -/
def allocateSpendRelease : List LedgerOp :=
  [.createChild 0 500, .reserve 1 200, .settle 1 200 150, .createChild 1 350, .reserve 2 350,
    .settle 2 350 350, .releaseUnused 2, .releaseUnused 1, .releaseUnused 1]

/-- The run above meets the law at its end, where the root has counted the 500 once. -/
theorem allocateSpendRelease_conserved :
    ∃ s, (ledgerTreeSystem 1000).ReachWithin LedgerTree.Sound s ∧ s.released 1 = true ∧
      (s.ledger 0).settled = 500 ∧ s.Conserved := by
  obtain ⟨s, hs, hrel, hsettled⟩ : ∃ s ∈ exec LedgerTree.Sound LedgerTree.step
      (LedgerTree.root 1000) allocateSpendRelease,
      s.released 1 = true ∧ (s.ledger 0).settled = 500 := by decide
  have hreach : (ledgerTreeSystem 1000).ReachWithin LedgerTree.Sound s :=
    reachWithin_exec (.init rfl) hs
  exact ⟨s, hreach, hrel, hsettled, (ledgerTree_conserved (by decide) hreach).1⟩

/-- Releasing an unspent child twice takes its allocation out of the parent twice, and the parent's
settled counter wraps below zero. -/
theorem second_release_wraps :
    ∃ s, (ledgerTreeSystem 1000).Reach s ∧ (s.ledger 0).settled = 2^64 - 500 ∧ ¬s.Conserved := by
  obtain ⟨s, hs, hsettled, hwrap⟩ : ∃ s ∈ exec (fun _ _ => True) LedgerTree.step
      (LedgerTree.root 1000) [.createChild 0 500, .releaseUnused 1, .releaseUnused 1],
      (s.ledger 0).settled = 2^64 - 500 ∧ s.wrapped = true := by decide
  refine ⟨s, reachWithin_exec (.init rfl) hs, hsettled, fun hconserved => ?_⟩
  rw [hconserved.no_wrap] at hwrap
  simp at hwrap

end Oxydra
