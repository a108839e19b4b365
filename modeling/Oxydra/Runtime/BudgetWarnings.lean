import Oxydra.Runtime.TurnPayments

/-!
# The announcements of a budget's thresholds

A listener is told when 80% and when 95% of the budget are used. The code compares the used percents
before and after a turn, where what remains is truncated, so that what is used is rounded up; and it
looks at the second threshold only where the first is not announced.

`WarnsExactly` says for which turns this announces what the turn reaches. `announcementsExact_iff`
says that as long as the totals are words, it is these turns that keep the announcements exact in a
run.
-/

namespace Oxydra

open List

/-! ## What a turn announces -/

/-- The announcements of a threshold among some items. -/
def announcements (threshold_pct : ℕ) (items : List StreamItem) : ℕ :=
  items.countP fun item =>
    match item with
    | .policyEvent (.budgetWarning _ pct) => pct == threshold_pct
    | _ => false

theorem announcements_append (threshold_pct : ℕ) (items items' : List StreamItem) :
    announcements threshold_pct (items ++ items') =
      announcements threshold_pct items + announcements threshold_pct items' :=
  countP_append

/-- The used percents are rounded up: they are below a threshold while the total is within the
percent before it. -/
theorem usedPct_lt_iff {initial threshold_pct : ℕ} (settled : ℕ) (hinitial : 0 < initial)
    (hpos : 0 < threshold_pct) (hle : threshold_pct ≤ 100) :
    usedPct (initial - settled) initial < threshold_pct ↔
      100 * settled ≤ (threshold_pct - 1) * initial := by
  obtain ⟨pct, rfl⟩ : ∃ pct, threshold_pct = pct + 1 := ⟨threshold_pct - 1, by omega⟩
  have hdiv : 100 - pct ≤ (initial - settled) * 100 / initial ↔
      (100 - pct) * initial ≤ (initial - settled) * 100 := Nat.le_div_iff_mul_le hinitial
  have hsplit : (100 - pct) * initial + pct * initial = 100 * initial := by
    rw [← Nat.add_mul, Nat.sub_add_cancel (by omega)]
  have hrest : 0 < (100 - pct) * initial := Nat.mul_pos (by omega) hinitial
  unfold usedPct
  rw [Nat.add_sub_cancel]
  constructor
  · intro hused
    have hmul := hdiv.mp (by omega)
    omega
  · intro hsettled
    have hmul := hdiv.mpr (by omega)
    omega

section Turn

variable {initial : ℕ} (settled total : ℕ)

/-- The used percents pass a threshold when the total leaves the percents below it. -/
theorem usedPct_passes_iff (hinitial : 0 < initial) {threshold_pct : ℕ} (hpos : 0 < threshold_pct)
    (hle : threshold_pct ≤ 100) :
    usedPct (initial - settled) initial < threshold_pct ∧
        threshold_pct ≤ usedPct (initial - total) initial ↔
      100 * settled ≤ (threshold_pct - 1) * initial ∧
        (threshold_pct - 1) * initial < 100 * total := by
  have hold := usedPct_lt_iff settled hinitial hpos hle
  have hnew := usedPct_lt_iff total hinitial hpos hle
  refine and_congr hold ?_
  rw [← not_lt, hnew, not_le]

/-- The items between two totals. -/
def eventsBetween (initial settled total : ℕ) : List StreamItem :=
  budgetEvents (BudgetLedger.snapshot ⟨initial, 0, settled⟩)
    (BudgetLedger.snapshot ⟨initial, 0, total⟩)

theorem eventsBetween_eq (hinitial : 0 < initial) :
    eventsBetween initial settled total =
      let update : StreamItem := .policyEvent (.budgetUpdate (initial - total))
      if 100 * settled ≤ 79 * initial ∧ 79 * initial < 100 * total then
        [update, .policyEvent (.budgetWarning (initial - total) 80)]
      else if 100 * settled ≤ 94 * initial ∧ 94 * initial < 100 * total then
        [update, .policyEvent (.budgetWarning (initial - total) 95)]
      else [update] := by
  have hfirst := usedPct_passes_iff settled total hinitial
    (show 0 < 80 by decide) (by decide)
  have hsecond := usedPct_passes_iff settled total hinitial
    (show 0 < 95 by decide) (by decide)
  refine (if_pos hinitial).trans ?_
  exact if_congr hfirst rfl (if_congr hsecond rfl rfl)

/-- 80% is announced by a turn from 79% or less to more, and 95% by a turn from 94% or less to more
that does not announce 80%. -/
theorem announcements_eventsBetween (hinitial : 0 < initial) :
    announcements 80 (eventsBetween initial settled total) =
        (if 100 * settled ≤ 79 * initial ∧ 79 * initial < 100 * total then 1 else 0) ∧
      announcements 95 (eventsBetween initial settled total) =
        if ¬ (100 * settled ≤ 79 * initial ∧ 79 * initial < 100 * total) ∧
          100 * settled ≤ 94 * initial ∧ 94 * initial < 100 * total then 1 else 0 := by
  rw [eventsBetween_eq settled total hinitial]
  by_cases h : 100 * settled ≤ 79 * initial ∧ 79 * initial < 100 * total
  · rw [if_pos h, if_pos h, if_neg fun hand => hand.1 h]
    exact ⟨rfl, rfl⟩
  · rw [if_neg h, if_neg h]
    by_cases h' : 100 * settled ≤ 94 * initial ∧ 94 * initial < 100 * total
    · rw [if_pos h', if_pos ⟨h, h'⟩]
      exact ⟨rfl, rfl⟩
    · rw [if_neg h', if_neg fun hand => h' hand.2]
      exact ⟨rfl, rfl⟩

/-- The turn from a total to a later one announces what it reaches. The used percents are rounded
up, so that it must not end within the percent below a threshold that it would announce; and one
announcement masks the other. -/
structure WarnsExactly (initial settled total : ℕ) : Prop where
  first_not_rounded : ¬ (79 * initial < 100 * total ∧ 100 * total < 80 * initial)
  second_not_rounded : 80 * initial ≤ 100 * settled → 100 * settled ≤ 94 * initial →
    ¬ (94 * initial < 100 * total ∧ 100 * total < 95 * initial)
  second_not_masked : 100 * settled < 95 * initial → 95 * initial ≤ 100 * total →
    80 * initial ≤ 100 * settled ∧ 100 * settled ≤ 94 * initial

/-- How often a threshold should have been announced at a total. -/
def dueAnnouncements (threshold_pct initial settled : ℕ) : ℕ :=
  if threshold_pct * initial ≤ 100 * settled then 1 else 0

/-- From a total that is not within the percent below 80, the turns that warn exactly are those that
announce what is due. -/
theorem warnsExactly_iff (hinitial : 0 < initial) (hle : settled ≤ total)
    (hclear : ¬ (79 * initial < 100 * settled ∧ 100 * settled < 80 * initial)) :
    WarnsExactly initial settled total ↔ ∀ threshold_pct ∈ [80, 95],
      dueAnnouncements threshold_pct initial settled +
          announcements threshold_pct (eventsBetween initial settled total) =
        dueAnnouncements threshold_pct initial total := by
  obtain ⟨hfirst, hsecond⟩ :=
    announcements_eventsBetween settled total hinitial
  rw [forall_mem_cons, forall_mem_singleton, hfirst, hsecond]
  unfold dueAnnouncements
  constructor
  · rintro ⟨hrounded, hrounded', hmasked⟩
    constructor <;> split_ifs <;> omega
  · rintro ⟨hdue, hdue'⟩
    refine ⟨?_, ?_, ?_⟩ <;> split_ifs at hdue hdue' <;> omega

end Turn

/-! ## Runs -/

theorem payTurns_append (l : BudgetLedger) (turns turns' : List (ℕ × ℕ)) :
    l.payTurns (turns ++ turns') =
      (((l.payTurns turns).1.payTurns turns').1,
        (l.payTurns turns).2 ++ ((l.payTurns turns).1.payTurns turns').2) := by
  induction turns generalizing l with
  | nil => rfl
  | cons turn turns ih =>
    have hrest := ih (l.payTurn turn.1 turn.2).1
    show ((((l.payTurn turn.1 turn.2).1.payTurns (turns ++ turns')).1,
      (l.payTurn turn.1 turn.2).2 ++ ((l.payTurn turn.1 turn.2).1.payTurns (turns ++ turns')).2) :
        BudgetLedger × List StreamItem) = _
    rw [hrest, ← append_assoc]
    rfl

/-- The costs of some turns, added up. -/
def paidFor (turns : List (ℕ × ℕ)) : ℕ := (turns.map Prod.snd).sum

theorem paidFor_concat (turns : List (ℕ × ℕ)) (turn : ℕ × ℕ) :
    paidFor (turns ++ [turn]) = paidFor turns + turn.2 := by
  unfold paidFor
  rw [map_append, sum_append]
  rfl

/-- Each turn is a step that `P` allows, from what was paid before it to its cost. -/
def EachTurn (P : ℕ → ℕ → Prop) (turns : List (ℕ × ℕ)) : Prop :=
  ∀ earlier turn later, turns = earlier ++ turn :: later → P (paidFor earlier) turn.2

theorem eachTurn_concat {P : ℕ → ℕ → Prop} (turns : List (ℕ × ℕ)) (turn : ℕ × ℕ) :
    EachTurn P (turns ++ [turn]) ↔ EachTurn P turns ∧ P (paidFor turns) turn.2 := by
  constructor
  · intro heach
    refine ⟨fun earlier turn' later hsplit => ?_, heach turns turn [] rfl⟩
    refine heach earlier turn' (later ++ [turn]) ?_
    rw [hsplit, append_assoc, cons_append]
  · rintro ⟨heach, hlast⟩ earlier turn' later hsplit
    rcases eq_nil_or_concat' later with rfl | ⟨later, last, rfl⟩
    · obtain ⟨rfl, hturn⟩ := append_inj' hsplit rfl
      obtain rfl := head_eq_of_cons_eq hturn
      exact hlast
    · refine heach earlier turn' later ?_
      rw [← cons_append, ← append_assoc] at hsplit
      exact (append_inj' hsplit rfl).1

/-- What a run with this budget settles and announces. -/
def runPayments (initial : ℕ) (turns : List (ℕ × ℕ)) : BudgetLedger × List StreamItem :=
  (BudgetLedger.new initial).payTurns turns

/-- After any number of turns, the thresholds that the settled total has reached have been announced
once, and the others not at all. -/
def AnnouncementsExact (initial : ℕ) (turns : List (ℕ × ℕ)) : Prop :=
  ∀ done, done <+: turns → ∀ threshold_pct ∈ [80, 95],
    announcements threshold_pct (runPayments initial done).2 =
      dueAnnouncements threshold_pct initial (runPayments initial done).1.settled

section Run

variable {initial : ℕ} {turns : List (ℕ × ℕ)} {turn : ℕ × ℕ}

theorem runPayments_ledger (initial : ℕ) (hwords : ∀ turn ∈ turns, turn.1 < U64.size)
    (hfits : paidFor turns < U64.size) :
    (runPayments initial turns).1 = ⟨initial, 0, paidFor turns⟩ := by
  have hsettled := payTurns_settled (l := BudgetLedger.new initial) rfl hwords
  rw [BudgetLedger.new_settled, foldl_wrappingAdd_eq (by rwa [Nat.zero_add]), Nat.zero_add]
    at hsettled
  exact hsettled

/-- The items of one more turn. -/
theorem runPayments_concat (hwords : ∀ turn' ∈ turns ++ [turn], turn'.1 < U64.size)
    (hfits : paidFor turns + turn.2 < U64.size) :
    (runPayments initial (turns ++ [turn])).2 =
      (runPayments initial turns).2 ++
        eventsBetween initial (paidFor turns) (paidFor turns + turn.2) := by
  have hturns : ∀ turn' ∈ turns, turn'.1 < U64.size := fun turn' hturn' =>
    hwords turn' (mem_append_left _ hturn')
  have hturn : turn.1 < U64.size :=
    hwords turn (mem_append_right _ (mem_singleton.mpr rfl))
  have hledger := runPayments_ledger initial hturns (by omega)
  have hpaid := payTurn_settled (l := ⟨initial, 0, paidFor turns⟩) rfl hturn turn.2
  rw [U64.wrappingAdd_of_lt hfits] at hpaid
  unfold runPayments at hledger ⊢
  rw [payTurns_append, hledger]
  show _ ++ (budgetEvents _
    (BudgetLedger.payTurn ⟨initial, 0, paidFor turns⟩ turn.1 turn.2).1.snapshot ++ []) = _
  rw [hpaid, append_nil]
  rfl

/-- A turn that warns exactly does not leave the total within the percent below 80. -/
theorem EachTurn.clear
    (h : EachTurn (fun settled cost => WarnsExactly initial settled (settled + cost)) turns) :
    ¬ (79 * initial < 100 * paidFor turns ∧ 100 * paidFor turns < 80 * initial) := by
  rcases eq_nil_or_concat' turns with rfl | ⟨turns, turn, rfl⟩
  · rintro ⟨hlt, -⟩
    exact absurd hlt (Nat.not_lt_zero _)
  · rw [paidFor_concat]
    exact ((eachTurn_concat _ _).mp h).2.first_not_rounded

theorem announcementsExact_concat : AnnouncementsExact initial (turns ++ [turn]) ↔
    AnnouncementsExact initial turns ∧ ∀ threshold_pct ∈ [80, 95],
      announcements threshold_pct (runPayments initial (turns ++ [turn])).2 =
        dueAnnouncements threshold_pct initial
          (runPayments initial (turns ++ [turn])).1.settled := by
  constructor
  · intro hexact
    exact ⟨fun done hdone => hexact done (hdone.trans (prefix_append _ _)),
      hexact _ prefix_rfl⟩
  · rintro ⟨hexact, hlast⟩ done hdone
    rcases prefix_concat_iff.mp hdone with rfl | hdone
    · exact hlast
    · exact hexact done hdone

/-- While the totals are words, the announcements of a run are exact when each of its turns warns
exactly. -/
theorem announcementsExact_iff (hinitial : 0 < initial)
    (hwords : ∀ turn ∈ turns, turn.1 < U64.size) (hfits : paidFor turns < U64.size) :
    AnnouncementsExact initial turns ↔
      EachTurn (fun settled cost => WarnsExactly initial settled (settled + cost)) turns := by
  induction turns using List.reverseRecOn with
  | nil =>
    refine ⟨fun _ earlier turn later hsplit => ?_, fun _ done hdone => ?_⟩
    · exact absurd hsplit.symm (append_ne_nil_of_right_ne_nil _ (cons_ne_nil _ _))
    · obtain rfl := prefix_nil.mp hdone
      rw [forall_mem_cons, forall_mem_singleton]
      have hzero : (runPayments initial []).1.settled = 0 := rfl
      rw [hzero]
      constructor <;> exact (if_neg (by omega)).symm
  | append_singleton turns turn ih =>
    rw [paidFor_concat] at hfits
    have hturns : ∀ turn' ∈ turns, turn'.1 < U64.size := fun turn' hturn' =>
      hwords turn' (mem_append_left _ hturn')
    rw [announcementsExact_concat, eachTurn_concat, ← ih hturns (by omega)]
    refine and_congr_right fun hexact => ?_
    have hclear := EachTurn.clear ((ih hturns (by omega)).mp hexact)
    rw [warnsExactly_iff _ _ hinitial (Nat.le_add_right _ _) hclear,
      runPayments_concat hwords hfits, runPayments_ledger _ hwords (by rwa [paidFor_concat]),
      paidFor_concat]
    refine forall₂_congr fun threshold_pct hthreshold => ?_
    rw [announcements_append, hexact turns prefix_rfl threshold_pct hthreshold,
      runPayments_ledger _ hturns (by omega)]

/-- In a run whose turns all keep the total a word and warn exactly, each threshold that the total
has reached has been announced once, and no other. -/
theorem announcementsExact_of_eachTurn (hinitial : 0 < initial)
    (hwords : ∀ turn ∈ turns, turn.1 < U64.size)
    (heach : EachTurn (fun settled cost => settled + cost < U64.size ∧
      WarnsExactly initial settled (settled + cost)) turns) :
    AnnouncementsExact initial turns := by
  have hfits : paidFor turns < U64.size := by
    rcases eq_nil_or_concat' turns with rfl | ⟨turns, turn, rfl⟩
    · exact (by decide : 0 < U64.size)
    · rw [paidFor_concat]
      exact ((eachTurn_concat _ _).mp heach).2.1
  refine (announcementsExact_iff hinitial hwords hfits).mpr ?_
  exact fun earlier turn later hsplit => (heach earlier turn later hsplit).2

end Run

/-- From nothing to 80%, and then to 95%. -/
theorem twoSteps_exact : AnnouncementsExact 1000 [(0, 800), (0, 150)] := by
  refine announcementsExact_of_eachTurn (by decide) (by decide) ?_
  refine (eachTurn_concat [(0, 800)] (0, 150)).mpr
    ⟨(eachTurn_concat [] (0, 800)).mpr ⟨?_, by decide, ?_⟩, by decide, ?_⟩
  · intro earlier turn later hsplit
    exact absurd hsplit.symm (append_ne_nil_of_right_ne_nil _ (cons_ne_nil _ _))
  · exact ⟨by decide, by decide, by decide⟩
  · exact ⟨by decide, by decide, by decide⟩

/-- One turn to 96% announces 80% and never 95%, and one to 79.5% announces 80%. -/
theorem oneStep_not_exact :
    ¬ AnnouncementsExact 1000 [(0, 960)] ∧ ¬ AnnouncementsExact 1000 [(0, 795)] := by
  constructor
  · intro hexact
    exact absurd (hexact _ prefix_rfl 95 (by decide)) (by decide)
  · intro hexact
    exact absurd (hexact _ prefix_rfl 80 (by decide)) (by decide)

end Oxydra
