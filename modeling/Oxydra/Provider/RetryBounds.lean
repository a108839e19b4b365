import Mathlib.Data.List.Range
import Oxydra.Provider.Retry

/-!
# Calls and delays of retries

`complete_with_retry` and the loop of `ReliableProvider::stream` call their inner provider for one
attempt after the other, and sleep in between. Both stop after `max_attempts` calls, and the delays
grow until `backoff_max`.
-/

namespace Oxydra

open List

/-! ## Delays -/

/-- `u64::try_from(millis).unwrap_or(u64::MAX)`. -/
def u64Millis (millis : ℕ) : ℕ := if millis < 2 ^ 64 then millis else 2 ^ 64 - 1

/-- The milliseconds, cut off at `u64::MAX`. -/
theorem u64Millis_eq (millis : ℕ) : u64Millis millis = min millis (2 ^ 64 - 1) := by
  unfold u64Millis
  split_ifs <;> omega

/-- They fit. -/
theorem u64Millis_lt (millis : ℕ) : u64Millis millis < 2 ^ 64 := by
  rw [u64Millis_eq]
  omega

/-- `backoff_delay_for_attempt`, with the product of two `u128` saturated. -/
def RetryPolicy.backoffDelayForAttempt (policy : RetryPolicy) (attempt : ℕ) : Duration :=
  let shift := min (attempt - 1) 31
  let factor := (1 <<< shift) % 2 ^ 128
  let base := policy.backoff_base.asMillis
  let max := policy.backoff_max.asMillis
  let delay_ms := min (min (base * factor) (2 ^ 128 - 1)) max
  .fromMillis (u64Millis delay_ms) (u64Millis_lt delay_ms)

/-- A duration has less than 1000 times as many. -/
theorem Duration.asMillis_lt (duration : Duration) : duration.asMillis < 2 ^ 64 * 1000 := by
  have hlt := duration.nanos_lt
  unfold asMillis
  omega

/-- And back to nanoseconds. -/
theorem Duration.nanos_fromMillis {millis : ℕ} (h : millis < 2 ^ 64) :
    (fromMillis millis h).nanos = millis * 10 ^ 6 := rfl

/-- The factor of an attempt. -/
def backoffFactor (attempt : ℕ) : ℕ := 2 ^ min (attempt - 1) 31

/-- The factor stays below the 32nd power of two. -/
theorem backoffFactor_le (attempt : ℕ) : backoffFactor attempt ≤ 2 ^ 31 :=
  Nat.pow_le_pow_right (by decide) (Nat.min_le_right _ _)

/-- The factor does not fall. -/
theorem backoffFactor_mono {attempt attempt' : ℕ} (h : attempt ≤ attempt') :
    backoffFactor attempt ≤ backoffFactor attempt' :=
  Nat.pow_le_pow_right (by decide) (by omega)

/-- The product of a base and a factor is no more than a `u128`. -/
theorem base_mul_factor_lt (duration : Duration) (attempt : ℕ) :
    duration.asMillis * backoffFactor attempt < 2 ^ 128 :=
  calc duration.asMillis * backoffFactor attempt
      ≤ (2 ^ 64 * 1000) * 2 ^ 31 :=
        Nat.mul_le_mul (Nat.le_of_lt duration.asMillis_lt) (backoffFactor_le attempt)
    _ < 2 ^ 128 := by decide

/-- No step of the computation saturates but the last one, to the milliseconds of a `u64`. -/
theorem RetryPolicy.nanos_backoffDelay (policy : RetryPolicy) (attempt : ℕ) :
    (policy.backoffDelayForAttempt attempt).nanos =
      min (min (policy.backoff_base.asMillis * backoffFactor attempt) policy.backoff_max.asMillis)
        (2 ^ 64 - 1) * 10 ^ 6 := by
  have hfactor : (1 <<< min (attempt - 1) 31) % 2 ^ 128 = backoffFactor attempt := by
    rw [Nat.one_shiftLeft]
    exact Nat.mod_eq_of_lt ((backoffFactor_le attempt).trans_lt (by decide))
  have hproduct := base_mul_factor_lt policy.backoff_base attempt
  unfold backoffDelayForAttempt
  rw [Duration.nanos_fromMillis, u64Millis_eq, hfactor,
    Nat.min_eq_left (Nat.le_sub_one_of_lt hproduct)]

/-- The delay does not fall. -/
theorem RetryPolicy.backoffDelay_mono (policy : RetryPolicy) {attempt attempt' : ℕ}
    (h : attempt ≤ attempt') :
    (policy.backoffDelayForAttempt attempt).nanos ≤
      (policy.backoffDelayForAttempt attempt').nanos := by
  rw [nanos_backoffDelay, nanos_backoffDelay]
  have hproduct := Nat.mul_le_mul_left policy.backoff_base.asMillis (backoffFactor_mono h)
  exact Nat.mul_le_mul_right _ (min_le_min_right _ (min_le_min_right _ hproduct))

/-- The delay stays below its maximum. -/
theorem RetryPolicy.backoffDelay_le (policy : RetryPolicy) (attempt : ℕ) :
    (policy.backoffDelayForAttempt attempt).nanos ≤ policy.backoff_max.nanos := by
  rw [nanos_backoffDelay]
  have hmillis : policy.backoff_max.asMillis * 10 ^ 6 ≤ policy.backoff_max.nanos :=
    Nat.div_mul_le_self _ _
  refine le_trans (Nat.mul_le_mul_right _ ?_) hmillis
  exact (Nat.min_le_left _ _).trans (Nat.min_le_right _ _)

/-! ## The loops -/

/-- What the loops do, one thing after the other. -/
inductive RetryEvent (ρ : Type) where
  /-- The inner provider is called for an attempt. -/
  | called (attempt : ℕ)
  /-- The caller is given something. -/
  | gave (result : ρ)
  | slept (delay : Duration)

/-- What comes of an attempt: what the caller is given of it, and what else if it could be retried
but was the last one. -/
abbrev Round (ρ : Type) := List ρ × Option ρ

variable {ρ : Type}

/-- The loop, from an attempt on. -/
def retryLoop (policy : RetryPolicy) (round : ℕ → Round ρ) (attempt : ℕ) : List (RetryEvent ρ) :=
  .called attempt :: ((round attempt).1.map .gave ++
    match (round attempt).2 with
    | none => []
    | some last =>
      if policy.max_attempts ≤ attempt then [.gave last]
      else .slept (policy.backoffDelayForAttempt attempt) ::
        retryLoop policy round (attempt + 1))
  termination_by policy.max_attempts - attempt

/-- One round of `complete_with_retry`. -/
def completionRound : Except ProviderError Response → Round (Except ProviderError Response)
  | .ok response => ([.ok response], none)
  | .error error =>
    if isRetriableProviderError error then ([], some (.error error)) else ([.error error], none)

/-- `complete_with_retry`, with what the inner provider returns for each attempt. -/
def completeWithRetry (policy : RetryPolicy) (outcomes : ℕ → Except ProviderError Response) :
    List (RetryEvent (Except ProviderError Response)) :=
  retryLoop policy (fun attempt => completionRound (outcomes attempt)) 1

/-- What is sent if there are no more attempts. -/
def AttemptEnd.last : AttemptEnd → Option ProviderItem
  | .returned => none
  | .retriable last => some last

/-- One round of the loop of `ReliableProvider::stream`. A consumer that has left is noticed when an
item is sent to it; `leaves` is how many items of the attempt it still takes. -/
def streamRound (attempt : StreamAttempt) (leaves : Option ℕ) : Round ProviderItem :=
  let sent := (forwardAttempt attempt).1
  match leaves with
  | some taken =>
    if taken < sent.length then (sent.take (taken + 1), none)
    else (sent, (forwardAttempt attempt).2.last)
  | none => (sent, (forwardAttempt attempt).2.last)

/-- The loop of `ReliableProvider::stream`. -/
def streamWithRetry (policy : RetryPolicy) (attempts : ℕ → StreamAttempt)
    (leaves : ℕ → Option ℕ) : List (RetryEvent ProviderItem) :=
  retryLoop policy (fun attempt => streamRound (attempts attempt) (leaves attempt)) 1

/-! ## A run -/

variable {policy : RetryPolicy} {round : ℕ → Round ρ}

/-- What an attempt gives if it is the last one. -/
def Round.outcome (r : Round ρ) : List ρ := r.1 ++ r.2.toList

/-- The events of a run with so many calls: a sleep after each attempt but the last one. -/
def runEvents (policy : RetryPolicy) (given : ℕ → List ρ) (attempt calls : ℕ) :
    List (RetryEvent ρ) :=
  (List.range' attempt (calls - 1)).flatMap (fun k =>
      .called k :: ((given k).map .gave ++ [.slept (policy.backoffDelayForAttempt k)])) ++
    .called (attempt + (calls - 1)) :: (given (attempt + (calls - 1))).map .gave

/-- One more call in front. -/
theorem runEvents_succ (policy : RetryPolicy) (given : ℕ → List ρ) (attempt calls : ℕ) :
    runEvents policy given attempt (calls + 2) =
      .called attempt :: ((given attempt).map .gave ++
        .slept (policy.backoffDelayForAttempt attempt) ::
          runEvents policy given (attempt + 1) (calls + 1)) := by
  have hlast : attempt + (calls + 1) = attempt + 1 + calls := by omega
  unfold runEvents
  simp only [Nat.add_succ_sub_one, List.range'_succ, flatMap_cons, hlast, Nat.add_zero]
  simp

/-- What is given of an attempt of a run with so many calls. -/
def givenOf (round : ℕ → Round ρ) (last attempt : ℕ) : List ρ :=
  if attempt = last then (round attempt).outcome else (round attempt).1

/-- A run makes its calls for one attempt after the other, and each but the last one may be
retried. -/
theorem retryLoop_eq (policy : RetryPolicy) (round : ℕ → Round ρ) {attempt : ℕ}
    (h : attempt ≤ policy.max_attempts) :
    ∃ more, attempt + more ≤ policy.max_attempts ∧
      (∀ k, attempt ≤ k → k < attempt + more → (round k).2.isSome) ∧
      retryLoop policy round attempt =
        runEvents policy (givenOf round (attempt + more)) attempt (more + 1) := by
  induction hleft : policy.max_attempts - attempt generalizing attempt with
  | zero =>
    refine ⟨0, h, fun k hk hlt => by omega, ?_⟩
    rw [retryLoop]
    cases hlost : (round attempt).2 with
    | none => simp [runEvents, givenOf, Round.outcome, hlost]
    | some last =>
      dsimp only
      rw [if_pos (by omega)]
      simp [runEvents, givenOf, Round.outcome, hlost]
  | succ left ih =>
    cases hlost : (round attempt).2 with
    | none =>
      refine ⟨0, h, fun k hk hlt => by omega, ?_⟩
      rw [retryLoop, hlost]
      simp [runEvents, givenOf, Round.outcome, hlost]
    | some last =>
      obtain ⟨more, hle, hsome, hevents⟩ := @ih (attempt + 1) (by omega) (by omega)
      have hlast : attempt + (more + 1) = attempt + 1 + more := by omega
      refine ⟨more + 1, by omega, fun k hk hlt => ?_, ?_⟩
      · obtain rfl | hk' := Nat.eq_or_lt_of_le hk
        · rw [hlost]
          rfl
        · exact hsome k hk' (by omega)
      · rw [retryLoop, hlost]
        dsimp only
        rw [if_neg (by omega), hevents, runEvents_succ, hlast, givenOf,
          if_neg (show attempt ≠ attempt + 1 + more by omega)]

/-! ## What a run is made of -/

/-- The attempts that the inner provider is called for. -/
def calledAttempts (events : List (RetryEvent ρ)) : List ℕ :=
  events.filterMap fun
    | .called attempt => some attempt
    | _ => none

/-- The delays between them. -/
def sleptDelays (events : List (RetryEvent ρ)) : List Duration :=
  events.filterMap fun
    | .slept delay => some delay
    | _ => none

/-- What the caller is given. -/
def givenResults (events : List (RetryEvent ρ)) : List ρ :=
  events.filterMap fun
    | .gave result => some result
    | _ => none

section

variable (policy : RetryPolicy) (given : ℕ → List ρ) (attempt more : ℕ)

/-- The calls of a run, in order. -/
theorem calledAttempts_runEvents :
    calledAttempts (runEvents policy given attempt (more + 1)) =
      List.range' attempt (more + 1) := by
  induction more generalizing attempt with
  | zero =>
    simp [runEvents, calledAttempts, filterMap_map]
  | succ more ih =>
    have hrest := ih (attempt + 1)
    rw [runEvents_succ, List.range'_succ]
    unfold calledAttempts at hrest ⊢
    simp [filterMap_map, hrest]

/-- The delays between them. -/
theorem sleptDelays_runEvents :
    sleptDelays (runEvents policy given attempt (more + 1)) =
      (List.range' attempt more).map policy.backoffDelayForAttempt := by
  induction more generalizing attempt with
  | zero =>
    simp [runEvents, sleptDelays, filterMap_map]
  | succ more ih =>
    have hrest := ih (attempt + 1)
    rw [runEvents_succ, List.range'_succ]
    unfold sleptDelays at hrest ⊢
    simp [filterMap_map, hrest]

/-- And what they gave. -/
theorem givenResults_runEvents :
    givenResults (runEvents policy given attempt (more + 1)) =
      (List.range' attempt more).flatMap given ++ given (attempt + more) := by
  have hgave : ∀ results : List ρ, (results.map RetryEvent.gave).filterMap (fun
      | .gave result => some result
      | _ => none) = results := by
    intro results
    induction results with
    | nil => rfl
    | cons result results ih => rw [map_cons, filterMap_cons, ih]
  induction more generalizing attempt with
  | zero => simp [runEvents, givenResults, hgave]
  | succ more ih =>
    have hrest := ih (attempt + 1)
    have hlast : attempt + 1 + more = attempt + (more + 1) := by omega
    rw [runEvents_succ, List.range'_succ]
    unfold givenResults at hrest ⊢
    simp [hrest, hgave, hlast]

end

/-- What is expected of a run of a loop: it makes calls for the attempts up to a last one, within
the policy's number; another attempt is made after a loss only; it sleeps between the calls, for
delays that do not get shorter, and not for longer than the policy's maximum. -/
structure RetryBounds (policy : RetryPolicy) (lost : ℕ → Prop) (events : List (RetryEvent ρ))
    (last : ℕ) : Prop where
  last_le : 1 ≤ last ∧ last ≤ policy.max_attempts
  called : calledAttempts events = List.range' 1 last
  lost : ∀ attempt, 1 ≤ attempt → attempt < last → lost attempt
  increasing : (sleptDelays events).Pairwise fun delay delay' => delay.nanos ≤ delay'.nanos
  bounded : ∀ delay ∈ sleptDelays events, delay.nanos ≤ policy.backoff_max.nanos
  between : ∃ given, events = runEvents policy given 1 last

/-- A weaker reason for a retry. -/
theorem RetryBounds.mono {lost lost' : ℕ → Prop} {events : List (RetryEvent ρ)} {last : ℕ}
    (h : RetryBounds policy lost events last) (hlost : ∀ attempt, lost attempt → lost' attempt) :
    RetryBounds policy lost' events last :=
  { h with lost := fun attempt hpos hlt => hlost attempt (h.lost attempt hpos hlt) }

/-- A run meets its bounds, and what it gives last is the outcome of the last attempt. -/
theorem retryLoop_bounds (hattempts : 1 ≤ policy.max_attempts) (round : ℕ → Round ρ) :
    ∃ last, RetryBounds policy (fun attempt => (round attempt).2.isSome)
        (retryLoop policy round 1) last ∧
      givenResults (retryLoop policy round 1) =
        (List.range' 1 (last - 1)).flatMap (fun attempt => (round attempt).1) ++
          (round last).outcome := by
  obtain ⟨more, hle, hsome, hevents⟩ := retryLoop_eq policy round hattempts
  have hsum : 1 + more = more + 1 := Nat.add_comm _ _
  rw [hsum] at hle hsome hevents
  refine ⟨more + 1, ⟨⟨by omega, hle⟩, ?_, hsome, ?_, ?_, _, hevents⟩, ?_⟩
  · rw [hevents, calledAttempts_runEvents]
  · rw [hevents, sleptDelays_runEvents, pairwise_map]
    refine List.Pairwise.imp ?_ (pairwise_lt_range' 1)
    exact fun hlt => policy.backoffDelay_mono (Nat.le_of_lt hlt)
  · intro delay hdelay
    rw [hevents, sleptDelays_runEvents] at hdelay
    obtain ⟨attempt, -, rfl⟩ := mem_map.mp hdelay
    exact policy.backoffDelay_le attempt
  · have hbefore : ∀ attempt ∈ List.range' 1 more, givenOf round (more + 1) attempt =
        (round attempt).1 := by
      intro attempt hattempt
      rw [mem_range'_1] at hattempt
      exact if_neg (by omega)
    rw [hevents, givenResults_runEvents, hsum, givenOf, if_pos rfl, Nat.add_sub_cancel,
      flatMap_congr hbefore]

/-! ## The two loops -/

/-- There is an attempt. -/
theorem one_le_max_attempts (policy : RetryPolicy) : 1 ≤ policy.normalized.max_attempts :=
  Nat.le_max_right _ _

/-- A completion that failed, and may be tried again. -/
def FailedRetriably (outcome : Except ProviderError Response) : Prop :=
  ∃ error, outcome = .error error ∧ isRetriableProviderError error = true

/-- A round that asks for a retry gives nothing. -/
theorem completionRound_lost {outcome : Except ProviderError Response}
    (h : (completionRound outcome).2.isSome) :
    FailedRetriably outcome ∧ (completionRound outcome).1 = [] := by
  cases outcome with
  | ok response => exact absurd h Bool.false_ne_true
  | error error =>
    cases hretry : isRetriableProviderError error with
    | false => simp [completionRound, hretry] at h
    | true => exact ⟨⟨error, rfl, hretry⟩, by simp [completionRound, hretry]⟩

/-- The outcome of a round is that of its call. -/
theorem completionRound_outcome (outcome : Except ProviderError Response) :
    (completionRound outcome).outcome = [outcome] := by
  cases outcome with
  | ok response => rfl
  | error error =>
    unfold completionRound
    dsimp only
    split_ifs <;> rfl

/-- The stream cannot be set up because of a transient failure, or the connection is lost. -/
def IsLost : StreamAttempt → Prop
  | .error error => isRetriableProviderError error = true
  | .ok items => ∃ message, .ok (.connectionLost message) ∈ items

/-- Only a lost connection leads to a retry. -/
theorem forwardItems_lost {items : List ProviderItem} (h : (forwardItems items).2.last.isSome) :
    ∃ message, .ok (.connectionLost message) ∈ items := by
  induction items with
  | nil => exact absurd h (by decide)
  | cons item items ih =>
    by_cases hitem : ∃ message, item = .ok (.connectionLost message)
    · obtain ⟨message, rfl⟩ := hitem
      exact ⟨message, mem_cons_self⟩
    · rw [forwardItems] at h
      · obtain ⟨message, hmem⟩ := ih h
        exact ⟨message, mem_cons_of_mem _ hmem⟩
      · exact fun message hlost => hitem ⟨message, hlost⟩

/-- A round that asks for a retry was lost. -/
theorem streamRound_lost {attempt : StreamAttempt} {leaves : Option ℕ}
    (h : (streamRound attempt leaves).2.isSome) : IsLost attempt := by
  have hlast : (forwardAttempt attempt).2.last.isSome := by
    unfold streamRound at h
    cases leaves with
    | none => exact h
    | some taken =>
      dsimp only at h
      split at h
      case isTrue => exact absurd h Bool.false_ne_true
      case isFalse => exact h
  cases attempt with
  | ok items => exact forwardItems_lost hlast
  | error error =>
    cases hretry : isRetriableProviderError error with
    | true => exact hretry
    | false =>
      unfold forwardAttempt at hlast
      dsimp only at hlast
      rw [hretry] at hlast
      exact absurd hlast Bool.false_ne_true

/-- What is sent of an attempt if it is the last one. -/
def attemptOutcome (attempt : StreamAttempt) : List ProviderItem :=
  (forwardAttempt attempt).1 ++ (forwardAttempt attempt).2.last.toList

/-- Both loops keep to the policy, for any outcomes of the inner provider, and end with the last
one; no delay is cut off but at the milliseconds of a `u64`. -/
theorem retries_bounded (policy : RetryPolicy) :
    (∀ outcomes : ℕ → Except ProviderError Response, ∃ last,
      RetryBounds policy.normalized (fun attempt => FailedRetriably (outcomes attempt))
          (completeWithRetry policy.normalized outcomes) last ∧
        givenResults (completeWithRetry policy.normalized outcomes) = [outcomes last]) ∧
    (∀ (attempts : ℕ → StreamAttempt) (leaves : ℕ → Option ℕ), ∃ last,
      RetryBounds policy.normalized (fun attempt => IsLost (attempts attempt))
          (streamWithRetry policy.normalized attempts leaves) last ∧
        (leaves last = none → attemptOutcome (attempts last) <:+
          givenResults (streamWithRetry policy.normalized attempts leaves))) ∧
    ∀ attempt, policy.normalized.backoff_base.asMillis * backoffFactor attempt < 2 ^ 128 ∧
      (policy.normalized.backoffDelayForAttempt attempt).nanos =
        min (min (policy.normalized.backoff_base.asMillis * backoffFactor attempt)
          policy.normalized.backoff_max.asMillis) (2 ^ 64 - 1) * 10 ^ 6 := by
  refine ⟨fun outcomes => ?_, fun attempts leaves => ?_, fun attempt =>
    ⟨base_mul_factor_lt _ attempt, RetryPolicy.nanos_backoffDelay _ attempt⟩⟩
  · obtain ⟨last, hbounds, hgiven⟩ := retryLoop_bounds (one_le_max_attempts policy)
      fun attempt => completionRound (outcomes attempt)
    refine ⟨last, hbounds.mono fun _ hlost => (completionRound_lost hlost).1, ?_⟩
    have hbefore : ∀ attempt ∈ List.range' 1 (last - 1),
        (completionRound (outcomes attempt)).1 = [] := by
      intro attempt hattempt
      rw [mem_range'_1] at hattempt
      exact (completionRound_lost (hbounds.lost attempt (by omega) (by omega))).2
    refine hgiven.trans ?_
    rw [flatMap_eq_nil_iff.mpr hbefore, completionRound_outcome, nil_append]
  · obtain ⟨last, hbounds, hgiven⟩ := retryLoop_bounds (one_le_max_attempts policy)
      fun attempt => streamRound (attempts attempt) (leaves attempt)
    refine ⟨last, hbounds.mono fun _ hlost => streamRound_lost hlost, fun hstays => ?_⟩
    have hlast : (streamRound (attempts last) (leaves last)).outcome =
        attemptOutcome (attempts last) := by
      rw [hstays]
      rfl
    rw [hlast] at hgiven
    exact ⟨_, hgiven.symm⟩

end Oxydra
