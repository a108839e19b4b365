import Oxydra.Runtime.ProviderResponse

/-!
# Retried streams

`ReliableProvider::stream` of `crates/provider/src/retry.rs` forwards the items of its inner provider
as they arrive. Where the connection is lost, or the stream cannot be set up, it makes another
attempt, from scratch, and forwards its items to the same consumer.

So the consumer sees the items of all attempts, one after the other (`readStream_forwardStream`).
`deliversOneAttempt_iff` says when these are the items of one attempt: no attempt that brings an item,
or ends as it should, comes after one that brought an item.
-/

namespace Oxydra

open List

variable {items : List ProviderItem}

/-! ## The loop -/

/-- A `Duration`, in nanoseconds: its seconds are a `u64`. -/
structure Duration where
  nanos : ℕ
  nanos_lt : nanos < 2 ^ 64 * 10 ^ 9
  deriving DecidableEq, Repr

/-- `Duration::from_millis`, of a `u64`. -/
def Duration.fromMillis (millis : ℕ) (h : millis < 2 ^ 64) : Duration :=
  ⟨millis * 10 ^ 6, by omega⟩

/-- `Duration::as_millis`: a part of a millisecond is dropped. -/
def Duration.asMillis (duration : Duration) : ℕ := duration.nanos / 10 ^ 6

structure RetryPolicy where
  max_attempts : ℕ := 3
  backoff_base : Duration := .fromMillis 250 (by decide)
  backoff_max : Duration := .fromMillis 2000 (by decide)
  deriving DecidableEq, Repr

theorem one_lt_u64 : 1 < 2 ^ 64 := by decide

/-- `RetryPolicy::normalized`. -/
def RetryPolicy.normalized (policy : RetryPolicy) : RetryPolicy :=
  let backoff_base :=
    if policy.backoff_base.nanos = 0 then .fromMillis 1 one_lt_u64 else policy.backoff_base
  { max_attempts := max policy.max_attempts 1
    backoff_base
    backoff_max :=
      if policy.backoff_max.nanos < backoff_base.nanos then backoff_base else policy.backoff_max }

/-- `is_retriable_provider_error`. -/
def isRetriableProviderError : ProviderError → Bool
  | .transport _ _ => true
  | .httpStatus _ status _ => status == 429 || 500 ≤ status
  | _ => false

/-- What an attempt of the inner provider does: an error when the stream is set up, or the items of
the stream until it ends. -/
abbrev StreamAttempt := Except ProviderError (List ProviderItem)

/-- How an attempt leaves the loop: it returns, or it fails with what is sent if there are no more
attempts. -/
inductive AttemptEnd where
  | returned
  | retriable (last : ProviderItem)
  deriving DecidableEq, Repr

/-- The items that are forwarded before the connection is lost, and how the attempt ends. -/
def forwardItems : List ProviderItem → List ProviderItem × AttemptEnd
  | [] => ([], .returned)
  | .ok (.connectionLost message) :: _ => ([], .retriable (.ok (.connectionLost message)))
  | item :: items => (item :: (forwardItems items).1, (forwardItems items).2)

/-- One round of the loop. -/
def forwardAttempt : StreamAttempt → List ProviderItem × AttemptEnd
  | .error error =>
    if isRetriableProviderError error then ([], .retriable (.error error))
    else ([.error error], .returned)
  | .ok items => forwardItems items

/-- The loop of `ReliableProvider::stream` from an attempt on, with `left` more attempts. -/
def forwardFrom (attempts : ℕ → StreamAttempt) (attempt : ℕ) : ℕ → List ProviderItem
  | 0 =>
    match forwardAttempt (attempts attempt) with
    | (sent, .returned) => sent
    | (sent, .retriable last) => sent ++ [last]
  | left + 1 =>
    match forwardAttempt (attempts attempt) with
    | (sent, .returned) => sent
    | (sent, .retriable _) => sent ++ forwardFrom attempts (attempt + 1) left

/-- `ReliableProvider::stream`: all that is sent to the consumer. The attempts are counted from 1. -/
def forwardStream (policy : RetryPolicy) (attempts : ℕ → StreamAttempt) : List ProviderItem :=
  forwardFrom attempts 1 (policy.normalized.max_attempts - 1)

/-! ## The attempts -/

/-- What a reader of one attempt sees. -/
def readAttempt : StreamAttempt → List StreamItem × StreamEnd
  | .error error => ([], .failed error)
  | .ok items => readStream items

/-- Another attempt is made: the connection is lost before an error arrives, or the stream cannot be
set up because of a transient failure. -/
def IsAbandoned : StreamAttempt → Prop
  | .error error => isRetriableProviderError error
  | .ok items => ∃ message, (readStream items).2 = .lost message

instance (a : StreamAttempt) : Decidable (IsAbandoned a) :=
  match a with
  | .error error => inferInstanceAs (Decidable (isRetriableProviderError error = true))
  | .ok items =>
    match h : (readStream items).2 with
    | .lost message => isTrue ⟨message, h⟩
    | .closed | .failed _ => isFalse fun ⟨message, hlost⟩ => by simp [h] at hlost

/-- The attempts that the consumer reads: all before them are abandoned. -/
def IsReached (policy : RetryPolicy) (attempts : ℕ → StreamAttempt) (k : ℕ) : Prop :=
  1 ≤ k ∧ k ≤ policy.normalized.max_attempts ∧ ∀ i, 1 ≤ i → i < k → IsAbandoned (attempts i)

/-- What is forwarded of an attempt that is abandoned, and then of others, reads as the two one after
the other. -/
theorem readStream_append (rest : List ProviderItem) {message : String}
    (h : (readStream items).2 = .lost message) :
    readStream ((forwardItems items).1 ++ rest) =
        ((readStream items).1 ++ (readStream rest).1, (readStream rest).2) ∧
      (forwardItems items).2 = .retriable (.ok (.connectionLost message)) := by
  induction items with
  | nil => simp [readStream] at h
  | cons item items ih =>
    cases item with
    | error error => simp [readStream] at h
    | ok item =>
      by_cases hlost : ∃ m, item = .connectionLost m
      · obtain ⟨m, rfl⟩ := hlost
        simp only [readStream, StreamEnd.lost.injEq] at h
        subst h
        exact ⟨rfl, rfl⟩
      · have hcons : forwardItems (.ok item :: items) =
            (.ok item :: (forwardItems items).1, (forwardItems items).2) := by
          cases item with
          | connectionLost m => exact absurd ⟨m, rfl⟩ hlost
          | _ => rfl
        rw [readStream_cons (not_exists.mp hlost)] at h ⊢
        rw [hcons, cons_append, readStream_cons (not_exists.mp hlost), (ih h).1]
        exact ⟨rfl, (ih h).2⟩

/-- Behind an error, the reader sees no more of what is forwarded. -/
theorem readStream_failed {items rest : List ProviderItem} {error : ProviderError}
    (h : (readStream items).2 = .failed error) :
    readStream ((forwardItems items).1 ++ rest) = readStream items := by
  induction items with
  | nil => simp [readStream] at h
  | cons item items ih =>
    cases item with
    | error error => rfl
    | ok item =>
      cases item with
      | connectionLost m => simp [readStream] at h
      | _ =>
        rw [readStream_cons (by simp)] at h ⊢
        rw [← ih h]
        rfl

/-- A stream that ends without an error is forwarded as it is. -/
theorem forwardItems_closed (h : (readStream items).2 = .closed) :
    forwardItems items = (items, .returned) := by
  induction items with
  | nil => rfl
  | cons item items ih =>
    cases item with
    | error error => simp [readStream] at h
    | ok item =>
      cases item with
      | connectionLost m => simp [readStream] at h
      | _ =>
        rw [readStream_cons (by simp)] at h
        rw [forwardItems, ih h]
        simp

section Forwarded

variable {attempts : ℕ → StreamAttempt} {attempt left : ℕ}

theorem forwardFrom_returned {sent : List ProviderItem}
    (h : forwardAttempt (attempts attempt) = (sent, .returned)) :
    forwardFrom attempts attempt left = sent := by
  cases left <;> simp [forwardFrom, h]

theorem forwardFrom_retriable {sent : List ProviderItem} {last : ProviderItem}
    (h : forwardAttempt (attempts attempt) = (sent, .retriable last)) :
    forwardFrom attempts attempt left =
      sent ++ if left = 0 then [last] else forwardFrom attempts (attempt + 1) (left - 1) := by
  cases left <;> simp [forwardFrom, h]

/-- Whatever comes after it, what is forwarded begins with what the attempt brings. -/
theorem exists_forwardFrom_append (attempts : ℕ → StreamAttempt) (attempt left : ℕ) :
    ∃ rest, forwardFrom attempts attempt left = (forwardAttempt (attempts attempt)).1 ++ rest := by
  cases hround : forwardAttempt (attempts attempt) with
  | mk sent ending =>
    cases ending with
    | returned => exact ⟨[], by rw [forwardFrom_returned hround, append_nil]⟩
    | retriable last => exact ⟨_, forwardFrom_retriable hround⟩

/-- A reader of an attempt that is the last one, or is not abandoned, sees this attempt. -/
theorem readStream_forwardFrom_last (h : left = 0 ∨ ¬IsAbandoned (attempts attempt)) :
    readStream (forwardFrom attempts attempt left) = readAttempt (attempts attempt) := by
  cases hattempt : attempts attempt with
  | error error =>
    by_cases hretriable : isRetriableProviderError error
    · have hround : forwardAttempt (attempts attempt) = ([], .retriable (.error error)) := by
        simp [hattempt, forwardAttempt, hretriable]
      have hlast : left = 0 := h.resolve_right (by simp [hattempt, IsAbandoned, hretriable])
      rw [forwardFrom_retriable hround, if_pos hlast]
      rfl
    · have hround : forwardAttempt (attempts attempt) = ([.error error], .returned) := by
        simp [hattempt, forwardAttempt, hretriable]
      rw [forwardFrom_returned hround]
      rfl
  | ok items =>
    have hitems : forwardAttempt (attempts attempt) = forwardItems items := by
      rw [hattempt]
      rfl
    cases hend : (readStream items).2 with
    | closed =>
      rw [forwardFrom_returned (hitems.trans (forwardItems_closed hend))]
      rfl
    | failed error =>
      obtain ⟨rest, hrest⟩ := exists_forwardFrom_append attempts attempt left
      rw [hrest, hitems, readStream_failed hend]
      rfl
    | lost message =>
      obtain ⟨hread, hending⟩ :=
        readStream_append [.ok (.connectionLost message)] hend
      have hlast : left = 0 := h.resolve_right (by simp [hattempt, IsAbandoned, hend])
      rw [forwardFrom_retriable (hitems.trans (Prod.ext rfl hending)), if_pos hlast, hread]
      exact Prod.ext (append_nil _) hend.symm

/-- A reader of an attempt that is abandoned sees its items, and then the next attempt. -/
theorem readStream_forwardFrom_next (h : IsAbandoned (attempts attempt)) :
    readStream (forwardFrom attempts attempt (left + 1)) =
      ((readAttempt (attempts attempt)).1 ++
          (readStream (forwardFrom attempts (attempt + 1) left)).1,
        (readStream (forwardFrom attempts (attempt + 1) left)).2) := by
  cases hattempt : attempts attempt with
  | error error =>
    rw [hattempt] at h
    have hround : forwardAttempt (attempts attempt) = ([], .retriable (.error error)) := by
      simp [hattempt, forwardAttempt, show isRetriableProviderError error = true from h]
    rw [forwardFrom_retriable hround]
    rfl
  | ok items =>
    rw [hattempt] at h
    obtain ⟨message, hend⟩ := h
    have hitems : forwardAttempt (attempts attempt) = forwardItems items := by
      rw [hattempt]
      rfl
    obtain ⟨hread, hending⟩ :=
      readStream_append (forwardFrom attempts (attempt + 1) left) hend
    rw [forwardFrom_retriable (hitems.trans (Prod.ext rfl hending)), if_neg (Nat.succ_ne_zero _),
      Nat.add_sub_cancel, hread]
    rfl

/-- The consumer sees the items of the attempts from one on to the last that is made, and how the last
one ends. -/
theorem readStream_forwardFrom (attempts : ℕ → StreamAttempt) (attempt left : ℕ) :
    ∃ n, attempt ≤ n ∧ n ≤ attempt + left ∧
    (∀ i, attempt ≤ i → i < n → IsAbandoned (attempts i)) ∧
    (n = attempt + left ∨ ¬IsAbandoned (attempts n)) ∧
    readStream (forwardFrom attempts attempt left) =
      ((List.range' attempt (n + 1 - attempt)).flatMap fun i => (readAttempt (attempts i)).1,
        (readAttempt (attempts n)).2) := by
  induction left generalizing attempt with
  | zero =>
    refine ⟨attempt, le_rfl, le_rfl, fun i hi hlt => absurd hi (by omega), .inl rfl, ?_⟩
    rw [readStream_forwardFrom_last (.inl rfl), Nat.add_sub_cancel_left]
    simp
  | succ left ih =>
    by_cases habandoned : IsAbandoned (attempts attempt)
    · obtain ⟨n, hfrom, hto, hall, hlast, hread⟩ := ih (attempt + 1)
      refine ⟨n, by omega, by omega, fun i hi hlt => ?_, ?_, ?_⟩
      · rcases Nat.eq_or_lt_of_le hi with rfl | hi
        · exact habandoned
        · exact hall i hi hlt
      · exact hlast.imp_left fun h => by omega
      · rw [readStream_forwardFrom_next habandoned, hread,
          show n + 1 - attempt = n + 1 - (attempt + 1) + 1 by omega, List.range'_succ,
          flatMap_cons]
    · refine ⟨attempt, le_rfl, by omega, fun i hi hlt => absurd hi (by omega), .inr habandoned, ?_⟩
      rw [readStream_forwardFrom_last (.inr habandoned), Nat.add_sub_cancel_left]
      simp

end Forwarded

/-! ## One attempt -/

variable {policy : RetryPolicy} {attempts : ℕ → StreamAttempt}

/-- The attempts that are reached are the first ones, and the consumer sees their items, one attempt
after the other. -/
theorem readStream_forwardStream (policy : RetryPolicy) (attempts : ℕ → StreamAttempt) :
    ∃ n, 1 ≤ n ∧ (∀ k, IsReached policy attempts k ↔ 1 ≤ k ∧ k ≤ n) ∧
      readStream (forwardStream policy attempts) =
        ((List.range' 1 n).flatMap fun i => (readAttempt (attempts i)).1,
          (readAttempt (attempts n)).2) := by
  have hmax : 1 ≤ policy.normalized.max_attempts := le_max_right _ _
  obtain ⟨n, hfrom, hto, hall, hlast, hread⟩ :=
    readStream_forwardFrom attempts 1 (policy.normalized.max_attempts - 1)
  refine ⟨n, hfrom, fun k => ⟨?_, ?_⟩, by rwa [Nat.add_sub_cancel] at hread⟩
  · rintro ⟨hpos, hle, hbefore⟩
    refine ⟨hpos, ?_⟩
    by_contra hlt
    rcases hlast with heq | hnot
    · omega
    · exact hnot (hbefore n hfrom (by omega))
  · rintro ⟨hpos, hle⟩
    exact ⟨hpos, by omega, fun i hi hlt => hall i hi (by omega)⟩

/-- The items that are forwarded, up to a final error, are those of one attempt, which ends as it
should if the stream does; and the response that is assembled is the attempt's. -/
def DeliversOneAttempt (json : JsonText) (provider : String) (policy : RetryPolicy)
    (attempts : ℕ → StreamAttempt) : Prop :=
  ∃ k, IsReached policy attempts k ∧
    (readStream (forwardStream policy attempts)).1 = (readAttempt (attempts k)).1 ∧
    ((readStream (forwardStream policy attempts)).2 = .closed →
      (readAttempt (attempts k)).2 = .closed) ∧
    ∀ response, streamResponse json provider (forwardStream policy attempts) = .ok response →
      ∃ items, attempts k = .ok items ∧ streamResponse json provider items = .ok response

/-- The condition on the inner provider: among the attempts that are made, none that brings an item or
ends as it should comes after one that brought an item. -/
def OneAttemptBrings (policy : RetryPolicy) (attempts : ℕ → StreamAttempt) : Prop :=
  ∀ i j, 1 ≤ i → i < j → IsReached policy attempts j → (readAttempt (attempts i)).1 ≠ [] →
    (readAttempt (attempts j)).1 = [] ∧ (readAttempt (attempts j)).2 ≠ .closed

/-- Lists put one after the other are one of them exactly when the others are empty. -/
theorem flatMap_eq_iff {α β : Type*} {l : List α} {f : α → List β} {k : α} (hl : l.Nodup)
    (hk : k ∈ l) : l.flatMap f = f k ↔ ∀ x ∈ l, x ≠ k → f x = [] := by
  obtain ⟨a, b, rfl⟩ := append_of_mem hk
  have hnot : k ∉ a ∧ k ∉ b := by
    have hcons := nodup_append.mp hl
    exact ⟨fun h => hcons.2.2 k h k mem_cons_self rfl, (nodup_cons.mp hcons.2.1).1⟩
  rw [flatMap_append, flatMap_cons]
  constructor
  · intro heq x hx hne
    have hlength := congrArg List.length heq
    rw [length_append, length_append] at hlength
    have ha : a.flatMap f = [] := eq_nil_of_length_eq_zero (by omega)
    have hb : b.flatMap f = [] := eq_nil_of_length_eq_zero (by omega)
    rw [flatMap_eq_nil_iff] at ha hb
    rw [mem_append, mem_cons] at hx
    rcases hx with hx | rfl | hx
    · exact ha x hx
    · exact absurd rfl hne
    · exact hb x hx
  · intro hall
    have ha : a.flatMap f = [] := flatMap_eq_nil_iff.mpr fun x hx =>
      hall x (mem_append_left _ hx) (ne_of_mem_of_not_mem hx hnot.1)
    have hb : b.flatMap f = [] := flatMap_eq_nil_iff.mpr fun x hx =>
      hall x (mem_append_right _ (mem_cons_of_mem _ hx)) (ne_of_mem_of_not_mem hx hnot.2)
    rw [ha, hb, nil_append, append_nil]

/-- An abandoned attempt does not end as it should. -/
theorem IsAbandoned.not_closed {a : StreamAttempt} (h : IsAbandoned a) :
    (readAttempt a).2 ≠ .closed := by
  cases a with
  | error error => simp [readAttempt]
  | ok items =>
    obtain ⟨message, hend⟩ := h
    simp [readAttempt, hend]

/-- A response is assembled only of a stream that ends as it should. -/
theorem closed_of_streamResponse {json : JsonText} {provider : String} {response : Response}
    (h : streamResponse json provider items = .ok response) :
    (readStream items).2 = .closed := by
  unfold streamResponse at h
  rw [collectStream_eq] at h
  cases hend : (readStream items).2 with
  | closed => rfl
  | _ => simp [hend, bind, Except.bind] at h

/-- The stream that is forwarded delivers one attempt exactly when one attempt brings it. -/
theorem deliversOneAttempt_iff (json : JsonText) (provider : String) (policy : RetryPolicy)
    (attempts : ℕ → StreamAttempt) :
    DeliversOneAttempt json provider policy attempts ↔ OneAttemptBrings policy attempts := by
  obtain ⟨n, hn, hreached, hread⟩ := readStream_forwardStream policy attempts
  have hmem : ∀ k, k ∈ List.range' 1 n ↔ 1 ≤ k ∧ k ≤ n := fun k => by
    rw [mem_range'_1]
    omega
  have hnodup : (List.range' 1 n).Nodup := nodup_range'
  constructor
  · rintro ⟨k, hk, hitems, hclosed, -⟩ i j hi hij hj hbrings
    rw [hread] at hitems hclosed
    have hempty := (flatMap_eq_iff hnodup ((hmem k).mpr ((hreached k).mp hk))).mp hitems
    have hjn := (hreached j).mp hj
    obtain rfl : i = k := by
      by_contra hne
      exact hbrings (hempty i ((hmem i).mpr ⟨hi, by omega⟩) hne)
    refine ⟨hempty j ((hmem j).mpr hjn) (by omega), fun hend => ?_⟩
    -- an attempt that ends as it should is the last one
    have hlast : j = n := by
      by_contra hne
      exact (((hreached n).mpr ⟨hn, le_rfl⟩).2.2 j hjn.1 (by omega)).not_closed hend
    exact (hj.2.2 i hi hij).not_closed (hclosed (hlast ▸ hend))
  · intro hcond
    obtain ⟨k, hk, hempty, hclosed⟩ : ∃ k, IsReached policy attempts k ∧
        (∀ i ∈ List.range' 1 n, i ≠ k → (readAttempt (attempts i)).1 = []) ∧
        ((readAttempt (attempts n)).2 = .closed → k = n) := by
      by_cases hnone : ∃ i, 1 ≤ i ∧ i ≤ n ∧ (readAttempt (attempts i)).1 ≠ []
      · obtain ⟨i, hi, hin, hbrings⟩ := hnone
        refine ⟨i, (hreached i).mpr ⟨hi, hin⟩, fun j hj hne => ?_, fun hend => ?_⟩
        · by_contra hother
          have hjn := (hmem j).mp hj
          rcases lt_or_gt_of_ne hne with hlt | hlt
          · exact hbrings (hcond j i hjn.1 hlt ((hreached i).mpr ⟨hi, hin⟩) hother).1
          · exact hother (hcond i j hi hlt ((hreached j).mpr hjn) hbrings).1
        · by_contra hne
          exact (hcond i n hi (by omega) ((hreached n).mpr ⟨hn, le_rfl⟩) hbrings).2 hend
      · refine ⟨n, (hreached n).mpr ⟨hn, le_rfl⟩, fun i hi _ => ?_, fun _ => rfl⟩
        by_contra hbrings
        exact hnone ⟨i, ((hmem i).mp hi).1, ((hmem i).mp hi).2, hbrings⟩
    have hitems : (readStream (forwardStream policy attempts)).1 = (readAttempt (attempts k)).1 := by
      rw [hread]
      exact (flatMap_eq_iff hnodup ((hmem k).mpr ((hreached k).mp hk))).mpr hempty
    have hends : (readStream (forwardStream policy attempts)).2 = .closed →
        (readAttempt (attempts k)).2 = .closed := by
      rw [hread]
      exact fun hend => hclosed hend ▸ hend
    refine ⟨k, hk, hitems, hends, fun response hresponse => ?_⟩
    have hend := closed_of_streamResponse hresponse
    cases hattempt : attempts k with
    | error error => simp [hattempt, readAttempt] at hends hend; exact absurd hend hends
    | ok items =>
      refine ⟨items, rfl, ?_⟩
      rw [← hresponse]
      refine streamResponse_congr (Prod.ext ?_ ?_)
      · rw [hitems, hattempt]
        rfl
      · rw [hend]
        have hsame := hends hend
        rwa [hattempt] at hsame

/-- The connection is lost behind the first text, and the next attempt brings the whole text. -/
def brokenThenWhole (attempt : ℕ) : StreamAttempt :=
  if attempt = 1 then .ok [.ok (.text "Hel"), .ok (.connectionLost "reset by peer")]
  else .ok [.ok (.text "Hello")]

/-- The response has the text of the abandoned attempt in front of the text of the other one. -/
theorem brokenThenWhole_concatenated :
    (∃ response, streamResponse textOnlyJson "openai" (forwardStream {} brokenThenWhole) =
        .ok response ∧ response.message.content = some "HelHello") ∧
      ¬DeliversOneAttempt textOnlyJson "openai" {} brokenThenWhole := by
  refine ⟨⟨_, rfl, by decide⟩, ?_⟩
  rintro ⟨k, -, hitems, -⟩
  have htwo : (readStream (forwardStream {} brokenThenWhole)).1.length = 2 := by decide
  have hone : (readAttempt (brokenThenWhole k)).1.length = 1 := by
    unfold brokenThenWhole
    split_ifs <;> rfl
  rw [hitems, hone] at htwo
  exact absurd htwo (by decide)

end Oxydra
