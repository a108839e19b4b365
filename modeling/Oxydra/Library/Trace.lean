import Mathlib.Data.List.DropRight

/-!
# What holds before each occurrence of an event

A trace is a list of events in the order in which they happened. `Before x P` says that `P` holds of
the part of a trace before each occurrence of `x`; it is built up as a trace is, at its end. The
last occurrence of `x` cuts a trace in two, `uptoLast x` and `sinceLast x`.
-/

namespace Trace

open List

variable {α : Type*} {x : α} {P : List α → Prop} {a b l : List α}

/-- `P` holds of what comes before each occurrence of `x`. -/
def Before (x : α) (P : List α → Prop) (l : List α) : Prop :=
  ∀ pre post, l = pre ++ x :: post → P pre

/-- Nothing is asked of a trace without the event. -/
theorem before_of_not_mem (h : x ∉ l) : Before x P l := by
  rintro pre post rfl
  simp at h

/-- Where an element of two lists, one after the other, stands: in the first, or in the second. -/
theorem split_append {pre post : List α} (h : a ++ b = pre ++ x :: post) :
    (∃ mid, a = pre ++ x :: mid ∧ post = mid ++ b) ∨
      ∃ mid, pre = a ++ mid ∧ b = mid ++ x :: post := by
  rcases append_eq_append_iff.mp h with ⟨mid, hpre, hb⟩ | ⟨mid, ha, hx⟩
  · exact Or.inr ⟨mid, hpre, hb⟩
  · cases mid with
    | nil => exact Or.inr ⟨[], by simpa using ha.symm, by simpa using hx.symm⟩
    | cons y mid =>
      simp only [cons_append, List.cons.injEq] at hx
      obtain ⟨rfl, rfl⟩ := hx
      exact Or.inl ⟨mid, ha, rfl⟩

/-- The occurrences in two traces, one after the other. -/
theorem before_append :
    Before x P (a ++ b) ↔ Before x P a ∧ Before x (fun pre => P (a ++ pre)) b := by
  constructor
  · intro h
    refine ⟨fun pre post hl => h pre (post ++ b) (by simp [hl]), fun pre post hl => ?_⟩
    exact h (a ++ pre) post (by simp [hl])
  · rintro ⟨ha, hb⟩ pre post hl
    rcases split_append hl with ⟨mid, hmid, -⟩ | ⟨mid, rfl, hmid⟩
    · exact ha pre mid hmid
    · exact hb mid post hmid

/-- The event itself, once more. -/
theorem before_snoc_self : Before x P (l ++ [x]) ↔ Before x P l ∧ P l := by
  rw [before_append]
  refine and_congr_right fun _ => ⟨fun h => ?_, fun h pre post hl => ?_⟩
  · simpa using h [] [] rfl
  · obtain ⟨rfl, -⟩ : pre = [] ∧ _ := by
      cases pre with
      | nil => exact ⟨rfl, trivial⟩
      | cons y pre => simp at hl
    simpa using h

/-- An event that comes only after fewer than `n` of its kind comes at most `n` times. -/
theorem Before.count_le [DecidableEq α] {n : ℕ}
    (h : Before x (fun pre => pre.count x < n) l) : l.count x ≤ n := by
  induction l using List.reverseRecOn with
  | nil => simp
  | append_singleton l y ih =>
    by_cases hy : y = x
    · subst hy
      obtain ⟨-, hlt⟩ := before_snoc_self.mp h
      rw [count_append, count_singleton_self]
      exact hlt
    · rw [count_append, count_singleton, if_neg (by simpa using hy), Nat.add_zero]
      exact ih (before_append.mp h).1

section Last

variable [DecidableEq α]

/-- The trace up to the last occurrence of `x`, with it. -/
def uptoLast (x : α) (l : List α) : List α := l.rdropWhile (· ≠ x)

/-- The trace after the last occurrence of `x`. -/
def sinceLast (x : α) (l : List α) : List α := l.rtakeWhile (· ≠ x)

/-- The two parts make up the trace. -/
theorem uptoLast_append_sinceLast : uptoLast x l ++ sinceLast x l = l :=
  rdropWhile_append_rtakeWhile

/-- Other events come after the last occurrence. -/
theorem uptoLast_append (h : x ∉ b) : uptoLast x (a ++ b) = uptoLast x a := by
  induction b using List.reverseRecOn with
  | nil => rw [append_nil]
  | append_singleton b y ih =>
    have hy : y ≠ x := by
      rintro rfl
      simp at h
    have hb : x ∉ b := fun hmem => h (by simp [hmem])
    rw [← append_assoc, uptoLast, rdropWhile_concat_pos _ _ _ (by simpa using hy)]
    exact ih hb

/-- The event itself is the last occurrence from then on. -/
theorem uptoLast_snoc : uptoLast x (a ++ [x]) = a ++ [x] :=
  rdropWhile_concat_neg _ _ _ (by simp)

end Last

end Trace
