import Mathlib.Algebra.BigOperators.Group.Finset.Piecewise
import Oxydra.Library.Lts
import Oxydra.Library.Totals

/-!
# Threads that share a state

Any number of threads, each with a state of its own, act on one shared state. One thread takes one
atomic step at a time, in any order. `interleave` is the transition system of all interleavings, and
`sum_update` and `count_update` say how a total over the threads, and the number of those in a
certain state, move when one of them steps.
-/

namespace Lts

open scoped BigOperators

/-- A shared state of type `γ`, and a state of type `κ` for each thread. -/
structure Threads (ι γ κ : Type*) where
  shared : γ
  threads : ι → κ

/-- One thread, or two, have numbers that are literals. -/
instance neZero_one : NeZero 1 := ⟨Nat.one_ne_zero⟩

instance neZero_two : NeZero 2 := ⟨Nat.succ_ne_zero 1⟩

variable {ι γ κ a : Type*} [DecidableEq ι]

/-- One atomic step of one thread. A label is the thread that steps and its action. -/
def threadStep (step : γ → κ → a → Option (γ × κ)) (s : Threads ι γ κ) (l : ι × a) :
    Option (Threads ι γ κ) :=
  match step s.shared (s.threads l.1) l.2 with
  | some (g, k) => some ⟨g, Function.update s.threads l.1 k⟩
  | none => none

/-- All interleavings of the atomic steps `step`, from the states that satisfy `init`. -/
def interleave (init : Threads ι γ κ → Prop) (step : γ → κ → a → Option (γ × κ)) :
    System (Threads ι γ κ) (ι × a) := ofStep init (threadStep step)

/-- What a step of an interleaving is: one thread's step on the shared state and on its own. -/
theorem interleave_step {init : Threads ι γ κ → Prop} {step : γ → κ → a → Option (γ × κ)}
    {s t : Threads ι γ κ} {i : ι} {b : a} (h : (interleave init step).step s (i, b) t) :
    ∃ g k, step s.shared (s.threads i) b = some (g, k) ∧
      t = ⟨g, Function.update s.threads i k⟩ := by
  change threadStep step s (i, b) = some t at h
  unfold threadStep at h
  split at h
  · next g k hstep => exact ⟨g, k, hstep, (Option.some.inj h).symm⟩
  · simp at h

/-- A thread's step is a step of the interleaving. -/
theorem interleave_of_step {init : Threads ι γ κ → Prop} {step : γ → κ → a → Option (γ × κ)}
    {s : Threads ι γ κ} {i : ι} {b : a} {g : γ} {k : κ}
    (h : step s.shared (s.threads i) b = some (g, k)) :
    (interleave init step).step s (i, b) ⟨g, Function.update s.threads i k⟩ := by
  change threadStep step s (i, b) = some _
  unfold threadStep
  rw [h]

/-- A total over the threads after one of them steps: its old share leaves, its new one comes in. -/
theorem sum_update [Fintype ι] (f : κ → ℕ) (threads : ι → κ) (i : ι) (k : κ) :
    ∑ j, f (Function.update threads i k j) + f (threads i) = ∑ j, f (threads j) + f k := by
  have hsum := Totals.sum_change (f := fun j => f (threads j))
    (g := fun j => f (Function.update threads i k j)) (Finset.mem_univ i)
    (fun j _ hj => by rw [Function.update_of_ne hj])
  simp only [Function.update_self] at hsum
  exact hsum

omit [DecidableEq ι] in
/-- One thread's share is at most the total. -/
theorem le_sum [Fintype ι] (f : κ → ℕ) (threads : ι → κ) (i : ι) :
    f (threads i) ≤ ∑ j, f (threads j) :=
  Finset.single_le_sum (fun j _ => Nat.zero_le (f (threads j))) (Finset.mem_univ i)

/-- The number of threads in whose state `p` holds. -/
def count [Fintype ι] (p : κ → Bool) (threads : ι → κ) : ℕ :=
  (Finset.univ.filter fun i => p (threads i)).card

omit [DecidableEq ι] in
theorem count_eq_sum [Fintype ι] (p : κ → Bool) (threads : ι → κ) :
    count p threads = ∑ i, (p (threads i)).toNat := by
  unfold count
  rw [Finset.card_filter]
  refine Finset.sum_congr rfl fun i _ => ?_
  cases p (threads i) <;> rfl

/-- The number of threads after one of them steps. -/
theorem count_update [Fintype ι] (p : κ → Bool) (threads : ι → κ) (i : ι) (k : κ) :
    count p (Function.update threads i k) + (p (threads i)).toNat =
      count p threads + (p k).toNat := by
  rw [count_eq_sum, count_eq_sum]
  exact sum_update (fun k => (p k).toNat) threads i k

omit [DecidableEq ι] in
/-- A thread in whose state `p` holds is counted. -/
theorem count_pos [Fintype ι] {p : κ → Bool} {threads : ι → κ} {i : ι} (h : p (threads i)) :
    0 < count p threads :=
  Finset.card_pos.mpr ⟨i, Finset.mem_filter.mpr ⟨Finset.mem_univ i, h⟩⟩

end Lts
