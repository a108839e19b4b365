import Mathlib.Algebra.GroupWithZero.Nat
import Mathlib.Algebra.Order.BigOperators.Group.Finset

/-!
# Totals when one entry changes

A total over finitely many entries, after one of them has changed: its old value leaves and its new
one comes in. The counters of an account are totals of this kind.
-/

namespace Totals

open scoped BigOperators

variable {ι : Type*} [DecidableEq ι]

/-- Two totals whose entries agree except at `i`. -/
theorem sum_change {s : Finset ι} {f g : ι → ℕ} {i : ι} (hi : i ∈ s)
    (h : ∀ j ∈ s, j ≠ i → g j = f j) : ∑ j ∈ s, g j + f i = ∑ j ∈ s, f j + g i := by
  have hg := Finset.add_sum_erase s g hi
  have hf := Finset.add_sum_erase s f hi
  have hrest : ∑ j ∈ s.erase i, g j = ∑ j ∈ s.erase i, f j := by
    refine Finset.sum_congr rfl fun j hj => ?_
    exact h j (Finset.mem_of_mem_erase hj) (Finset.ne_of_mem_erase hj)
  omega

/-- The total over a list in which the entry at `i` was replaced. -/
theorem sum_set {α : Type*} (f : α → ℕ) {y x : α} : ∀ {l : List α} {i : ℕ}, l[i]? = some x →
    ((l.set i y).map f).sum + f x = (l.map f).sum + f y
  | [], i, h => by simp at h
  | z :: l, 0, h => by
    obtain rfl : z = x := by simpa using h
    simp only [List.set_cons_zero, List.map_cons, List.sum_cons]
    omega
  | z :: l, i + 1, h => by
    have ih := sum_set f (y := y) (by simpa using h : l[i]? = some x)
    simp only [List.set_cons_succ, List.map_cons, List.sum_cons]
    omega

end Totals
