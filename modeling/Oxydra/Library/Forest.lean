import Mathlib.Algebra.BigOperators.Group.Finset.Piecewise
import Oxydra.Library.Totals

/-!
# Growing forests and totals over subtrees

A forest on the nodes `0, …, size - 1`, in which each node knows the list of its ancestors, nearest
first. A node's ancestors are older than it, and follow its parent's: a value of `Forest` carries
both facts. `push` adds a leaf under a node.

`subtotal w i` adds `w` over the subtree of `i`, and `childTotal f i` adds `f` over the children of
`i`. `subtotal_eq` splits a subtree into its top and the subtrees of its children; `subtotal_add`,
`childTotal_change`, and the `push` lemmas say how both totals move.
-/

open scoped BigOperators

/-- A forest whose nodes are added one after another. -/
structure Forest where
  /-- The number of nodes. -/
  size : ℕ
  /-- The ancestors of each node, nearest first. -/
  ancestors : ℕ → List ℕ
  /-- What is not yet a node has no ancestors. -/
  bare : ∀ j, size ≤ j → ancestors j = []
  ancestor_lt : ∀ j a, a ∈ ancestors j → a < j
  chain : ∀ j p as, ancestors j = p :: as → ancestors p = as

namespace Forest

/-- One node. -/
def root : Forest where
  size := 1
  ancestors _ := []
  bare := by simp
  ancestor_lt := by simp
  chain := by simp

variable (F : Forest)

/-- The parent of a node. -/
def parent (j : ℕ) : Option ℕ := (F.ancestors j).head?

/-- `j` is in the subtree of `i`. -/
def Below (i j : ℕ) : Prop := i = j ∨ i ∈ F.ancestors j

instance (i j : ℕ) : Decidable (F.Below i j) := inferInstanceAs (Decidable (_ ∨ _))

/-- The forest with a new leaf under `p`, which becomes the node `F.size`. -/
def push (p : ℕ) (hp : p < F.size) : Forest where
  size := F.size + 1
  ancestors := Function.update F.ancestors F.size (p :: F.ancestors p)
  bare j hj := by
    rw [Function.update_of_ne (by omega)]
    exact F.bare j (by omega)
  ancestor_lt j a ha := by
    by_cases hj : j = F.size
    · subst hj
      rw [Function.update_self, List.mem_cons] at ha
      rcases ha with rfl | ha
      · exact hp
      · exact (F.ancestor_lt p a ha).trans hp
    · rw [Function.update_of_ne hj] at ha
      exact F.ancestor_lt j a ha
  chain j q as h := by
    by_cases hj : j = F.size
    · subst hj
      rw [Function.update_self, List.cons.injEq] at h
      obtain ⟨rfl, rfl⟩ := h
      rw [Function.update_of_ne hp.ne]
    · rw [Function.update_of_ne hj] at h
      have hq : q < j := F.ancestor_lt j q (by rw [h]; exact List.mem_cons_self)
      have hsize : j < F.size := by
        by_contra hj'
        rw [F.bare j (by omega)] at h
        simp at h
      rw [Function.update_of_ne (by omega)]
      exact F.chain j q as h

variable {F} {i j p : ℕ}

/-- A parent is older than its child. -/
theorem parent_lt (h : F.parent j = some p) : p < j :=
  F.ancestor_lt j p (List.mem_of_mem_head? h)

/-- A node's ancestors are its parent, and then the ancestors of its parent. -/
theorem ancestors_of_parent (h : F.parent j = some p) : F.ancestors j = p :: F.ancestors p := by
  obtain ⟨as, has⟩ := List.head?_eq_some_iff.mp h
  rw [has, F.chain j p as has]

/-- Only a node has a parent. -/
theorem lt_size_of_parent (h : F.parent j = some p) : j < F.size := by
  by_contra hj
  rw [parent, F.bare j (by omega)] at h
  simp at h

/-- The subtree of `i` holds no node older than `i`. -/
theorem Below.le (h : F.Below i j) : i ≤ j := by
  rcases h with rfl | h
  · exact le_refl i
  · exact (F.ancestor_lt j i h).le

/-- A child is in the subtrees that its parent is in, and in its own. -/
theorem below_of_parent (h : F.parent j = some p) : F.Below i j ↔ i = j ∨ F.Below i p := by
  unfold Below
  rw [ancestors_of_parent h, List.mem_cons]

/-- The sum of `w` over the subtree of `i`. -/
def subtotal (F : Forest) (w : ℕ → ℕ) (i : ℕ) : ℕ :=
  ∑ j ∈ Finset.range F.size, if F.Below i j then w j else 0

/-- The sum of `f` over the children of `i`. -/
def childTotal (F : Forest) (f : ℕ → ℕ) (i : ℕ) : ℕ :=
  ∑ c ∈ Finset.range F.size, if F.parent c = some i then f c else 0

/-- Of the children of `i`, exactly one has a given node properly below `i` in its subtree. -/
theorem childTotal_below (i x : ℕ) : ∀ j < F.size,
    F.childTotal (fun c => if F.Below c j then x else 0) i =
      if i ∈ F.ancestors j then x else 0 := by
  intro j
  induction j using Nat.strong_induction_on with
  | _ j ih =>
    intro hj
    cases hp : F.parent j with
    | none =>
      have hnil : F.ancestors j = [] := List.head?_eq_none_iff.mp hp
      rw [hnil, if_neg (by simp)]
      refine Finset.sum_eq_zero fun c _ => ?_
      beta_reduce
      split_ifs with hc hb
      · rcases hb with rfl | hb
        · rw [hp] at hc
          simp at hc
        · rw [hnil] at hb
          simp at hb
      · rfl
      · rfl
    | some p =>
      have hpj := parent_lt hp
      -- the node itself, and the subtrees that its parent is in
      have hsplit : F.childTotal (fun c => if F.Below c j then x else 0) i =
          (if p = i then x else 0) + F.childTotal (fun c => if F.Below c p then x else 0) i := by
        have hone : (if p = i then x else 0) =
            ∑ c ∈ Finset.range F.size, if c = j then (if p = i then x else 0) else 0 := by
          rw [Finset.sum_ite_eq', if_pos (Finset.mem_range.mpr hj)]
        rw [hone, childTotal, childTotal, ← Finset.sum_add_distrib]
        refine Finset.sum_congr rfl fun c _ => ?_
        by_cases hc : c = j
        · subst hc
          have hnot : ¬F.Below c p := fun hb => by have := hb.le; omega
          have hself : F.Below c c := Or.inl rfl
          simp [hp, hnot, hself]
        · simp [below_of_parent hp, hc]
      rw [hsplit, ih p hpj (hpj.trans hj), ancestors_of_parent hp]
      by_cases hpi : p = i
      · subst hpi
        have hirr : p ∉ F.ancestors p := fun h => lt_irrefl p (F.ancestor_lt p p h)
        simp [hirr]
      · simp [hpi, Ne.symm hpi]

/-- A subtree is its top and the subtrees of its top's children. -/
theorem subtotal_eq (w : ℕ → ℕ) (hi : i < F.size) :
    F.subtotal w i = w i + F.childTotal (F.subtotal w) i := by
  have hswap : F.childTotal (F.subtotal w) i =
      ∑ j ∈ Finset.range F.size, if i ∈ F.ancestors j then w j else 0 := by
    have hin : ∀ c, (if F.parent c = some i then F.subtotal w c else 0) =
        ∑ j ∈ Finset.range F.size, if F.parent c = some i then
          (if F.Below c j then w j else 0) else 0 := by
      intro c
      split_ifs
      · rfl
      · simp
    rw [childTotal, Finset.sum_congr rfl fun c _ => hin c, Finset.sum_comm]
    exact Finset.sum_congr rfl fun j hj => childTotal_below i (w j) j (Finset.mem_range.mp hj)
  have htop : w i = ∑ j ∈ Finset.range F.size, if i = j then w j else 0 := by
    rw [Finset.sum_ite_eq, if_pos (Finset.mem_range.mpr hi)]
  rw [hswap, htop, subtotal, ← Finset.sum_add_distrib]
  refine Finset.sum_congr rfl fun j _ => ?_
  by_cases hij : i = j
  · subst hij
    have hirr : i ∉ F.ancestors i := fun h => lt_irrefl i (F.ancestor_lt i i h)
    simp [Below, hirr]
  · simp [Below, hij]

/-- What is added at one node is added to the subtrees that it is in. -/
theorem subtotal_add (w : ℕ → ℕ) (d : ℕ) (hj : j < F.size) :
    F.subtotal (Function.update w j (w j + d)) i =
      F.subtotal w i + if F.Below i j then d else 0 := by
  have hone : (if F.Below i j then d else 0) =
      ∑ k ∈ Finset.range F.size, if k = j then (if F.Below i j then d else 0) else 0 := by
    rw [Finset.sum_ite_eq', if_pos (Finset.mem_range.mpr hj)]
  rw [hone, subtotal, subtotal, ← Finset.sum_add_distrib]
  refine Finset.sum_congr rfl fun k _ => ?_
  by_cases hk : k = j
  · subst hk
    simp only [Function.update_self, if_true]
    split_ifs <;> rfl
  · simp [hk]

/-- Two child totals whose entries agree except at the child `c` of `p`. -/
theorem childTotal_change {f g : ℕ → ℕ} {c : ℕ} (hc : F.parent c = some p)
    (h : ∀ j < F.size, j ≠ c → g j = f j) :
    F.childTotal g i + (if i = p then f c else 0) =
      F.childTotal f i + if i = p then g c else 0 := by
  have hsum := Totals.sum_change (s := Finset.range F.size)
    (f := fun k => if F.parent k = some i then f k else 0)
    (g := fun k => if F.parent k = some i then g k else 0)
    (Finset.mem_range.mpr (lt_size_of_parent hc))
    (fun k hk hkc => by rw [h k (Finset.mem_range.mp hk) hkc])
  simp only [hc, Option.some.injEq, eq_comm (a := p)] at hsum
  exact hsum

/-- A child's entry is part of its parent's total. -/
theorem le_childTotal (f : ℕ → ℕ) {c : ℕ} (hc : F.parent c = some i) : f c ≤ F.childTotal f i := by
  have hmem := Finset.mem_range.mpr (lt_size_of_parent hc)
  have hle := Finset.single_le_sum (f := fun k => if F.parent k = some i then f k else 0)
    (fun k _ => Nat.zero_le _) hmem
  simp only [hc, if_true] at hle
  exact hle

/-- What is not a node has no children. -/
theorem childTotal_of_size_le (f : ℕ → ℕ) (hi : F.size ≤ i) : F.childTotal f i = 0 := by
  refine Finset.sum_eq_zero fun c _ => if_neg fun hc => ?_
  have hlt := parent_lt hc
  have hsize := lt_size_of_parent hc
  omega

/-- Child totals depend on the children only. -/
theorem childTotal_congr {f g : ℕ → ℕ} (h : ∀ c, F.parent c = some i → g c = f c) :
    F.childTotal g i = F.childTotal f i := by
  refine Finset.sum_congr rfl fun c _ => ?_
  split_ifs with hc
  · exact h c hc
  · rfl

/-! ## A new leaf -/

variable {hp : p < F.size}

@[simp] theorem push_size : (F.push p hp).size = F.size + 1 := rfl

theorem push_parent_self : (F.push p hp).parent F.size = some p := by
  simp [parent, push]

theorem push_ancestors_of_lt (hj : j < F.size) : (F.push p hp).ancestors j = F.ancestors j :=
  Function.update_of_ne hj.ne _ _

theorem push_below_of_lt (hj : j < F.size) : (F.push p hp).Below i j ↔ F.Below i j := by
  rw [Below, push_ancestors_of_lt hj, Below]

theorem push_parent_of_lt (hj : j < F.size) : (F.push p hp).parent j = F.parent j := by
  rw [parent, push_ancestors_of_lt hj, parent]

/-- A leaf of weight zero changes no subtotal. -/
theorem push_subtotal {w v : ℕ → ℕ} (hw : ∀ j < F.size, v j = w j) (h0 : v F.size = 0) :
    (F.push p hp).subtotal v i = F.subtotal w i := by
  rw [subtotal, push_size, Finset.sum_range_succ, h0, ite_self, Nat.add_zero]
  refine Finset.sum_congr rfl fun j hj => ?_
  have hj := Finset.mem_range.mp hj
  simp only [push_below_of_lt hj, hw j hj]

/-- A new leaf adds its entry to the child total of its parent. -/
theorem push_childTotal {f g : ℕ → ℕ} (hf : ∀ j < F.size, g j = f j) :
    (F.push p hp).childTotal g i = F.childTotal f i + if i = p then g F.size else 0 := by
  rw [childTotal, push_size, Finset.sum_range_succ, push_parent_self]
  simp only [Option.some.injEq, eq_comm (a := p)]
  congr 1
  refine Finset.sum_congr rfl fun j hj => ?_
  have hj := Finset.mem_range.mp hj
  rw [push_parent_of_lt hj, hf j hj]

end Forest
