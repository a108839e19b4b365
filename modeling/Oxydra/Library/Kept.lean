import Mathlib.Data.List.Nodup

/-!
# Which elements of a list are kept

`filterMap` keeps some elements of a list. An element that is kept stands, among what is kept,
behind as many as are kept of those before it: `keptBefore`. That is a one-to-one correspondence
between the places that are kept and the places among what is kept.

`unseen` keeps each element whose key was not seen before, before the list or in it. Of elements
that were seen and then fresh ones, the fresh ones are left (`unseen_append`), and the elements of a
kind that the key tells are left as they are among themselves (`filter_unseen`).
-/

/-! ## Places -/

namespace List

variable {α β : Type*} (f : α → Option β)

/-- How many elements are kept of those before a place. -/
def keptBefore (l : List α) (i : ℕ) : ℕ := ((l.take i).filterMap f).length

variable {f} {l : List α}

/-- What a place gives stands behind what is kept before it. -/
theorem getElem?_keptBefore {i : ℕ} {b : β} (h : l[i]?.bind f = some b) :
    (l.filterMap f)[l.keptBefore f i]? = some b := by
  obtain ⟨a, ha, hb⟩ := Option.bind_eq_some_iff.mp h
  obtain ⟨hlt, rfl⟩ := getElem?_eq_some_iff.mp ha
  have hsplit : l = l.take i ++ l[i] :: l.drop (i + 1) := by
    rw [← drop_eq_getElem_cons hlt, take_append_drop]
  have hkept : l.filterMap f = (l.take i).filterMap f ++ b :: (l.drop (i + 1)).filterMap f := by
    conv_lhs => rw [hsplit]
    rw [filterMap_append, filterMap_cons_some hb]
  rw [hkept, keptBefore, getElem?_append_right (Nat.le_refl _), Nat.sub_self, getElem?_cons_zero]

/-- A place that is kept counts for the places behind it. -/
theorem keptBefore_lt {i j : ℕ} {b : β} (h : l[i]?.bind f = some b) (hij : i < j) :
    l.keptBefore f i < l.keptBefore f j := by
  have hplace := getElem?_keptBefore (l := l.take j) (f := f) (i := i) (b := b)
    (by rw [getElem?_take_of_lt hij, h])
  obtain ⟨hlt, -⟩ := getElem?_eq_some_iff.mp hplace
  unfold keptBefore at hlt ⊢
  rwa [take_take, Nat.min_eq_left (Nat.le_of_lt hij)] at hlt

theorem keptBefore_inj {i j : ℕ} {b c : β} (hi : l[i]?.bind f = some b)
    (hj : l[j]?.bind f = some c) (h : l.keptBefore f i = l.keptBefore f j) : i = j := by
  rcases Nat.lt_trichotomy i j with hlt | heq | hlt
  · exact absurd h (Nat.ne_of_lt (keptBefore_lt hi hlt))
  · exact heq
  · exact absurd h (Nat.ne_of_gt (keptBefore_lt hj hlt))

/-- Each place among what is kept is that of an element. -/
theorem exists_keptBefore {n : ℕ} (h : n < (l.filterMap f).length) :
    ∃ i, (l[i]?.bind f).isSome ∧ l.keptBefore f i = n := by
  induction l generalizing n with
  | nil => exact absurd h (Nat.not_lt_zero n)
  | cons a l ih =>
    cases ha : f a with
    | none =>
      rw [filterMap_cons_none ha] at h
      obtain ⟨i, hsome, hplace⟩ := ih h
      refine ⟨i + 1, by rwa [getElem?_cons_succ], ?_⟩
      rw [← hplace, keptBefore, take_succ_cons, filterMap_cons_none ha, keptBefore]
    | some b =>
      cases n with
      | zero => exact ⟨0, by simp [ha], rfl⟩
      | succ n =>
        rw [filterMap_cons_some ha, length_cons] at h
        obtain ⟨i, hsome, hplace⟩ := ih (Nat.lt_of_succ_lt_succ h)
        refine ⟨i + 1, by rwa [getElem?_cons_succ], ?_⟩
        rw [← hplace, keptBefore, take_succ_cons, filterMap_cons_some ha, length_cons, keptBefore]

end List

/-! ## Keys -/

namespace Unseen

variable {α κ : Type*} [DecidableEq κ] (key : α → κ)

/-- The items whose keys were not seen, each key once. -/
def unseen (seen : List κ) : List α → List α
  | [] => []
  | x :: xs => if key x ∈ seen then unseen seen xs else x :: unseen (key x :: seen) xs

variable {key} {seen seen' : List κ} {xs old new : List α}

/-- What was seen matters for the items of the list only. -/
theorem unseen_congr (h : ∀ x ∈ xs, key x ∈ seen ↔ key x ∈ seen') :
    unseen key seen xs = unseen key seen' xs := by
  induction xs generalizing seen seen' with
  | nil => rfl
  | cons x xs ih =>
    obtain ⟨hx, hxs⟩ := List.forall_mem_cons.mp h
    have hrest : unseen key (key x :: seen) xs = unseen key (key x :: seen') xs := by
      refine ih fun y hy => ?_
      rw [List.mem_cons, List.mem_cons, hxs y hy]
    rw [unseen, unseen, ih hxs, hrest]
    simp only [hx]

/-- Items that were seen are left out. -/
theorem unseen_append (hold : ∀ x ∈ old, key x ∈ seen) :
    unseen key seen (old ++ new) = unseen key seen new := by
  induction old with
  | nil => rfl
  | cons x old ih =>
    obtain ⟨hx, hrest⟩ := List.forall_mem_cons.mp hold
    rw [List.cons_append, unseen, if_pos hx, ih hrest]

/-- Fresh items are all left. -/
theorem unseen_of_fresh (hnodup : (new.map key).Nodup) (hfresh : ∀ x ∈ new, key x ∉ seen) :
    unseen key seen new = new := by
  induction new generalizing seen with
  | nil => rfl
  | cons x new ih =>
    obtain ⟨hx, hrest⟩ := List.forall_mem_cons.mp hfresh
    rw [List.map_cons, List.nodup_cons] at hnodup
    rw [unseen, if_neg hx, ih hnodup.2]
    intro y hy hmem
    rcases List.mem_cons.mp hmem with hsame | hseen
    · exact hnodup.1 (hsame ▸ List.mem_map_of_mem hy)
    · exact hrest y hy hseen

/-- Items of a kind that the key tells are left as among themselves. -/
theorem filter_unseen {p : α → Bool} (hp : ∀ x y, key x = key y → p x = p y) (seen : List κ)
    (xs : List α) : (unseen key seen xs).filter p = unseen key seen (xs.filter p) := by
  induction xs generalizing seen with
  | nil => rfl
  | cons x xs ih =>
    cases hx : p x with
    | true =>
      rw [List.filter_cons_of_pos hx, unseen, unseen]
      split_ifs
      · exact ih seen
      · rw [List.filter_cons_of_pos hx, ih]
    | false =>
      have hnot : ¬p x = true := by rw [hx]; decide
      rw [List.filter_cons_of_neg hnot, unseen]
      split_ifs
      · exact ih seen
      · rw [List.filter_cons_of_neg hnot, ih]
        refine unseen_congr fun y hy => ?_
        have hkey : key y ≠ key x := by
          intro h
          exact absurd (List.mem_filter.mp hy).2 (by rw [hp y x h, hx]; decide)
        rw [List.mem_cons, or_iff_right hkey]

end Unseen
