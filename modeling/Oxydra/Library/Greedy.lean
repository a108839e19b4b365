import Mathlib.Data.List.Basic
import Mathlib.Data.List.Pairwise
import Oxydra.Library.Word

/-!
# Greedy selection under a budget

A list is walked once, and an item is taken when it still fits beside what was taken before it; an
item that does not fit is passed over. Sizes add up as saturating 64-bit words. `spent` is the part of
the budget that the items before one take, in terms of sizes alone; it says whether that one is taken
(`mem_take_iff`).

`indexed` numbers the items of a list, so that what was taken can be told by position.
-/

namespace Greedy

open List

variable {α β : Type*}

/-- The items that fit, walked from the head, with `used` of the budget taken by those before. -/
def take (size : α → ℕ) (budget already : ℕ) : ℕ → List α → List α
  | _, [] => []
  | used, x :: xs =>
    if U64.saturatingAdd (U64.saturatingAdd already used) (size x) ≤ budget then
      x :: take size budget already (U64.saturatingAdd used (size x)) xs
    else take size budget already used xs

/-- What is taken stands in the order of the list. -/
theorem take_sublist (size : α → ℕ) (budget already used : ℕ) (xs : List α) :
    (take size budget already used xs).Sublist xs := by
  induction xs generalizing used with
  | nil => exact List.Sublist.slnil
  | cons x xs ih =>
    unfold take
    split_ifs
    · exact (ih _).cons_cons x
    · exact (ih _).cons x

/-- Selecting commutes with forgetting what the sizes do not depend on. -/
theorem map_take (size : β → ℕ) (f : α → β) (budget already used : ℕ) (xs : List α) :
    (take (size ∘ f) budget already used xs).map f = take size budget already used (xs.map f) := by
  induction xs generalizing used with
  | nil => rfl
  | cons x xs ih =>
    simp only [take, map_cons, Function.comp_apply]
    split_ifs
    · rw [map_cons, ih]
    · exact ih _

/-- What the items that fit take of the budget, in terms of their sizes. -/
def spent (budget already : ℕ) : ℕ → List ℕ → ℕ
  | used, [] => used
  | used, size :: sizes =>
    if U64.saturatingAdd (U64.saturatingAdd already used) size ≤ budget then
      spent budget already (U64.saturatingAdd used size) sizes
    else spent budget already used sizes

/-- The items of a second list are taken beside those of the first. -/
theorem take_append (size : α → ℕ) (budget already used : ℕ) (xs ys : List α) :
    take size budget already used (xs ++ ys) =
      take size budget already used xs ++
        take size budget already (spent budget already used (xs.map size)) ys := by
  induction xs generalizing used with
  | nil => rfl
  | cons x xs ih =>
    simp only [cons_append, take, map_cons, spent]
    split_ifs
    · rw [ih, cons_append]
    · exact ih _

/-- An item is taken when it fits beside those before it that fit. -/
theorem mem_take_iff {size : α → ℕ} {budget already used : ℕ} {xs ys : List α} {x : α}
    (hx : x ∉ xs) (hy : x ∉ ys) :
    x ∈ take size budget already used (xs ++ x :: ys) ↔
      U64.saturatingAdd (U64.saturatingAdd already (spent budget already used (xs.map size)))
        (size x) ≤ budget := by
  have hbefore : x ∉ take size budget already used xs :=
    fun h => hx ((take_sublist size budget already used xs).subset h)
  have hafter : ∀ used', x ∉ take size budget already used' ys :=
    fun used' h => hy ((take_sublist size budget already used' ys).subset h)
  rw [take_append, mem_append, take]
  split_ifs with hfits
  · exact ⟨fun _ => hfits, fun _ => Or.inr mem_cons_self⟩
  · exact ⟨fun h => (h.elim hbefore (hafter _)).elim, fun h => (hfits h).elim⟩

/-- The items of a list with their positions. -/
def indexed (xs : List α) : List (ℕ × α) := (List.range xs.length).zip xs

/-- A numbered item is the item at its position. -/
theorem mem_indexed {xs : List α} {i : ℕ} {x : α} : (i, x) ∈ indexed xs ↔ xs[i]? = some x := by
  rw [mem_iff_getElem?, indexed]
  constructor
  · rintro ⟨k, hk⟩
    simp only [List.getElem?_zip_eq_some] at hk
    obtain ⟨hk, hx⟩ := hk
    rw [List.getElem?_range (List.getElem?_eq_some_iff.mp hx).1] at hk
    rw [← Option.some.inj hk]
    exact hx
  · intro hx
    refine ⟨i, ?_⟩
    rw [List.getElem?_zip_eq_some]
    exact ⟨List.getElem?_range (List.getElem?_eq_some_iff.mp hx).1, hx⟩

/-- Positions grow along the list. -/
theorem indexed_sorted (xs : List α) : (indexed xs).Pairwise fun a b => a.1 < b.1 := by
  have hmap : ((indexed xs).map Prod.fst).Pairwise (· < ·) := by
    rw [indexed, map_fst_zip (by simp)]
    exact pairwise_lt_range
  exact pairwise_map.mp hmap

/-- What stands before a numbered item are all the positions below its own. -/
theorem map_fst_of_indexed_split {xs : List α} {pre post : List (ℕ × α)} {p : ℕ × α}
    (h : indexed xs = pre ++ p :: post) : pre.map Prod.fst = List.range p.1 := by
  have hfst : List.range xs.length = pre.map Prod.fst ++ (p.1 :: post.map Prod.fst) := by
    rw [← map_cons, ← map_append, ← h, indexed, map_fst_zip (by simp)]
  -- the entry at the position of `p` is that position
  have hpos : p.1 = pre.length := by
    have hget := congrArg (fun l => l[pre.length]?) hfst
    have hlt : pre.length < xs.length := by
      have hlen := congrArg List.length hfst
      simp only [length_range, length_append, length_map, length_cons] at hlen
      omega
    simpa [List.getElem?_range hlt] using hget.symm
  have htake := congrArg (List.take pre.length) hfst
  rw [take_left' (by simp), take_range] at htake
  rw [← htake, hpos, Nat.min_eq_left]
  have hlen := congrArg List.length hfst
  simp only [length_range, length_append, length_map, length_cons] at hlen
  omega

/-- Forgetting the positions gives the list back. -/
theorem map_indexed (xs : List α) : (indexed xs).map Prod.snd = xs := by
  rw [indexed, map_snd_zip (by simp)]

/-- What stands behind a numbered item are the items behind its position. -/
theorem map_snd_of_indexed_split {xs : List α} {pre post : List (ℕ × α)} {p : ℕ × α}
    (h : indexed xs = pre ++ p :: post) : post.map Prod.snd = xs.drop (p.1 + 1) := by
  have hlength : pre.length = p.1 := by
    simpa using congrArg List.length (map_fst_of_indexed_split h)
  have hall : xs = pre.map Prod.snd ++ p.2 :: post.map Prod.snd := by
    rw [← map_cons, ← map_append, ← h, map_indexed]
  rw [hall, ← hlength, ← length_map (f := Prod.snd), drop_append]
  simp

end Greedy
