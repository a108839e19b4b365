import Mathlib.Data.List.MinMax
import Mathlib.Data.List.Sublists
import Oxydra.Library.Fields
import Oxydra.Library.Replacement

/-!
# Placeholders

Variables have placeholders in a text, and values. At once, each placeholder of the text is
substituted (`substitute`); one after the other, each variable is replaced in what the others before
it have left.

`foldl_replace`: in any order, one after the other is at once, if the values that are put in make no
placeholder of a variable that is still to come, neither in themselves nor with what stands beside
them, and no two placeholders of the text overlap (`Settled`).
-/

namespace Placeholders

open List

variable {α κ : Type*} [DecidableEq α] [DecidableEq κ]

/-! ## A text between occurrences -/

/-- `str::split`: the parts of a text between the occurrences of a pattern, when so many elements of
the last one are still to be skipped. -/
def split (pattern : List α) : ℕ → List α → List (List α)
  | _, [] => [[]]
  | skip + 1, _ :: rest => split pattern skip rest
  | 0, c :: rest =>
    if pattern.isPrefixOf (c :: rest) then [] :: split pattern (pattern.length - 1) rest
    else (split pattern 0 rest).modifyHead (c :: ·)

theorem split_ne_nil (pattern text : List α) (skip : ℕ) : split pattern skip text ≠ [] := by
  fun_induction split pattern skip text with
  | case1 => exact cons_ne_nil _ _
  | case2 skip c rest ih => exact ih
  | case3 => exact cons_ne_nil _ _
  | case4 c rest h ih => exact mt modifyHead_eq_nil_iff.mp ih

theorem split_skip (pattern xs ys : List α) :
    split pattern xs.length (xs ++ ys) = split pattern 0 ys := by
  induction xs with
  | nil => rfl
  | cons x xs ih => rw [length_cons, cons_append, split, ih]

omit [DecidableEq α] in
theorem intercalate_nil_cons (separator : List α) {parts : List (List α)} (h : parts ≠ []) :
    separator.intercalate ([] :: parts) = separator ++ separator.intercalate parts := by
  obtain ⟨part, parts, rfl⟩ := exists_cons_of_ne_nil h
  rw [intercalate_cons_cons, nil_append]

omit [DecidableEq α] in
theorem intercalate_modifyHead (separator front : List α) {parts : List (List α)}
    (h : parts ≠ []) :
    separator.intercalate (parts.modifyHead (front ++ ·)) =
      front ++ separator.intercalate parts := by
  obtain ⟨part, parts, rfl⟩ := exists_cons_of_ne_nil h
  rw [modifyHead_cons]
  cases parts with
  | nil => simp
  | cons part' parts => simp [intercalate_cons_cons]

/-- Replacing a pattern is joining what stands between its occurrences. -/
theorem replace_eq_intercalate {pattern : List α} (hne : pattern ≠ []) (value text : List α) :
    Replacement.replace pattern value text = value.intercalate (split pattern 0 text) := by
  unfold Replacement.replace
  rw [if_neg hne]
  induction text using Replacement.replaceBefore_induct id (fun _ => true) hne with
  | nil => simp [split, Replacement.replaceBefore_nil]
  | keep c rest hnone ih =>
    have hoccurs : pattern.isPrefixOf (c :: rest) = false := by
      rw [Bool.eq_false_iff, ne_eq, isPrefixOf_iff_prefix]
      rintro ⟨rest', hrest⟩
      exact absurd (hnone pattern rest' hrest.symm (map_id _)) nofun
    rw [Replacement.replaceBefore_cons hnone, ih, split, if_neg (by rw [hoccurs]; exact nofun)]
    exact (intercalate_modifyHead value [c] (split_ne_nil pattern rest 0)).symm
  | subst found rest hfound hok ih =>
    rw [map_id] at hfound
    subst hfound
    rw [Replacement.replaceBefore_append hne (map_id _) hok, ih]
    obtain ⟨c, pattern, rfl⟩ := exists_cons_of_ne_nil hne
    have hoccurs : (c :: pattern).isPrefixOf (c :: (pattern ++ rest)) = true :=
      isPrefixOf_iff_prefix.mpr (prefix_append (c :: pattern) rest)
    rw [cons_append, split, if_pos hoccurs, length_cons, Nat.add_sub_cancel, split_skip,
      intercalate_nil_cons value (split_ne_nil _ rest 0)]

/-! ## Substitution -/

/-- An element of a text, or a placeholder in it. -/
inductive Piece (α κ : Type*) where
  | element (c : α)
  | placeholder (key : κ)
  deriving DecidableEq

variable (mark : κ → List α)

/-- The variable whose placeholder starts a text, and of several the one with the longest. -/
def startsWith (keys : List κ) (text : List α) : Option κ :=
  (keys.filter fun key => (mark key).isPrefixOf text).argmax fun key => (mark key).length

/-- A text as its elements and its placeholders, when so many elements of the last one are still to
be skipped. -/
def cut (keys : List κ) : ℕ → List α → List (Piece α κ)
  | _, [] => []
  | skip + 1, _ :: rest => cut keys skip rest
  | 0, c :: rest =>
    match startsWith mark keys (c :: rest) with
    | none => .element c :: cut keys 0 rest
    | some key => .placeholder key :: cut keys ((mark key).length - 1) rest

omit [DecidableEq α] in
/-- The text with the values of these variables; the placeholders of others stay. -/
def fill (values : List (κ × List α)) (pieces : List (Piece α κ)) : List α :=
  pieces.flatMap fun
    | .element c => [c]
    | .placeholder key => (values.lookup key).getD (mark key)

/-- All placeholders of a text substituted at once. -/
def substitute (env : List (κ × List α)) (text : List α) : List α :=
  fill mark env (cut mark (Fields.keys env) 0 text)

/-- When some variables are substituted in a text, the placeholder of another one occurs in it where
the text has it and nowhere else. -/
def Settled (env : List (κ × List α)) (text : List α) : Prop :=
  ∀ done ∈ env.sublists, ∀ key ∈ Fields.keys env, key ∉ Fields.keys done →
    split (mark key) 0 (fill mark done (cut mark (Fields.keys env) 0 text)) =
      ((cut mark (Fields.keys env) 0 text).splitOn (.placeholder key)).map (fill mark done)

instance (env : List (κ × List α)) (text : List α) : Decidable (Settled mark env text) :=
  inferInstanceAs (Decidable (∀ done ∈ env.sublists, ∀ key ∈ Fields.keys env, _ → _))

section

variable {mark}

omit [DecidableEq α] in
theorem fill_cons (values : List (κ × List α)) (piece : Piece α κ) (pieces : List (Piece α κ)) :
    fill mark values (piece :: pieces) = fill mark values [piece] ++ fill mark values pieces := by
  unfold fill
  rw [flatMap_cons, flatMap_singleton]

/-- Without a value every placeholder stays. -/
theorem fill_nil_cut (hne : ∀ key, mark key ≠ []) (keys : List κ) (skip : ℕ) (text : List α) :
    fill mark [] (cut mark keys skip text) = text.drop skip := by
  fun_induction cut mark keys skip text with
  | case1 skip => rw [drop_nil]; rfl
  | case2 skip c rest ih => rw [ih, drop_succ_cons]
  | case3 c rest hnone ih =>
    rw [fill_cons, ih]
    rfl
  | case4 c rest key hstarts ih =>
    have hprefix : mark key <+: c :: rest := by
      have hmem := argmax_mem hstarts
      exact isPrefixOf_iff_prefix.mp (mem_filter.mp hmem).2
    obtain ⟨d, name, hmark⟩ := exists_cons_of_ne_nil (hne key)
    rw [fill_cons, ih, hmark, length_cons, Nat.add_sub_cancel, drop_zero]
    rw [hmark] at hprefix
    obtain ⟨rest', hrest⟩ := hprefix
    rw [cons_append] at hrest
    cases hrest
    have hstays : fill mark [] [.placeholder key] = mark key := append_nil _
    rw [drop_left, hstays, hmark, cons_append]

omit [DecidableEq α] in
/-- The values of fields in another order are the same. -/
theorem lookup_perm {values values' : List (κ × α)} (h : values.Perm values')
    (hnodup : (Fields.keys values).Nodup) (key : κ) : values.lookup key = values'.lookup key := by
  have hnodup' : (Fields.keys values').Nodup := (h.map Prod.fst).nodup_iff.mp hnodup
  refine Option.ext fun value => ?_
  constructor
  · exact fun hfound => Fields.lookup_of_mem hnodup' (h.mem_iff.mp (Fields.mem_of_lookup hfound))
  · exact fun hfound => Fields.lookup_of_mem hnodup (h.mem_iff.mpr (Fields.mem_of_lookup hfound))

omit [DecidableEq α] in
theorem fill_perm {values values' : List (κ × List α)} (h : values.Perm values')
    (hnodup : (Fields.keys values).Nodup) (pieces : List (Piece α κ)) :
    fill mark values pieces = fill mark values' pieces := by
  unfold fill
  refine flatMap_congr fun piece _ => ?_
  cases piece with
  | element c => rfl
  | placeholder key => exact congrArg (Option.getD · (mark key)) (lookup_perm h hnodup key)

/-- With one more value stands it between the parts that the placeholders of its variable
separate. -/
theorem fill_concat {values : List (κ × List α)} {key : κ} (hkey : key ∉ Fields.keys values)
    (value : List α) (pieces : List (Piece α κ)) :
    fill mark (values ++ [(key, value)]) pieces =
      value.intercalate ((pieces.splitOn (.placeholder key)).map (fill mark values)) := by
  have hother : ∀ piece : Piece α κ, piece ≠ .placeholder key →
      fill mark (values ++ [(key, value)]) [piece] = fill mark values [piece] := by
    intro piece hpiece
    cases piece with
    | element c => rfl
    | placeholder key' =>
      have hne : key' ≠ key := fun heq => hpiece (congrArg Piece.placeholder heq)
      have hlookup : (values ++ [(key, value)]).lookup key' = values.lookup key' := by
        rw [lookup_append, Fields.lookup_cons, if_neg hne]
        exact Option.or_none
      exact congrArg (fun found => [Option.getD found (mark key')].flatten) hlookup
  have hown : fill mark (values ++ [(key, value)]) [.placeholder key] = value := by
    have hlookup : (values ++ [(key, value)]).lookup key = some value := by
      rw [lookup_append, Fields.lookup_eq_none hkey, Option.none_or, Fields.lookup_cons,
        if_pos rfl]
    exact (congrArg (fun found => [Option.getD found (mark key)].flatten) hlookup).trans
      (append_nil value)
  induction pieces with
  | nil => simp [fill]
  | cons piece pieces ih =>
    have hparts : (pieces.splitOn (.placeholder key)).map (fill mark values) ≠ [] :=
      mt map_eq_nil_iff.mp (splitOnP_ne_nil _ _)
    have hsplit : (piece :: pieces).splitOn (.placeholder key) =
        if piece == .placeholder key then [] :: pieces.splitOn (.placeholder key)
        else (pieces.splitOn (.placeholder key)).modifyHead (piece :: ·) :=
      splitOnP_cons_eq_if_modifyHead _ _
    rw [fill_cons, ih, hsplit]
    by_cases hpiece : piece = .placeholder key
    · rw [hpiece, hown, if_pos (beq_self_eq_true _), map_cons]
      exact (intercalate_nil_cons value hparts).symm
    · rw [hother piece hpiece, if_neg (by simpa using hpiece),
        ← intercalate_modifyHead value _ hparts]
      congr 1
      obtain ⟨part, parts, hpieces⟩ :=
        exists_cons_of_ne_nil (mt map_eq_nil_iff.mpr hparts)
      rw [hpieces, map_cons, modifyHead_cons, modifyHead_cons, map_cons,
        ← fill_cons]

/-- What is left after some variables, one after the other, is the text with their values. -/
theorem foldl_replace_fill (hne : ∀ key, mark key ≠ []) {env : List (κ × List α)}
    (hnodup : (Fields.keys env).Nodup) {text : List α} (h : Settled mark env text)
    {order : List (κ × List α)} (horder : order.Perm env) (done : List (κ × List α))
    {rest : List (κ × List α)} (hdone : order = done ++ rest) :
    done.foldl (fun text field => Replacement.replace (mark field.1) field.2 text) text =
      fill mark done (cut mark (Fields.keys env) 0 text) := by
  induction done using List.reverseRecOn generalizing rest with
  | nil => exact (fill_nil_cut hne _ 0 text).symm
  | append_singleton done field ih =>
    obtain ⟨key, value⟩ := field
    rw [append_assoc] at hdone
    have horder' : (Fields.keys order).Nodup := (horder.map Prod.fst).nodup_iff.mpr hnodup
    rw [hdone, Fields.keys, map_append, nodup_append] at horder'
    obtain ⟨hdone', -, hapart⟩ := horder'
    have hkey : key ∉ Fields.keys done := fun hmem => hapart key hmem key (by simp) rfl
    have hmem : key ∈ Fields.keys env :=
      (horder.map Prod.fst).mem_iff.mp (by rw [hdone]; simp)
    -- the fields that are done are a part of the environment
    obtain ⟨part, hpart, hsublist⟩ : done.Subperm env :=
      (hdone ▸ sublist_append_left done _ : done.Sublist order).subperm.trans horder.subperm
    have hkeys : ∀ key, key ∈ Fields.keys part ↔ key ∈ Fields.keys done :=
      fun key => (hpart.map Prod.fst).mem_iff
    have hpart' : (Fields.keys part).Nodup := (hpart.map Prod.fst).nodup_iff.mpr hdone'
    have hfill : ∀ pieces, fill mark part pieces = fill mark done pieces := fill_perm hpart hpart'
    have hsettled := h part (mem_sublists.mpr hsublist) key hmem (mt (hkeys key).mp hkey)
    rw [foldl_append, foldl_cons, foldl_nil, ih hdone,
      replace_eq_intercalate (hne key), fill_concat hkey, ← hfill, hsettled]
    congr 1
    exact map_congr_left fun pieces _ => hfill pieces

/-- In any order, one after the other is at once. -/
theorem foldl_replace (hne : ∀ key, mark key ≠ []) {env : List (κ × List α)}
    (hnodup : (Fields.keys env).Nodup) {text : List α} (h : Settled mark env text)
    {order : List (κ × List α)} (horder : order.Perm env) :
    order.foldl (fun text field => Replacement.replace (mark field.1) field.2 text) text =
      substitute mark env text := by
  have hnodup' : (Fields.keys order).Nodup := (horder.map Prod.fst).nodup_iff.mpr hnodup
  rw [foldl_replace_fill hne hnodup h horder order (append_nil order).symm,
    fill_perm horder hnodup']
  rfl

end

end Placeholders
