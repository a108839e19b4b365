import Mathlib.Data.List.Basic
import Mathlib.Data.List.TakeWhile

/-!
# Matches and runs

Every match of a pattern is replaced from left to right, and what is between them is kept
(`exists_pieces`). A maximal run of characters of a kind stands between two others, or at an end of
the text, and what holds of every maximal run is checked part by part (`everyRun_cons_iff`,
`everyRun_append_iff`).
-/

namespace TextRuns

open List

variable {α : Type*}

/-! ## Matches -/

section

variable (matchAt : List α → Option (List α)) (replace : List α → List α)

/-- A text with each match replaced, when so many elements of the last one are still to be skipped.
`matchAt` gives the match that starts at a place. -/
def replaceAll : ℕ → List α → List α
  | _, [] => []
  | skip + 1, _ :: rest => replaceAll skip rest
  | 0, c :: rest =>
    match matchAt (c :: rest) with
    | none => c :: replaceAll 0 rest
    | some token => replace token ++ replaceAll (token.length - 1) rest

theorem replaceAll_skip (xs ys : List α) :
    replaceAll matchAt replace xs.length (xs ++ ys) = replaceAll matchAt replace 0 ys := by
  induction xs with
  | nil => rfl
  | cons x xs ih => rw [length_cons, cons_append, replaceAll, ih]

variable {matchAt}

/-- A place where nothing matches. -/
theorem replaceAll_cons {c : α} {rest : List α} (h : matchAt (c :: rest) = none) :
    replaceAll matchAt replace 0 (c :: rest) = c :: replaceAll matchAt replace 0 rest := by
  rw [replaceAll, h]

/-- A match. -/
theorem replaceAll_append {token rest : List α} (hne : token ≠ [])
    (h : matchAt (token ++ rest) = some token) :
    replaceAll matchAt replace 0 (token ++ rest) =
      replace token ++ replaceAll matchAt replace 0 rest := by
  obtain ⟨c, token, rfl⟩ := exists_cons_of_ne_nil hne
  rw [cons_append] at h ⊢
  rw [replaceAll, h]
  dsimp only
  rw [length_cons, Nat.add_sub_cancel, replaceAll_skip]

/-- The text between the matches is kept. -/
theorem exists_pieces
    (hmatch : ∀ text token, matchAt text = some token → token ≠ [] ∧ token <+: text) (text : List α) :
    ∃ pieces : List (Bool × List α), pieces.flatMap Prod.snd = text ∧
      (pieces.flatMap fun piece => if piece.1 then replace piece.2 else piece.2) =
        replaceAll matchAt replace 0 text ∧
      ∀ piece ∈ pieces, piece.1 = true → ∃ rest, matchAt (piece.2 ++ rest) = some piece.2 := by
  induction hlength : text.length using Nat.strong_induction_on generalizing text with
  | _ n ih =>
    cases text with
    | nil => exact ⟨[], rfl, rfl, nofun⟩
    | cons c rest =>
      rw [length_cons] at hlength
      cases hfound : matchAt (c :: rest) with
      | none =>
        obtain ⟨pieces, htext, hreplaced, hmatches⟩ := ih rest.length (by omega) rest rfl
        refine ⟨(false, [c]) :: pieces, ?_, ?_, ?_⟩
        · rw [flatMap_cons, htext]
          rfl
        · rw [flatMap_cons, hreplaced, replaceAll_cons replace hfound]
          rfl
        · rw [forall_mem_cons]
          exact ⟨nofun, hmatches⟩
      | some token =>
        obtain ⟨hne, behind, hbehind⟩ := hmatch _ _ hfound
        have hshort : behind.length < n := by
          have hsum := congrArg List.length hbehind
          have hpos := length_pos_iff.mpr hne
          rw [length_append, length_cons] at hsum
          omega
        obtain ⟨pieces, htext, hreplaced, hmatches⟩ := ih behind.length hshort behind rfl
        rw [← hbehind] at hfound ⊢
        refine ⟨(true, token) :: pieces, ?_, ?_, ?_⟩
        · rw [flatMap_cons, htext]
        · rw [flatMap_cons, hreplaced, replaceAll_append replace hne hfound]
          rfl
        · rw [forall_mem_cons]
          exact ⟨fun _ => ⟨behind, hfound⟩, hmatches⟩

end

/-! ## Runs -/

section

variable {p : α → Bool} {F : List α → List α → Prop}

/-- A run that no other of its kind stands beside. -/
structure IsRun (p : α → Bool) (before run after : List α) : Prop where
  ne_nil : run ≠ []
  all : ∀ c ∈ run, p c = true
  before : ∀ c ∈ before.getLast?, p c = false
  after : ∀ c ∈ after.head?, p c = false

/-- Every maximal run of a text satisfies a condition, together with what is behind it. -/
def EveryRun (p : α → Bool) (F : List α → List α → Prop) (text : List α) : Prop :=
  ∀ before run after, text = before ++ run ++ after → IsRun p before run after → F run after

theorem everyRun_nil : EveryRun p F [] := by
  intro before run after heq hrun
  have hnil := append_eq_nil_iff.mp (append_eq_nil_iff.mp heq.symm).1
  exact absurd hnil.2 hrun.ne_nil

/-- Another character in front. -/
theorem everyRun_cons_iff {c : α} (hc : p c = false) (text : List α) :
    EveryRun p F (c :: text) ↔ EveryRun p F text := by
  constructor
  · intro h before run after heq hrun
    refine h (c :: before) run after (by rw [heq]; rfl) ⟨hrun.ne_nil, hrun.all, ?_, hrun.after⟩
    intro d hd
    cases before with
    | nil =>
      cases hd
      exact hc
    | cons e before =>
      rw [List.getLast?_cons_cons] at hd
      exact hrun.before d hd
  · intro h before run after heq hrun
    cases before with
    | nil =>
      obtain ⟨d, run, rfl⟩ := exists_cons_of_ne_nil hrun.ne_nil
      obtain ⟨rfl, -⟩ := List.cons.inj heq
      rw [hrun.all c mem_cons_self] at hc
      exact nomatch hc
    | cons d before =>
      obtain ⟨rfl, htext⟩ := List.cons.inj heq
      refine h before run after htext ⟨hrun.ne_nil, hrun.all, fun e he => ?_, hrun.after⟩
      refine hrun.before e ?_
      cases before with
      | nil => exact nomatch he
      | cons => rwa [List.getLast?_cons_cons]

theorem everyRun_append_of_none {xs : List α} (hxs : ∀ c ∈ xs, p c = false) (text : List α) :
    EveryRun p F (xs ++ text) ↔ EveryRun p F text := by
  induction xs with
  | nil => rfl
  | cons x xs ih =>
    rw [forall_mem_cons] at hxs
    rw [cons_append, everyRun_cons_iff hxs.1, ih hxs.2]

/-- The run that a text starts with. -/
theorem takeWhile_run {run rest : List α} (hall : ∀ c ∈ run, p c = true)
    (hrest : ∀ c ∈ rest.head?, p c = false) : (run ++ rest).takeWhile p = run := by
  have hnone : rest.takeWhile p = [] := by
    cases rest with
    | nil => rfl
    | cons c rest => exact takeWhile_cons_of_neg (by simp [hrest c rfl])
  rw [takeWhile_append_of_pos hall, hnone, append_nil]

/-- A maximal run in front. -/
theorem everyRun_append_iff {run rest : List α} (hne : run ≠ []) (hall : ∀ c ∈ run, p c = true)
    (hrest : ∀ c ∈ rest.head?, p c = false) :
    EveryRun p F (run ++ rest) ↔ F run rest ∧ EveryRun p F rest := by
  constructor
  · intro h
    refine ⟨h [] run rest rfl ⟨hne, hall, nofun, hrest⟩, ?_⟩
    intro before later after heq hlater
    cases before with
    | nil =>
      obtain ⟨c, later, rfl⟩ := exists_cons_of_ne_nil hlater.ne_nil
      have hc := hrest c (by rw [heq]; rfl)
      rw [hlater.all c mem_cons_self] at hc
      exact nomatch hc
    | cons c before =>
      refine h (run ++ c :: before) later after (by rw [heq]; simp)
        ⟨hlater.ne_nil, hlater.all, fun d hd => ?_, hlater.after⟩
      rw [List.getLast?_append_cons] at hd
      exact hlater.before d hd
  · rintro ⟨hfirst, hbehind⟩ before later after heq hlater
    -- no character of the first run is the last one before another
    have hlast : ∀ xs : List α, xs ≠ [] → (∀ c ∈ xs, c ∈ run) → before.getLast? = xs.getLast? →
        False := by
      intro xs hxs hmem hsame
      have hin := List.getLast?_eq_some_getLast hxs
      have hfalse := hlater.before _ (by rw [hsame]; exact hin)
      rw [hall _ (hmem _ (getLast_mem hxs))] at hfalse
      exact nomatch hfalse
    rw [append_assoc] at heq
    rcases append_eq_append_iff.mp heq with ⟨middle, rfl, hrest'⟩ | ⟨middle, rfl, hmiddle⟩
    · cases middle with
      | nil => exact (hlast run hne (fun _ => id) (by rw [append_nil])).elim
      | cons c middle =>
        refine hbehind (c :: middle) later after (by rw [hrest', append_assoc])
          ⟨hlater.ne_nil, hlater.all, fun d hd => ?_, hlater.after⟩
        refine hlater.before d ?_
        rwa [List.getLast?_append_cons]
    · cases before with
      | nil =>
        have hsame := takeWhile_run hall hrest
        rw [heq, nil_append, takeWhile_run hlater.all hlater.after] at hsame
        rw [nil_append] at heq hsame
        subst hsame
        rwa [← append_cancel_left heq]
      | cons c before =>
        exact (hlast (c :: before) (cons_ne_nil _ _) (fun _ => mem_append_left _) rfl).elim

end

end TextRuns
