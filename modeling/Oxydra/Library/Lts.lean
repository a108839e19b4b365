import Mathlib.Order.Defs.Unbundled
import Mathlib.Tactic.SplitIfs

/-!
# Labelled transition systems and guarded reachability

A system is a set of initial states and a labelled step relation. `ReachWithin guard` collects the
states of the runs whose every step meets `guard` in the state before it; with no guard it is plain
reachability. The induction over a run is packaged once, in `ReachWithin.invariant`: what holds
initially and is kept by every guarded step holds in every state of every guarded run. A system that
is given by a step function (`ofStep`) can be run on a list of labels, and `reachWithin_exec` turns
such a run into a state that is reached. `throughout_iff_meets` is for a property that a step keeps
exactly if it meets the guard.
-/

namespace Lts

/-- A labelled transition system. -/
structure System (σ ℓ : Type*) where
  /-- The states in which a run may start. -/
  init : σ → Prop
  /-- One step, under its label. -/
  step : σ → ℓ → σ → Prop

variable {σ ℓ : Type*} {S : System σ ℓ}

/-- The states of the runs whose every step meets `guard`. -/
inductive System.ReachWithin (S : System σ ℓ) (guard : σ → ℓ → Prop) : σ → Prop
  | init {s : σ} (h : S.init s) : S.ReachWithin guard s
  | step {s t : σ} {l : ℓ} (h : S.ReachWithin guard s) (hg : guard s l) (hs : S.step s l t) :
    S.ReachWithin guard t

/-- The states of all runs. -/
abbrev System.Reach (S : System σ ℓ) : σ → Prop := S.ReachWithin fun _ _ => True

/-- What holds initially and is kept by every guarded step holds throughout every guarded run. -/
theorem System.ReachWithin.invariant {guard : σ → ℓ → Prop} {Inv : σ → Prop}
    (h0 : ∀ s, S.init s → Inv s)
    (hs : ∀ s l t, Inv s → guard s l → S.step s l t → Inv t)
    {s : σ} (h : S.ReachWithin guard s) : Inv s := by
  induction h with
  | init h => exact h0 _ h
  | step _ hg hst ih => exact hs _ _ _ ih hg hst

/-- A run that meets a guard meets every weaker one. -/
theorem System.ReachWithin.mono {guard guard' : σ → ℓ → Prop}
    (hg : ∀ s l, guard s l → guard' s l) {s : σ} (h : S.ReachWithin guard s) :
    S.ReachWithin guard' s := by
  induction h with
  | init h => exact .init h
  | step _ hgl hst ih => exact .step ih (hg _ _ hgl) hst

/-- A guarded run is a run. -/
theorem System.ReachWithin.reach {guard : σ → ℓ → Prop} {s : σ} (h : S.ReachWithin guard s) :
    S.Reach s :=
  h.mono fun _ _ _ => trivial

/-- The system of a partial step function. -/
def ofStep (init : σ → Prop) (step : σ → ℓ → Option σ) : System σ ℓ where
  init := init
  step s l t := step s l = some t

section Exec

variable (guard : σ → ℓ → Prop) [∀ s l, Decidable (guard s l)] (step : σ → ℓ → Option σ)

/-- The state after a list of labels, if each of its steps is enabled and meets the guard. -/
def exec : σ → List ℓ → Option σ
  | s, [] => some s
  | s, l :: ls =>
    if guard s l then
      match step s l with
      | some t => exec t ls
      | none => none
    else none

variable {guard step} {init : σ → Prop}

/-- A run whose steps all meet the guard reaches the state that it computes. -/
theorem reachWithin_exec : ∀ {ls : List ℓ} {s t : σ}, (ofStep init step).ReachWithin guard s →
    exec guard step s ls = some t → (ofStep init step).ReachWithin guard t
  | [], s, t, hs, h => by
    simp only [exec, Option.some.injEq] at h
    rw [← h]
    exact hs
  | l :: ls, s, t, hs, h => by
    simp only [exec] at h
    split_ifs at h with hg
    split at h
    · next u hu => exact reachWithin_exec (.step hs hg hu) h
    · simp at h

end Exec

/-! ## Lists of labels -/

section Throughout

variable (step : σ → ℓ → Option σ)

/-- What holds in every state of the run on a list of labels, for as long as they are enabled. -/
def Throughout (P : σ → Prop) : σ → List ℓ → Prop
  | s, [] => P s
  | s, l :: ls => P s ∧ ∀ t, step s l = some t → Throughout P t ls

/-- Every step of the run on a list of labels meets the guard. -/
def Meets (guard : σ → ℓ → Prop) : σ → List ℓ → Prop
  | _, [] => True
  | s, l :: ls => ∀ t, step s l = some t → guard s l ∧ Meets guard t ls

variable {step}

/-- Where a step keeps a property exactly if it meets the guard, a run does. `N` is what every step
keeps. -/
theorem throughout_iff_meets {P N : σ → Prop} {guard : σ → ℓ → Prop}
    (hs : ∀ s l t, N s → P s → step s l = some t → N t ∧ (P t ↔ guard s l)) {s : σ} (hN : N s)
    (hP : P s) (ls : List ℓ) : Throughout step P s ls ↔ Meets step guard s ls := by
  induction ls generalizing s with
  | nil => exact iff_of_true hP trivial
  | cons l ls ih =>
    rw [Throughout, Meets, and_iff_right hP]
    refine forall_congr' fun t => forall_congr' fun hstep => ?_
    obtain ⟨hN', hiff⟩ := hs s l t hN hP hstep
    constructor
    · intro hrun
      have hP' : P t := by
        cases ls with
        | nil => exact hrun
        | cons => exact hrun.1
      exact ⟨hiff.mp hP', (ih hN' hP').mp hrun⟩
    · rintro ⟨hguard, hrun⟩
      exact (ih hN' (hiff.mpr hguard)).mpr hrun

end Throughout

end Lts
