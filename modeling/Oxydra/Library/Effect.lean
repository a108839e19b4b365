import Mathlib.Order.Defs.Unbundled

/-!
# Weakest preconditions of stateful computations that may fail

`EStateM ε σ` is the monad of computations over a state that keep the state when they fail, which
is what an early return through `?` does to data behind a mutable reference. `wp x Q E s` says that
`x`, run from `s`, ends in a success that meets `Q` or in a failure that meets `E`. The rules below
execute a computation one bind at a time; `wp.mono` is the rule of consequence, by which a caller
uses the specification of what it calls.
-/

namespace Effect

variable {ε σ α β : Type}

/-- A sequence that may fail succeeds when both of its parts do. -/
theorem except_bind_eq_ok {x : Except ε β} {f : β → Except ε α} {a : α} :
    x >>= f = .ok a ↔ ∃ b, x = .ok b ∧ f b = .ok a := by
  constructor
  · intro h
    cases x with
    | ok b => exact ⟨b, rfl, h⟩
    | error e => cases h
  · rintro ⟨b, rfl, h⟩
    exact h

theorem except_ok_bind {f : β → Except ε α} {b : β} : (Except.ok b >>= f) = f b := rfl

/-- A success is kept when the error is mapped. -/
theorem mapError_eq_ok {ε' : Type} {x : Except ε α} {f : ε → ε'} {a : α} :
    x.mapError f = .ok a ↔ x = .ok a := by
  cases x with
  | error e => exact ⟨fun h => (by cases h), fun h => (by cases h)⟩
  | ok b => exact ⟨fun h => congrArg _ (Except.ok.inj h), fun h => congrArg _ (Except.ok.inj h)⟩

/-- What can be told of each result of a walk is what can be told of each item. -/
theorem map_of_mapM_ok {γ : Type} {f : α → Except ε β} {p : β → γ} {q : α → γ}
    (hf : ∀ a b, f a = .ok b → p b = q a) :
    ∀ {items : List α} {results : List β}, items.mapM f = .ok results →
      results.map p = items.map q
  | [], results, h => by
    cases h
    rfl
  | a :: items, results, h => by
    rw [List.mapM_cons] at h
    obtain ⟨b, hb, h⟩ := except_bind_eq_ok.mp h
    obtain ⟨rest, hrest, h⟩ := except_bind_eq_ok.mp h
    cases h
    rw [List.map_cons, List.map_cons, hf a b hb, map_of_mapM_ok hf hrest]

/-- The weakest precondition of `x` for the postcondition `Q` on success and `E` on failure. -/
def wp (x : EStateM ε σ α) (Q : α → σ → Prop) (E : ε → σ → Prop) (s : σ) : Prop :=
  match x s with
  | .ok a t => Q a t
  | .error e t => E e t

variable {Q : α → σ → Prop} {E : ε → σ → Prop} {s : σ}

/-- The rule of consequence. -/
theorem wp.mono {x : EStateM ε σ α} {Q' : α → σ → Prop} {E' : ε → σ → Prop} (h : wp x Q E s)
    (hQ : ∀ a t, Q a t → Q' a t) (hE : ∀ e t, E e t → E' e t) : wp x Q' E' s := by
  unfold wp at *
  cases hx : x s with
  | ok a t => rw [hx] at h; exact hQ _ _ h
  | error e t => rw [hx] at h; exact hE _ _ h

/-- A run ends as it ends. -/
theorem wp_run (x : EStateM ε σ α) (s : σ) :
    wp x (fun a t => x s = .ok a t) (fun e t => x s = .error e t) s := by
  unfold wp
  cases x s <;> rfl

/-- Sequencing: what follows is specified from the state that the first part leaves. -/
@[simp] theorem wp_bind {x : EStateM ε σ β} {f : β → EStateM ε σ α} :
    wp (x >>= f) Q E s ↔ wp x (fun b t => wp (f b) Q E t) E s := by
  unfold wp
  show (match EStateM.bind x f s with | .ok a t => Q a t | .error e t => E e t) ↔ _
  unfold EStateM.bind
  cases x s <;> rfl

@[simp] theorem wp_map {x : EStateM ε σ β} {f : β → α} :
    wp (f <$> x) Q E s ↔ wp x (fun b t => Q (f b) t) E s := by
  unfold wp
  show (match EStateM.map f x s with | .ok a t => Q a t | .error e t => E e t) ↔ _
  unfold EStateM.map
  cases x s <;> rfl

@[simp] theorem wp_pure {a : α} : wp (pure a : EStateM ε σ α) Q E s ↔ Q a s := Iff.rfl

@[simp] theorem wp_throw {e : ε} : wp (throw e : EStateM ε σ α) Q E s ↔ E e s := Iff.rfl

@[simp] theorem wp_get {Q : σ → σ → Prop} : wp (get : EStateM ε σ σ) Q E s ↔ Q s s := Iff.rfl

@[simp] theorem wp_set {t : σ} {Q : PUnit → σ → Prop} :
    wp (set t : EStateM ε σ PUnit) Q E s ↔ Q ⟨⟩ t := Iff.rfl

@[simp] theorem wp_modify {f : σ → σ} {Q : PUnit → σ → Prop} :
    wp (modify f : EStateM ε σ PUnit) Q E s ↔ Q ⟨⟩ (f s) := Iff.rfl

/-- A branch is specified under its condition. -/
theorem wp_ite {c : Prop} [Decidable c] {x y : EStateM ε σ α} :
    wp (if c then x else y) Q E s ↔ (c → wp x Q E s) ∧ (¬c → wp y Q E s) := by
  by_cases h : c <;> simp [h]

/-- A run that succeeded meets its success postcondition. -/
theorem wp.ok {x : EStateM ε σ α} {a : α} {t : σ} (h : wp x Q E s) (hx : x s = .ok a t) :
    Q a t := by
  unfold wp at h
  rw [hx] at h
  exact h

/-- A run that failed meets its failure postcondition. -/
theorem wp.error {x : EStateM ε σ α} {e : ε} {t : σ} (h : wp x Q E s) (hx : x s = .error e t) :
    E e t := by
  unfold wp at h
  rw [hx] at h
  exact h

/-- A sequence whose first part succeeds goes on from where that leaves it. -/
theorem bind_ok {x : EStateM ε σ β} {f : β → EStateM ε σ α} {b : β} {t : σ} (hx : x s = .ok b t) :
    (x >>= f) s = f b t := by
  show EStateM.bind x f s = f b t
  unfold EStateM.bind
  rw [hx]

/-- A sequence succeeds when both of its parts do. -/
theorem bind_eq_ok {x : EStateM ε σ β} {f : β → EStateM ε σ α} {a : α} {t : σ} :
    (x >>= f) s = .ok a t ↔ ∃ b mid, x s = .ok b mid ∧ f b mid = .ok a t := by
  show EStateM.bind x f s = .ok a t ↔ _
  unfold EStateM.bind
  cases hx : x s with
  | ok b mid =>
    constructor
    · exact fun h => ⟨b, mid, rfl, h⟩
    · rintro ⟨_, _, heq, h⟩
      cases heq
      exact h
  | error e mid => simp

/-- A success is kept when the error is adapted. -/
theorem adaptExcept_eq_ok {ε' : Type} {x : EStateM ε' σ α} {f : ε' → ε} {a : α} {t : σ} :
    x.adaptExcept f s = .ok a t ↔ x s = .ok a t := by
  unfold EStateM.adaptExcept
  cases x s <;> simp

/-- What succeeds needs no handler. -/
theorem tryCatch_ok {x : EStateM ε σ α} {handle : ε → EStateM ε σ α} {a : α} {t : σ}
    (hx : x s = .ok a t) : (tryCatch x handle : EStateM ε σ α) s = .ok a t := by
  show EStateM.tryCatch x handle s = .ok a t
  unfold EStateM.tryCatch
  rw [hx]

/-- What fails goes on with the handler. -/
theorem tryCatch_error {x : EStateM ε σ α} {handle : ε → EStateM ε σ α} {e : ε} {t : σ}
    (hx : x s = .error e t) : (tryCatch x handle : EStateM ε σ α) s = handle e t := by
  show EStateM.tryCatch x handle s = handle e t
  unfold EStateM.tryCatch
  rw [hx]
  rfl

/-- A failure is kept, with its error adapted. -/
theorem adaptExcept_error {ε' : Type} {x : EStateM ε' σ α} {f : ε' → ε} {e : ε'} {t : σ}
    (hx : x s = .error e t) : x.adaptExcept f s = .error (f e) t := by
  unfold EStateM.adaptExcept
  rw [hx]

/-- A sequence whose first part fails is that failure. -/
theorem bind_error {x : EStateM ε σ β} {f : β → EStateM ε σ α} {e : ε} {t : σ}
    (hx : x s = .error e t) : (x >>= f) s = .error e t := by
  show EStateM.bind x f s = .error e t
  unfold EStateM.bind
  rw [hx]

/-- A success, as the value that is there. -/
theorem mem_toOption {x : Except ε α} {a : α} : a ∈ x.toOption ↔ x = .ok a := by
  cases x <;> simp [Except.toOption]

/-- A pure result that may be a failure, as a computation that leaves the state alone. -/
def ofExcept : Except ε α → EStateM ε σ α
  | .ok a => pure a
  | .error e => throw e

/-- A lifted result succeeds when it is a success, and leaves the state. -/
theorem ofExcept_eq_ok {r : Except ε α} {a : α} {t : σ} :
    (ofExcept r : EStateM ε σ α) s = .ok a t ↔ r = .ok a ∧ s = t := by
  cases r with
  | ok b =>
    show EStateM.Result.ok b s = .ok a t ↔ _
    simp
  | error e =>
    show EStateM.Result.error e s = .ok a t ↔ _
    simp

/-- A lifted result is specified by its two cases. -/
@[simp] theorem wp_ofExcept {r : Except ε α} :
    wp (ofExcept r : EStateM ε σ α) Q E s ↔ (∀ a, r = .ok a → Q a s) ∧
      (∀ e, r = .error e → E e s) := by
  cases r <;> simp [ofExcept]

/-- A mapped error is specified by what it is mapped to. -/
@[simp] theorem wp_adaptExcept {ε' : Type} {x : EStateM ε' σ α} {f : ε' → ε} :
    wp (x.adaptExcept f) Q E s ↔ wp x Q (fun e => E (f e)) s := by
  unfold wp EStateM.adaptExcept
  cases x s <;> rfl

/-- A handler goes on from the state that the failure leaves. -/
@[simp] theorem wp_tryCatch {x : EStateM ε σ α} {handle : ε → EStateM ε σ α} :
    wp (tryCatch x handle) Q E s ↔ wp x Q (fun e t => wp (handle e) Q E t) s := by
  unfold wp
  show (match EStateM.tryCatch x handle s with | .ok a t => Q a t | .error e t => E e t) ↔ _
  unfold EStateM.tryCatch
  cases x s <;> rfl

end Effect
