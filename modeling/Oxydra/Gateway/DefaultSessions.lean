import Oxydra.Gateway.Sessions
import Oxydra.Gateway.TurnRunner

/-!
# Conversations on default sessions

`default_session_id` of `crates/gateway/src/lib.rs` makes a session id out of a user id, and the
turn runner keeps its contexts by session id alone. Two users are isolated if the messages on which
a turn of the one is run are the same with and without the turns of the other. That is so exactly if
their user ids do not `Collide`: the rewriting of characters that a session id may not have is all
that can bring two users together.
-/

namespace Oxydra

open Option Function List

/-! ## Default session ids -/

/-- The characters of a user id that its default session id keeps, besides `-`. -/
def KeptChar (c : Char) : Prop := c.isAlphanum ∨ c = '_'

instance (c : Char) : Decidable (KeptChar c) :=
  inferInstanceAs (Decidable (c.isAlphanum ∨ c = '_'))

/-- Two user ids are as long as each other, and have at each place the same character, or two that
are neither letters nor digits nor `_`. -/
def Collide (u v : String) : Prop :=
  List.Forall₂ (fun a b => a = b ∨ ¬KeptChar a ∧ ¬KeptChar b) u.toList v.toList

instance (u v : String) : Decidable (Collide u v) :=
  inferInstanceAs (Decidable (List.Forall₂ _ _ _))

/-- The rewriting of one character. -/
theorem rewrite_eq_iff (a b : Char) :
    ((if a.isAlphanum ∨ a = '_' ∨ a = '-' then a else '-') =
        if b.isAlphanum ∨ b = '_' ∨ b = '-' then b else '-') ↔
      a = b ∨ ¬KeptChar a ∧ ¬KeptChar b := by
  unfold KeptChar
  have hdash : ¬ '-'.isAlphanum ∧ '-' ≠ '_' := by decide
  by_cases ha : a = '-'
  · subst ha
    by_cases hb : b = '-' <;> grind
  · by_cases hb : b = '-'
    · subst hb
      grind
    · grind

/-- Two users have one default session id exactly if their ids collide. -/
theorem defaultSessionId_eq_iff (u v : String) :
    defaultSessionId u = defaultSessionId v ↔ Collide u v := by
  unfold defaultSessionId Collide
  rw [← String.toList_inj]
  simp only [String.toList_append, String.toList_ofList, append_cancel_left_eq]
  rw [← forall₂_eq_eq_eq, forall₂_map_left_iff, forall₂_map_right_iff]
  simp only [rewrite_eq_iff]

/-! ## Turns on default sessions -/

/-- A turn that a user submits on the default session. -/
structure DefaultTurn where
  user_id : String
  request : TurnRequest
  on_default : request.session_id = defaultSessionId user_id

/-- The state after turns, one after the other. -/
def TurnRunner.runTurns (runner : TurnRunner) : RunnerState → List TurnRequest → Option RunnerState
  | st, [] => some st
  | st, req :: reqs =>
    match runner.runTurn st req with
    | some (_, st') => runner.runTurns st' reqs
    | none => none

/-- The messages on which a turn of `u` is run do not depend on the turns of `v`: they are the same
as if only `u` had submitted turns. -/
def Isolated (u v : String) : Prop :=
  ∀ (runner : TurnRunner) (st st' : RunnerState) (turns : List DefaultTurn),
    (∀ turn ∈ turns, turn.user_id = u ∨ turn.user_id = v) →
    runner.runTurns st (turns.map DefaultTurn.request) = some st' →
    ∃ alone, runner.runTurns st ((turns.filter fun turn => turn.user_id = u).map
        DefaultTurn.request) = some alone ∧
      ∀ turn : DefaultTurn, turn.user_id = u →
        runner.turnMessages st' turn.request = runner.turnMessages alone turn.request

/-- Two states have the same of a session. -/
def AgreeOn (session_id : String) (st₁ st₂ : RunnerState) : Prop :=
  st₁.contexts session_id = st₂.contexts session_id ∧
    st₁.memory session_id = st₂.memory session_id

/-- A turn leaves other sessions alone. -/
theorem runTurn_frame {runner : TurnRunner} {st st' : RunnerState} {req : TurnRequest}
    {result : Except RuntimeError Response} (h : runner.runTurn st req = some (result, st'))
    {session_id : String} (hne : session_id ≠ req.session_id) : AgreeOn session_id st' st := by
  simp only [TurnRunner.runTurn] at h
  split at h
  · cases h
  · cases h
    exact ⟨update_of_ne hne _ _, rfl⟩
  · split at h
    · cases h
    · cases h
      exact ⟨update_of_ne hne _ _, update_of_ne hne _ _⟩

/-- A turn depends on its own session alone. -/
theorem runTurn_agree {runner : TurnRunner} {st₁ st₂ st₁' : RunnerState} {req : TurnRequest}
    {result : Except RuntimeError Response} (hagree : AgreeOn req.session_id st₁ st₂)
    (h : runner.runTurn st₁ req = some (result, st₁')) :
    ∃ st₂', runner.runTurn st₂ req = some (result, st₂') ∧ AgreeOn req.session_id st₁' st₂' := by
  have hcontext : runner.contextFor st₁ req = runner.contextFor st₂ req := by
    unfold TurnRunner.contextFor
    rw [hagree.1]
  -- a run is given the context and the memory of its session, and nothing else of the state
  have hrun : ∀ policy, runner.turnRun st₁ req policy = runner.turnRun st₂ req policy := by
    intro policy
    unfold TurnRunner.turnRun TurnRunner.turnEnv TurnRunner.turnMessages
    rw [hcontext, hagree.2]
  simp only [TurnRunner.runTurn, ← hcontext, ← hrun] at h ⊢
  split at h
  · cases h
  · cases h
    refine ⟨_, rfl, ?_, hagree.2⟩
    simp only [update_self]
  · split at h
    · cases h
    · cases h
      refine ⟨_, rfl, ?_, ?_⟩
      all_goals simp only [update_self]

/-- Turns on another session are not seen. -/
theorem runTurns_agree {runner : TurnRunner} {u v : String}
    (hne : defaultSessionId u ≠ defaultSessionId v) {turns : List DefaultTurn}
    (hturns : ∀ turn ∈ turns, turn.user_id = u ∨ turn.user_id = v) {st₁ st₂ st₁' : RunnerState}
    (hagree : AgreeOn (defaultSessionId u) st₁ st₂)
    (h : runner.runTurns st₁ (turns.map DefaultTurn.request) = some st₁') :
    ∃ st₂', runner.runTurns st₂ ((turns.filter fun turn => turn.user_id = u).map
      DefaultTurn.request) = some st₂' ∧ AgreeOn (defaultSessionId u) st₁' st₂' := by
  induction turns generalizing st₁ st₂ with
  | nil =>
    cases h
    exact ⟨st₂, rfl, hagree⟩
  | cons turn turns ih =>
    have hrest := fun t ht => hturns t (mem_cons_of_mem turn ht)
    simp only [map_cons, TurnRunner.runTurns] at h
    split at h
    · next result mid hturn =>
      by_cases hu : turn.user_id = u
      · -- both runs take the turn, from states that agree on its session
        have hsession : turn.request.session_id = defaultSessionId u := hu ▸ turn.on_default
        rw [← hsession] at hagree
        obtain ⟨mid₂, hturn₂, hagree⟩ := runTurn_agree hagree hturn
        rw [hsession] at hagree
        obtain ⟨st₂', hrun, hagree⟩ := ih hrest hagree h
        refine ⟨st₂', ?_, hagree⟩
        simpa [hu, TurnRunner.runTurns, hturn₂] using hrun
      · -- only one run takes the turn, which leaves the session of `u` alone
        have hv : turn.user_id = v := (hturns turn mem_cons_self).resolve_left hu
        have hother : defaultSessionId u ≠ turn.request.session_id := by
          rw [turn.on_default, hv]
          exact hne
        have hframe := runTurn_frame hturn hother
        obtain ⟨st₂', hrun, hagree⟩ := ih hrest ⟨hframe.1.trans hagree.1,
          hframe.2.trans hagree.2⟩ h
        refine ⟨st₂', ?_, hagree⟩
        simpa [hu] using hrun
    · cases h

/-- A runner whose runtime has no memory. -/
def plainRunner : TurnRunner where
  runtime := toolRuntime
  default_selection := ⟨"openai", "gpt-4o"⟩

/-- A turn of a user on the default session, which the provider answers at once. -/
def defaultTurn (user_id : String) : DefaultTurn where
  user_id := user_id
  request :=
    { user_id := user_id
      session_id := defaultSessionId user_id
      input := { prompt := "Hello" }
      inputs := [reply [] 5] }
  on_default := rfl

set_option maxRecDepth 10000 in
/-- Such a turn leaves its message and the answer in the context of its session. -/
theorem defaultTurn_context (user_id : String) :
    ∃ st context, plainRunner.runTurns {} [(defaultTurn user_id).request] = some st ∧
      st.contexts (defaultSessionId user_id) = some context ∧
      context.messages = [(defaultTurn user_id).request.input.message, { role := .assistant }] := by
  have hpolicy : plainRunner.turnPolicy (defaultTurn user_id).request = some (.ok none) := rfl
  obtain ⟨r, s, hturn, hmessages⟩ : ∃ r s,
      plainRunner.turnRun {} (defaultTurn user_id).request none = .done (.ok r) s ∧
        s.context.messages = [(defaultTurn user_id).request.input.message,
          { role := .assistant }] := by
    refine ⟨_, _, rfl, ?_⟩
    rfl
  have hrun : plainRunner.runTurns {} [(defaultTurn user_id).request] = some
      { contexts := update (fun _ => none) (defaultSessionId user_id) (some s.context)
        memory := update (fun _ => {}) (defaultSessionId user_id) s.memory } := by
    simp only [TurnRunner.runTurns, TurnRunner.runTurn, hpolicy, hturn]
    rfl
  refine ⟨_, s.context, hrun, ?_, hmessages⟩
  simp only [update_self]

/-- Users with one default session id are not isolated: a turn of `u` is run on what `v` said. -/
theorem not_isolated {u v : String} (hne : u ≠ v)
    (hsame : defaultSessionId u = defaultSessionId v) : ¬Isolated u v := by
  intro hiso
  obtain ⟨st, context, hrun, hcontext, hmessages⟩ := defaultTurn_context v
  obtain ⟨alone, halone, hsee⟩ :=
    hiso plainRunner {} st [defaultTurn v] (by simp [defaultTurn]) hrun
  have hnone : alone = {} := by
    simpa [defaultTurn, hne.symm, TurnRunner.runTurns] using halone.symm
  have hfound : (plainRunner.contextFor st (defaultTurn u).request).messages.length = 2 := by
    simp [TurnRunner.contextFor, defaultTurn, hsame, hcontext, hmessages]
  have hbase : (plainRunner.contextFor {} (defaultTurn u).request).messages = [] := rfl
  have hlength := congrArg List.length (hsee (defaultTurn u) rfl)
  simp only [TurnRunner.turnMessages, stripAttachments, hnone, length_append,
    length_map, hfound, hbase, length_nil] at hlength
  omega

/-- Two users are isolated on their default sessions exactly if their ids do not collide. -/
theorem default_sessions_isolated_iff {u v : String} (hne : u ≠ v) :
    Isolated u v ↔ ¬Collide u v := by
  rw [← defaultSessionId_eq_iff]
  constructor
  · intro hiso hsame
    exact not_isolated hne hsame hiso
  · intro hdiffer runner st st' turns hturns hrun
    obtain ⟨alone, halone, hagree⟩ := runTurns_agree hdiffer hturns ⟨rfl, rfl⟩ hrun
    refine ⟨alone, halone, fun turn hturn => ?_⟩
    have hsession : turn.request.session_id = defaultSessionId u := hturn ▸ turn.on_default
    unfold TurnRunner.turnMessages TurnRunner.contextFor
    rw [hsession, hagree.1]

/-- Alice and Bob are isolated. -/
theorem alice_bob_isolated : ¬Collide "alice" "bob" ∧ Isolated "alice" "bob" :=
  ⟨by decide, (default_sessions_isolated_iff (by decide)).mpr (by decide)⟩

/-- The turn of the user `a-b` is run on the message that the user `a.b` sent. -/
theorem mixed_default_conversation :
    (∃ st, plainRunner.runTurns {} [(defaultTurn "a.b").request] = some st ∧
      (defaultTurn "a.b").request.input.message ∈
        (plainRunner.contextFor st (defaultTurn "a-b").request).messages) ∧
    ¬Isolated "a-b" "a.b" := by
  have hsame : defaultSessionId "a-b" = defaultSessionId "a.b" := by decide
  refine ⟨?_, not_isolated (by decide) hsame⟩
  obtain ⟨st, context, hrun, hcontext, hmessages⟩ := defaultTurn_context "a.b"
  refine ⟨st, hrun, ?_⟩
  have hfound : plainRunner.contextFor st (defaultTurn "a-b").request = context := by
    show (st.contexts (defaultSessionId "a-b")).getD _ = context
    rw [hsame, hcontext, Option.getD_some]
  rw [hfound, hmessages]
  exact mem_cons_self

end Oxydra
