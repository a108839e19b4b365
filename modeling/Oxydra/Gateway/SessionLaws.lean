import Oxydra.Gateway.Sessions

/-!
# Who gets a session, and how many there are

Three laws of the sessions of the gateway, over all interleavings of requests: a user gets only
sessions that the user owns, one id has one live state, and a user has no more sessions than the
configuration allows. The code keeps each of them only where a request does not come upon what the
law forbids, so each law is proved for the runs that meet a guard, and a run that breaks both the
guard and the law stands after it.

A session is *known* to a user if the user's map holds it or one of the user's requests has it at
hand. Everything that becomes known was known before, or was just inserted (`known_step`).
-/

namespace Oxydra

open AList Option List Lts

variable {id u : String} {h : ℕ}

/-! ## Maps and sessions after a step -/

section

variable {config : GatewayConfig} {g g' : GatewayState} {phase phase' : RequestPhase}
  {act : GatewayAction}

/-- What does not change of the session behind a handle. -/
def GatewayState.identAt (g : GatewayState) (h : ℕ) : Option (String × String × String) :=
  g.heap[h]?.map LiveSession.ident

theorem identAt_of_getElem? {s : LiveSession} (hs : g.heap[h]? = some s) :
    g.identAt h = some s.ident := by
  rw [GatewayState.identAt, hs, map_some]

theorem sessions_insertSession (u v : String) (s : LiveSession) :
    (g.insertSession u s).sessions v =
      if v = u then (g.sessions u).insert s.session_id g.heap.length else g.sessions v := by
  unfold GatewayState.insertSession
  by_cases hv : v = u
  · subst hv
    simp [GatewayState.sessions]
  · simp [GatewayState.sessions, hv]

theorem sessions_removeSession (u v id : String) :
    (g.removeSession u id).sessions v =
      if v = u then (g.sessions u).erase id else g.sessions v := by
  unfold GatewayState.removeSession
  by_cases hv : v = u
  · subst hv
    simp [GatewayState.sessions]
  · simp [GatewayState.sessions, hv]

/-- What a map holds after an insertion: the new session at its place, and what it held
elsewhere. -/
theorem lookup_insertSession {u v id : String} {s : LiveSession}
    (hl : ((g.insertSession u s).sessions v).lookup id = some h) :
    (v = u ∧ id = s.session_id ∧ h = g.heap.length) ∨
      (¬(v = u ∧ id = s.session_id) ∧ (g.sessions v).lookup id = some h) := by
  rw [sessions_insertSession] at hl
  split_ifs at hl with hv
  · subst hv
    by_cases hid : id = s.session_id
    · subst hid
      rw [lookup_insert] at hl
      exact Or.inl ⟨rfl, rfl, (some.inj hl).symm⟩
    · rw [lookup_insert_ne hid] at hl
      exact Or.inr ⟨fun h => hid h.2, hl⟩
  · exact Or.inr ⟨fun h => hv h.1, hl⟩

/-- What a map holds after a removal it held before. -/
theorem lookup_removeSession {u v id k : String}
    (hl : ((g.removeSession u id).sessions v).lookup k = some h) :
    (g.sessions v).lookup k = some h := by
  rw [sessions_removeSession] at hl
  split_ifs at hl with hv
  · subst hv
    by_cases hk : k = id
    · subst hk
      rw [lookup_erase] at hl
      cases hl
    · rwa [lookup_erase_ne hk] at hl
  · exact hl

theorem identAt_insertSession {s : LiveSession} :
    (g.insertSession u s).identAt g.heap.length = some s.ident := by
  apply identAt_of_getElem?
  simp [GatewayState.insertSession]

/-- A session keeps its identity. -/
theorem identAt_step {x : String × String × String} (he : StepEffect config g phase act g' phase')
    (hx : g.identAt h = some x) :
    g'.identAt h = some x := by
  cases he with
  | quiet hu hh ha hp =>
    unfold GatewayState.identAt at hx ⊢
    rw [← List.getElem?_map, hh, List.getElem?_map]
    exact hx
  | hit u id h hg hl hp =>
    rw [hg]
    exact hx
  | insert u s hins hp =>
    obtain ⟨y, hy, rfl⟩ := map_eq_some_iff.mp hx
    have hlt : h < g.heap.length := (List.getElem?_eq_some_iff.mp hy).1
    rw [hins.shared]
    apply identAt_of_getElem?
    show (g.heap ++ [s])[h]? = some y
    rw [List.getElem?_append_left hlt]
    exact hy
  | erase u id hg hp =>
    rw [hg]
    exact hx

end

/-! ## What the users know -/

section

variable {ι : Type} [DecidableEq ι] {config : GatewayConfig}
  {s t : Threads ι GatewayState RequestPhase} {i : ι} {act : GatewayAction}

/-- A request of the user `u` has the session at hand. -/
def Held (s : Threads ι GatewayState RequestPhase) (u : String) (h : ℕ) : Prop :=
  ∃ i, (s.threads i).handle = some (u, h)

/-- The user's map holds the session, or a request of the user has it at hand. -/
def Known (s : Threads ι GatewayState RequestPhase) (u : String) (h : ℕ) : Prop :=
  (∃ id, (s.shared.sessions u).lookup id = some h) ∨ Held s u h

/-- A step of the system and its effect. -/
theorem gateway_step (h : (gatewaySystem ι config).step s (i, act) t) :
    ∃ phase', gatewayStep config s.shared (s.threads i) act = some (t.shared, phase') ∧
      t.threads = Function.update s.threads i phase' ∧
      StepEffect config s.shared (s.threads i) act t.shared phase' := by
  obtain ⟨g', phase', hstep, rfl⟩ := interleave_step h
  exact ⟨phase', hstep, rfl, step_effect hstep⟩

/-- Who holds a session after a step: the thread that stepped, or another one as before. -/
theorem held_update {phase' : RequestPhase}
    (hthreads : t.threads = Function.update s.threads i phase') (hh : Held t u h) :
    phase'.handle = some (u, h) ∨ Held s u h := by
  obtain ⟨j, hj⟩ := hh
  rw [hthreads] at hj
  by_cases hji : j = i
  · subst hji
    rw [Function.update_self] at hj
    exact Or.inl hj
  · rw [Function.update_of_ne hji] at hj
    exact Or.inr ⟨j, hj⟩

omit [DecidableEq ι] in
/-- A session that a request has at hand after its step it had before, or it found it in a map, or
inserted it. -/
theorem handle_step {phase' : RequestPhase}
    (he : StepEffect config s.shared (s.threads i) act t.shared phase')
    (hh : phase'.handle = some (u, h)) :
    Held s u h ∨ (∃ id, (s.shared.sessions u).lookup id = some h ∧ t.shared = s.shared) ∨
      (h = s.shared.heap.length ∧
        ∃ sess, Insertion config s.shared (s.threads i) act t.shared u sess) := by
  cases he with
  | quiet hu hheap ha hp =>
    obtain hp | hp := hp
    · rw [hp] at hh
      cases hh
    · exact Or.inl ⟨i, hp ▸ hh⟩
  | hit v id k hg hl hp =>
    obtain ⟨rfl, rfl⟩ := Prod.mk.inj (some.inj (hp.symm.trans hh))
    exact Or.inr (Or.inl ⟨id, hl, hg⟩)
  | insert v sess hins hp =>
    obtain ⟨rfl, rfl⟩ := Prod.mk.inj (some.inj (hp.symm.trans hh))
    exact Or.inr (Or.inr ⟨rfl, sess, hins⟩)
  | erase v id hg hp =>
    rw [hp] at hh
    cases hh

omit [DecidableEq ι] in
/-- The maps hold nothing new after a step that does not insert. -/
theorem lookup_step {phase' : RequestPhase}
    (he : StepEffect config s.shared (s.threads i) act t.shared phase')
    (hno : ∀ u sess, ¬Insertion config s.shared (s.threads i) act t.shared u sess)
    (hl : (t.shared.sessions u).lookup id = some h) :
    (s.shared.sessions u).lookup id = some h := by
  cases he with
  | quiet hu hh ha hp => rwa [hu] at hl
  | hit v k h hg hl' hp => rwa [hg] at hl
  | insert v sess hins hp => exact absurd hins (hno v sess)
  | erase v k hg hp =>
    rw [hg] at hl
    exact lookup_removeSession hl

omit [DecidableEq ι] in
/-- What a map holds after a step it held before, or it was just inserted. -/
theorem lookup_origin {phase' : RequestPhase} {k : ℕ}
    (he : StepEffect config s.shared (s.threads i) act t.shared phase')
    (hl : (t.shared.sessions u).lookup id = some k) :
    (s.shared.sessions u).lookup id = some k ∨ (k = s.shared.heap.length ∧
      phase'.handle = some (u, s.shared.heap.length) ∧ ∃ sess, sess.session_id = id ∧
        Insertion config s.shared (s.threads i) act t.shared u sess) := by
  cases he with
  | quiet hu hh ha hp => exact .inl (by rwa [hu] at hl)
  | hit v id' h hg hl' hp => exact .inl (by rwa [hg] at hl)
  | insert v sess hins hp =>
    rw [hins.shared] at hl
    obtain ⟨rfl, rfl, rfl⟩ | ⟨-, hl⟩ := lookup_insertSession hl
    · exact .inr ⟨rfl, hp, sess, rfl, hins⟩
    · exact .inl hl
  | erase v id' hg hp =>
    rw [hg] at hl
    exact .inl (lookup_removeSession hl)

/-- What a user knows after a step was known before, or was just inserted for this user. -/
theorem known_step (hst : (gatewaySystem ι config).step s (i, act) t) (hk : Known t u h) :
    Known s u h ∨ (h = s.shared.heap.length ∧
      ∃ sess, Insertion config s.shared (s.threads i) act t.shared u sess) := by
  obtain ⟨phase', -, hthreads, he⟩ := gateway_step hst
  obtain ⟨id, hl⟩ | hh := hk
  · by_cases hins : ∃ v sess, Insertion config s.shared (s.threads i) act t.shared v sess
    · obtain ⟨v, sess, hins⟩ := hins
      rw [hins.shared] at hl
      obtain ⟨rfl, -, rfl⟩ | ⟨-, hl⟩ := lookup_insertSession hl
      · exact Or.inr ⟨rfl, sess, hins⟩
      · exact Or.inl (Or.inl ⟨id, hl⟩)
    · have hl := lookup_step he (fun v sess hi => hins ⟨v, sess, hi⟩) hl
      exact Or.inl (Or.inl ⟨id, hl⟩)
  · obtain hh | hh := held_update hthreads hh
    · obtain hheld | ⟨id, hl, -⟩ | hnew := handle_step he hh
      · exact Or.inl (Or.inr hheld)
      · exact Or.inl (Or.inl ⟨id, hl⟩)
      · exact Or.inr hnew
    · exact Or.inl (Or.inr hh)

/-- Nobody knows a session before the first step. -/
theorem not_known_init (hs : (gatewaySystem ι config).init s) (u : String) (h : ℕ) :
    ¬Known s u h := by
  obtain ⟨husers, -, hidle⟩ := hs
  rintro (⟨id, hl⟩ | ⟨j, hj⟩)
  · simp [GatewayState.sessions, husers] at hl
  · rw [hidle j] at hj
    cases hj

/-! ## Ownership -/

/-- The user to whom a request handed a session, and the session. -/
def RequestPhase.handed : RequestPhase → Option (String × ℕ)
  | .served user_id (.ok handle) _ => some (user_id, handle)
  | _ => none

/-- The user and the id of a search that is about to ask the store. -/
def RequestPhase.storeSearch : RequestPhase → Option (String × String)
  | .looking user_id session_id _ .store => some (user_id, session_id)
  | _ => none

/-- Each session that a request handed to a user has the user as its owner. -/
def HandedOwned (s : Threads ι GatewayState RequestPhase) : Prop :=
  ∀ i, ∀ p ∈ (s.threads i).handed, ∃ x ∈ s.shared.heap[p.2]?, x.user_id = p.1

/-- A search by id finds in the store no record of another user. -/
def FindsOwn (s : Threads ι GatewayState RequestPhase) (l : ι × GatewayAction) : Prop :=
  ∀ inp ∈ l.2.input, ∀ p ∈ (s.threads l.1).storeSearch,
    ∀ record ∈ (askStore inp s.shared fun records => SessionStore.getSession records p.2).join,
      record.user_id = p.1

/-- What keeps ownership: users know only what they own, and resume only their own records. -/
structure Owned (s : Threads ι GatewayState RequestPhase) : Prop where
  known : ∀ u h, Known s u h → ∃ x ∈ s.shared.identAt h, x.2.1 = u
  resumed : ∀ j u id missing r, s.threads j = .looking u id missing (.resume r) → r.user_id = u

omit [DecidableEq ι] in
theorem Owned.handed (h : Owned s) : HandedOwned s := by
  intro j p hp
  have hhandle : (s.threads j).handle = some p := by
    unfold RequestPhase.handed at hp
    split at hp
    · next u k sub hphase =>
      rw [hphase]
      exact hp
    · cases hp
  obtain ⟨x, hx, howner⟩ := h.known p.1 p.2 (Or.inr ⟨j, hhandle⟩)
  obtain ⟨y, hy, rfl⟩ := map_eq_some_iff.mp hx
  exact ⟨y, hy, howner⟩

/-- A step that finds no record of another user keeps ownership. -/
theorem Owned.step (h : Owned s) (hown : FindsOwn s (i, act))
    (hst : (gatewaySystem ι config).step s (i, act) t) : Owned t := by
  obtain ⟨phase', hstep, hthreads, he⟩ := gateway_step hst
  constructor
  · intro u k hk
    obtain hk | ⟨rfl, sess, hins⟩ := known_step hst hk
    · obtain ⟨x, hx, howner⟩ := h.known u k hk
      exact ⟨x, identAt_step he hx, howner⟩
    · refine ⟨sess.ident, ?_, ?_⟩
      · rw [hins.shared]
        exact identAt_insertSession
      · -- a session that was made is the user's, and one that was resumed has the record's owner
        obtain howner | ⟨id, missing, r, hphase, howner⟩ := hins.owner
        · exact howner
        · exact howner.trans (h.resumed i u id missing r hphase)
  · intro j u id missing r hj
    rw [hthreads] at hj
    by_cases hji : j = i
    · subst hji
      rw [Function.update_self] at hj
      subst hj
      obtain hphase | ⟨inp, hinp, hphase, hfound⟩ := step_resume hstep
      · exact h.resumed j u id missing r hphase
      · -- the record was just found
        exact hown inp hinp (u, id) (by rw [hphase]; rfl) r hfound
    · rw [Function.update_of_ne hji] at hj
      exact h.resumed j u id missing r hj

/-- In every run in which the store has, under each id that a user looks for, no record of another
user, each session that is handed to a user is the user's own. -/
theorem handed_sessions_owned (h : (gatewaySystem ι config).ReachWithin FindsOwn s) :
    HandedOwned s := by
  apply Owned.handed
  apply h.invariant
  · intro s hs
    constructor
    · intro u k hk
      exact absurd hk (not_known_init hs u k)
    · intro j u id missing r hj
      rw [hs.2.2 j] at hj
      cases hj
  · intro s l t hs hown hst
    exact hs.step hown hst

end

instance {ι : Type} (s : Threads ι GatewayState RequestPhase) (l : ι × GatewayAction) :
    Decidable (FindsOwn s l) :=
  inferInstanceAs (Decidable (∀ inp ∈ l.2.input, ∀ p ∈ (s.threads l.1).storeSearch,
    ∀ record ∈ (askStore inp s.shared fun records => SessionStore.getSession records p.2).join,
      record.user_id = p.1))

/-- No user is known, and the store is empty. -/
def emptyGateway (ι : Type) : Threads ι GatewayState RequestPhase :=
  ⟨{}, fun _ => .idle⟩

/-- A request and its next steps, which make the given UUID. -/
def requestSteps {ι : Type} (i : ι) (req : Request) (uuid : String) (n : ℕ) :
    List (ι × GatewayAction) :=
  (i, .request req) :: List.replicate n (i, .next { uuid })

/-- Alice creates a session, leaves, and comes back to it by its id. -/
def createThenReturn : List (Fin 2 × GatewayAction) :=
  requestSteps 0 (.hello "alice" none true) "0198-a" 5 ++
    requestSteps 1 (.hello "alice" (some "0198-a") false) "" 2

/-- Alice gets her own session both times. -/
theorem createThenReturn_owned : ∃ s, (gatewaySystem (Fin 2) {}).ReachWithin FindsOwn s ∧
    (s.threads 1).handed = some ("alice", 0) ∧ HandedOwned s := by
  obtain ⟨s, hs, hhanded⟩ : ∃ s ∈ exec FindsOwn (threadStep (gatewayStep {}))
      (emptyGateway (Fin 2)) createThenReturn, (s.threads 1).handed = some ("alice", 0) := by
    decide
  have hreach : (gatewaySystem (Fin 2) {}).ReachWithin FindsOwn s :=
    reachWithin_exec (.init ⟨rfl, rfl, fun _ => rfl⟩) hs
  exact ⟨s, hreach, hhanded, handed_sessions_owned hreach⟩

/-- Alice creates a session, and Bob asks for it by its id. -/
def createThenTake : List (Fin 2 × GatewayAction) :=
  requestSteps 0 (.hello "alice" none true) "0198-a" 5 ++
    requestSteps 1 (.hello "bob" (some "0198-a") false) "" 4

/-- Bob gets a session that Alice owns. -/
theorem session_of_another_user : ∃ s, (gatewaySystem (Fin 2) {}).Reach s ∧
    (s.threads 1).handed = some ("bob", 1) ∧
    s.shared.heap[1]?.map LiveSession.user_id = some "alice" ∧ ¬HandedOwned s := by
  obtain ⟨s, hs, hhanded, howner⟩ : ∃ s ∈ exec (fun _ _ => True) (threadStep (gatewayStep {}))
      (emptyGateway (Fin 2)) createThenTake, (s.threads 1).handed = some ("bob", 1) ∧
        s.shared.heap[1]?.map LiveSession.user_id = some "alice" := by
    decide
  refine ⟨s, reachWithin_exec (.init ⟨rfl, rfl, fun _ => rfl⟩) hs, hhanded, howner, fun h => ?_⟩
  obtain ⟨x, hx, hbob⟩ := h 1 _ hhanded
  rw [mem_def.mp hx] at howner
  simp [hbob] at howner

/-! ## One state for one id -/

section

variable {ι : Type} [DecidableEq ι] {config : GatewayConfig}
  {s t : Threads ι GatewayState RequestPhase} {i : ι} {act : GatewayAction}

section

variable (s : Threads ι GatewayState RequestPhase)

/-- A client has the session at hand, or a turn of it is active. -/
def InUse (h : ℕ) : Prop :=
  (∃ i, ∃ p ∈ (s.threads i).handle, p.2 = h) ∨ s.shared.active h

/-- A client or a turn can come to the session: it is in use, or its user's map holds it. -/
def Live (h : ℕ) : Prop :=
  (∃ u id, (s.shared.sessions u).lookup id = some h) ∨ InUse s h

/-- Two live states that a user got under one session id are the same state. -/
def OneState : Prop :=
  ∀ h₁ h₂, Live s h₁ → Live s h₂ → ∀ x₁ ∈ s.shared.heap[h₁]?, ∀ x₂ ∈ s.shared.heap[h₂]?,
    x₁.holder = x₂.holder → x₁.session_id = x₂.session_id → h₁ = h₂

/-- A session is inserted only where no state of its id is in use. -/
def InsertsUnused (l : ι × GatewayAction) : Prop :=
  ∀ inp ∈ l.2.input, ∀ p ∈ (s.threads l.1).insertion inp, ∀ h < s.shared.heap.length,
    ∀ x ∈ s.shared.heap[h]?, x.holder = p.1 → x.session_id = p.2 → ¬InUse s h

end

omit [DecidableEq ι] in
/-- Whether two live states are the same can be told from what does not change of them. -/
theorem oneState_iff : OneState s ↔ ∀ h₁ h₂, Live s h₁ → Live s h₂ →
    ∀ x₁ ∈ s.shared.identAt h₁, ∀ x₂ ∈ s.shared.identAt h₂,
      x₁.2.2 = x₂.2.2 → x₁.1 = x₂.1 → h₁ = h₂ := by
  constructor
  · intro h h₁ h₂ hl₁ hl₂ x₁ hx₁ x₂ hx₂ hholder hid
    obtain ⟨y₁, hy₁, rfl⟩ := map_eq_some_iff.mp hx₁
    obtain ⟨y₂, hy₂, rfl⟩ := map_eq_some_iff.mp hx₂
    exact h h₁ h₂ hl₁ hl₂ y₁ hy₁ y₂ hy₂ hholder hid
  · intro h h₁ h₂ hl₁ hl₂ x₁ hx₁ x₂ hx₂ hholder hid
    exact h h₁ h₂ hl₁ hl₂ x₁.ident (identAt_of_getElem? hx₁) x₂.ident (identAt_of_getElem? hx₂)
      hholder hid

/-- What keeps one state for one id: each map has its entries under their ids. -/
structure Single (s : Threads ι GatewayState RequestPhase) : Prop where
  placed : ∀ u id h, (s.shared.sessions u).lookup id = some h →
    ∃ x ∈ s.shared.identAt h, x.2.2 = u ∧ x.1 = id
  exists_live : ∀ h, Live s h → (s.shared.identAt h).isSome
  one : OneState s

/-- What is in use after a step was in use before, or the step found it in a map, or inserted it. -/
theorem inUse_step (hst : (gatewaySystem ι config).step s (i, act) t) (hu : InUse t h) :
    InUse s h ∨ (∃ u id, (s.shared.sessions u).lookup id = some h ∧ t.shared = s.shared) ∨
      (h = s.shared.heap.length ∧
        ∃ u sess, Insertion config s.shared (s.threads i) act t.shared u sess) := by
  obtain ⟨phase', -, hthreads, he⟩ := gateway_step hst
  obtain ⟨j, ⟨u, _⟩, hj, rfl⟩ | hactive := hu
  · obtain hh | ⟨j, hj⟩ := held_update hthreads ⟨j, hj⟩
    · obtain ⟨j, hj⟩ | ⟨id, hl, hg⟩ | ⟨hnew, sess, hins⟩ := handle_step he hh
      · exact Or.inl (Or.inl ⟨j, _, hj, rfl⟩)
      · exact Or.inr (Or.inl ⟨u, id, hl, hg⟩)
      · exact Or.inr (Or.inr ⟨hnew, u, sess, hins⟩)
    · exact Or.inl (Or.inl ⟨j, _, hj, rfl⟩)
  · cases he with
    | quiet hu hh ha hp =>
      obtain hactive | ⟨u, hhandle⟩ := ha h hactive
      · exact Or.inl (Or.inr hactive)
      · exact Or.inl (Or.inl ⟨i, _, hhandle, rfl⟩)
    | hit v id k hg hl hp =>
      rw [hg] at hactive
      exact Or.inl (Or.inr hactive)
    | insert v sess hins hp =>
      -- a new session has no active turn
      rw [hins.shared] at hactive
      unfold GatewayState.active GatewayState.insertSession at hactive
      rw [List.getElem?_append] at hactive
      split_ifs at hactive with hlt
      · exact Or.inl (Or.inr hactive)
      · rw [List.getElem?_singleton] at hactive
        split_ifs at hactive
        · simp [hins.inactive] at hactive
        · simp at hactive
    | erase v id hg hp =>
      rw [hg] at hactive
      exact Or.inl (Or.inr hactive)

/-- A step that does not insert makes nothing live. -/
theorem live_step (hst : (gatewaySystem ι config).step s (i, act) t)
    (hno : ∀ u sess, ¬Insertion config s.shared (s.threads i) act t.shared u sess) (hl : Live t h) :
    Live s h := by
  obtain ⟨phase', -, -, he⟩ := gateway_step hst
  obtain ⟨u, id, hl⟩ | hu := hl
  · exact Or.inl ⟨u, id, lookup_step he hno hl⟩
  · obtain hu | ⟨u, id, hl, -⟩ | ⟨-, u, sess, hins⟩ := inUse_step hst hu
    · exact Or.inr hu
    · exact Or.inl ⟨u, id, hl⟩
    · exact absurd hins (hno u sess)

/-- An insertion makes one session live, and of the state that had its place in the map it leaves
what is in use. -/
theorem live_insertion {sess : LiveSession} (hst : (gatewaySystem ι config).step s (i, act) t)
    (hins : Insertion config s.shared (s.threads i) act t.shared u sess) (hl : Live t h) :
    h = s.shared.heap.length ∨ InUse s h ∨ ∃ v id, ¬(v = u ∧ id = sess.session_id) ∧
      (s.shared.sessions v).lookup id = some h := by
  obtain ⟨v, id, hl⟩ | hu := hl
  · rw [hins.shared] at hl
    obtain ⟨-, -, hnew⟩ | ⟨hne, hl⟩ := lookup_insertSession hl
    · exact Or.inl hnew
    · exact Or.inr (Or.inr ⟨v, id, hne, hl⟩)
  · obtain hu | ⟨v, id, -, hsame⟩ | ⟨hnew, -⟩ := inUse_step hst hu
    · exact Or.inr (Or.inl hu)
    · -- the heap grew
      have hlen := congrArg (fun g => g.heap.length) (hins.shared.symm.trans hsame)
      simp [GatewayState.insertSession] at hlen
    · exact Or.inl hnew

/-- A step that inserts no session keeps one state for one id. -/
theorem Single.quiet (h : Single s) (hst : (gatewaySystem ι config).step s (i, act) t)
    (hno : ∀ u sess, ¬Insertion config s.shared (s.threads i) act t.shared u sess) :
    Single t := by
  obtain ⟨phase', -, -, he⟩ := gateway_step hst
  have hident : ∀ k, Live t k → ∀ x ∈ t.shared.identAt k, x ∈ s.shared.identAt k := by
    intro k hk x hx
    obtain ⟨y, hy⟩ := isSome_iff_exists.mp (h.exists_live k (live_step hst hno hk))
    have hy' := identAt_step he hy
    rw [mem_def, hy'] at hx
    exact hy.trans hx
  refine ⟨fun u id k hl => ?_, fun k hk => ?_, oneState_iff.mpr ?_⟩
  · obtain ⟨x, hx, hplace⟩ := h.placed u id k (lookup_step he hno hl)
    exact ⟨x, identAt_step he hx, hplace⟩
  · obtain ⟨x, hx⟩ := isSome_iff_exists.mp (h.exists_live k (live_step hst hno hk))
    rw [identAt_step he hx]
    rfl
  · intro h₁ h₂ hl₁ hl₂ x₁ hx₁ x₂ hx₂
    exact oneState_iff.mp h.one h₁ h₂ (live_step hst hno hl₁) (live_step hst hno hl₂) x₁
      (hident h₁ hl₁ x₁ hx₁) x₂ (hident h₂ hl₂ x₂ hx₂)

/-- An insertion where no state of the id is in use keeps one state for one id. -/
theorem Single.insert (h : Single s) (hst : (gatewaySystem ι config).step s (i, act) t)
    (hguard : InsertsUnused s (i, act)) {sess : LiveSession}
    (hins : Insertion config s.shared (s.threads i) act t.shared u sess) : Single t := by
  obtain ⟨phase', -, -, he⟩ := gateway_step hst
  have hnew : t.shared.identAt s.shared.heap.length = some sess.ident := by
    rw [hins.shared]
    exact identAt_insertSession
  -- a live state from before, which is not the one that the insertion displaces
  have hold : ∀ k, (InUse s k ∨ ∃ v id, ¬(v = u ∧ id = sess.session_id) ∧
      (s.shared.sessions v).lookup id = some k) → Live s k ∧
      ∃ x, s.shared.identAt k = some x ∧ ¬(x.2.2 = u ∧ x.1 = sess.session_id) := by
    rintro k (huse | ⟨v, id, hne, hl⟩)
    · have hlive : Live s k := Or.inr huse
      obtain ⟨x, hx⟩ := isSome_iff_exists.mp (h.exists_live k hlive)
      refine ⟨hlive, x, hx, ?_⟩
      rintro ⟨hholder, hid⟩
      obtain ⟨y, hy, rfl⟩ := map_eq_some_iff.mp hx
      obtain ⟨inp, hinp, hplace⟩ := hins.place
      exact hguard inp hinp _ hplace k (List.getElem?_eq_some_iff.mp hy).1 y hy hholder hid huse
    · obtain ⟨x, hx, hholder, hid⟩ := h.placed v id k hl
      refine ⟨Or.inl ⟨v, id, hl⟩, x, hx, ?_⟩
      rw [hholder, hid]
      exact hne
  refine ⟨fun v id k hl => ?_, fun k hk => ?_, oneState_iff.mpr ?_⟩
  · rw [hins.shared] at hl
    obtain ⟨rfl, rfl, rfl⟩ | ⟨-, hl⟩ := lookup_insertSession hl
    · exact ⟨sess.ident, hnew, hins.holder, rfl⟩
    · obtain ⟨x, hx, hplace⟩ := h.placed v id k hl
      exact ⟨x, identAt_step he hx, hplace⟩
  · obtain rfl | hk := live_insertion hst hins hk
    · rw [hnew]
      rfl
    · obtain ⟨-, x, hx, -⟩ := hold k hk
      rw [identAt_step he hx]
      rfl
  · intro h₁ h₂ hl₁ hl₂ x₁ hx₁ x₂ hx₂ hholder hid
    obtain rfl | hk₁ := live_insertion hst hins hl₁
    · obtain rfl | hk₂ := live_insertion hst hins hl₂
      · rfl
      · obtain ⟨-, y, hy, hne⟩ := hold h₂ hk₂
        obtain rfl : sess.ident = x₁ := some.inj (hnew.symm.trans hx₁)
        obtain rfl : y = x₂ := some.inj ((identAt_step he hy).symm.trans hx₂)
        exact absurd ⟨hholder.symm.trans hins.holder, hid.symm⟩ hne
    · obtain ⟨hlive₁, y₁, hy₁, hne₁⟩ := hold h₁ hk₁
      obtain rfl : y₁ = x₁ := some.inj ((identAt_step he hy₁).symm.trans hx₁)
      obtain rfl | hk₂ := live_insertion hst hins hl₂
      · obtain rfl : sess.ident = x₂ := some.inj (hnew.symm.trans hx₂)
        exact absurd ⟨hholder.trans hins.holder, hid⟩ hne₁
      · obtain ⟨hlive₂, y₂, hy₂, -⟩ := hold h₂ hk₂
        obtain rfl : y₂ = x₂ := some.inj ((identAt_step he hy₂).symm.trans hx₂)
        exact oneState_iff.mp h.one h₁ h₂ hlive₁ hlive₂ y₁ hy₁ y₂ hy₂ hholder hid

/-- In every run in which sessions are inserted only where no state of their id is in use, at most
one state of a user's session id is live, and at most one turn of it is active. -/
theorem one_state_per_id (h : (gatewaySystem ι config).ReachWithin InsertsUnused s) :
    OneState s ∧ ∀ h₁ h₂, s.shared.active h₁ → s.shared.active h₂ →
      ∀ x₁ ∈ s.shared.heap[h₁]?, ∀ x₂ ∈ s.shared.heap[h₂]?,
        x₁.holder = x₂.holder → x₁.session_id = x₂.session_id → h₁ = h₂ := by
  have hsingle : Single s := by
    apply h.invariant
    · intro s hs
      have hnone : ∀ k, ¬Live s k := by
        rintro k (⟨u, id, hl⟩ | ⟨j, ⟨u, _⟩, hj, rfl⟩ | hactive)
        · exact not_known_init hs u k (Or.inl ⟨id, hl⟩)
        · exact not_known_init hs u _ (Or.inr ⟨j, hj⟩)
        · simp [GatewayState.active, hs.2.1] at hactive
      refine ⟨fun u id k hl => ?_, fun k hk => absurd hk (hnone k), fun h₁ h₂ hl₁ => ?_⟩
      · exact absurd (Or.inl ⟨u, id, hl⟩) (hnone k)
      · exact absurd hl₁ (hnone h₁)
    · intro s l t hs hguard hst
      by_cases hins : ∃ u sess, Insertion config s.shared (s.threads l.1) l.2 t.shared u sess
      · obtain ⟨u, sess, hins⟩ := hins
        exact hs.insert hst hguard hins
      · exact hs.quiet hst fun u sess hi => hins ⟨u, sess, hi⟩
  refine ⟨hsingle.one, fun h₁ h₂ ha₁ ha₂ => ?_⟩
  exact hsingle.one h₁ h₂ (Or.inr (Or.inr ha₁)) (Or.inr (Or.inr ha₂))

end

instance {ι : Type} [Fintype ι] (s : Threads ι GatewayState RequestPhase) (h : ℕ) :
    Decidable (InUse s h) :=
  inferInstanceAs (Decidable ((∃ i, ∃ p ∈ (s.threads i).handle, p.2 = h) ∨ s.shared.active h))

instance {ι : Type} [Fintype ι] (s : Threads ι GatewayState RequestPhase)
    (l : ι × GatewayAction) : Decidable (InsertsUnused s l) :=
  inferInstanceAs (Decidable (∀ inp ∈ l.2.input, ∀ p ∈ (s.threads l.1).insertion inp,
    ∀ h < s.shared.heap.length, ∀ x ∈ s.shared.heap[h]?,
      x.holder = p.1 → x.session_id = p.2 → ¬InUse s h))

/-- A default hello of Alice, and one more when the first is served. -/
def defaultTwice : List (Fin 2 × GatewayAction) :=
  requestSteps 0 (.hello "alice" none false) "" 7 ++ [(0, .startTurn)] ++
    requestSteps 1 (.hello "alice" none false) "" 2 ++ [(1, .startTurn)]

/-- Both clients get the one state of the default session. -/
theorem defaultTwice_one_state : ∃ s, (gatewaySystem (Fin 2) {}).ReachWithin InsertsUnused s ∧
    (s.threads 0).handed = some ("alice", 0) ∧ (s.threads 1).handed = some ("alice", 0) ∧
    OneState s := by
  obtain ⟨s, hs, hfirst, hsecond⟩ : ∃ s ∈ exec InsertsUnused (threadStep (gatewayStep {}))
      (emptyGateway (Fin 2)) defaultTwice, (s.threads 0).handed = some ("alice", 0) ∧
        (s.threads 1).handed = some ("alice", 0) := by
    decide
  have hreach : (gatewaySystem (Fin 2) {}).ReachWithin InsertsUnused s :=
    reachWithin_exec (.init ⟨rfl, rfl, fun _ => rfl⟩) hs
  exact ⟨s, hreach, hfirst, hsecond, (one_state_per_id hreach).1⟩

/-- Two default hellos of Alice, both of which find no session before either inserts one. -/
def defaultRace : List (Fin 2 × GatewayAction) :=
  requestSteps 0 (.hello "alice" none false) "" 5 ++
    requestSteps 1 (.hello "alice" none false) "" 5 ++
    [(0, .next {}), (1, .next {}), (0, .next {}), (1, .next {}), (0, .startTurn), (1, .startTurn)]

/-- Two turns are active in Alice's default session, each in a state of its own. -/
theorem two_states_of_one_id : ∃ s, (gatewaySystem (Fin 2) {}).Reach s ∧
    (s.shared.heap.map fun x => (x.holder, x.session_id, x.active_turn)) =
      [("alice", "runtime-alice", true), ("alice", "runtime-alice", true)] ∧ ¬OneState s := by
  obtain ⟨s, hs, hheap⟩ : ∃ s ∈ exec (fun _ _ => True) (threadStep (gatewayStep {}))
      (emptyGateway (Fin 2)) defaultRace,
      (s.shared.heap.map fun x => (x.holder, x.session_id, x.active_turn)) =
        [("alice", "runtime-alice", true), ("alice", "runtime-alice", true)] := by
    decide
  refine ⟨s, reachWithin_exec (.init ⟨rfl, rfl, fun _ => rfl⟩) hs, hheap, fun hone => ?_⟩
  obtain ⟨x₁, _, hcons, hx₁, hrest⟩ := map_eq_cons_iff.mp hheap
  obtain ⟨x₂, _, rfl, hx₂, -⟩ := map_eq_cons_iff.mp hrest
  simp only [Prod.mk.injEq] at hx₁ hx₂
  have h₁ : s.shared.heap[0]? = some x₁ := by rw [hcons]; rfl
  have h₂ : s.shared.heap[1]? = some x₂ := by rw [hcons]; rfl
  have hlive₁ : Live s 0 := Or.inr (Or.inr (by simp [GatewayState.active, h₁, hx₁.2.2]))
  have hlive₂ : Live s 1 := Or.inr (Or.inr (by simp [GatewayState.active, h₂, hx₂.2.2]))
  have := hone 0 1 hlive₁ hlive₂ x₁ h₁ x₂ h₂ (hx₁.1.trans hx₂.1.symm) (hx₁.2.1.trans hx₂.2.1.symm)
  omega

/-! ## How many sessions a user has -/

section

variable {ι : Type} [DecidableEq ι] {config : GatewayConfig}
  {s t : Threads ι GatewayState RequestPhase} {i : ι} {act : GatewayAction}

/-- No user has more sessions in memory than the configuration allows. -/
def Capped (config : GatewayConfig) (s : Threads ι GatewayState RequestPhase) : Prop :=
  ∀ u, (s.shared.sessions u).entries.length ≤ config.max_sessions_per_user

/-- A session that is not counted again when it is inserted, one that is resumed or a default
session, is in its user's map, or the map has room for it. -/
def InsertsWithRoom (config : GatewayConfig) (s : Threads ι GatewayState RequestPhase)
    (l : ι × GatewayAction) : Prop :=
  ∀ inp ∈ l.2.input, ∀ p ∈ (s.threads l.1).insertion inp, (s.threads l.1).fresh = false →
    p.2 ∈ s.shared.sessions p.1 ∨
      (s.shared.sessions p.1).entries.length < config.max_sessions_per_user

/-- The number of entries is the number of keys. -/
theorem length_entries (m : SessionMap) : m.entries.length = m.keys.length := by
  simp [AList.keys, List.keys]

/-- An insertion adds at most one entry, and none under a key that is there. -/
theorem length_insert (m : SessionMap) (id : String) (h : ℕ) :
    (m.insert id h).entries.length = m.entries.length + if id ∈ m then 0 else 1 := by
  rw [length_entries, length_entries, keys_insert, length_cons]
  split_ifs with hid
  · have hmem : id ∈ m.keys := mem_keys.mp hid
    have hpos := length_pos_of_mem hmem
    rw [length_erase_of_mem hmem]
    omega
  · rw [erase_of_not_mem fun hmem => hid (mem_keys.mpr hmem)]

/-- A step that inserts only where there is room keeps the cap. -/
theorem Capped.step (h : Capped config s) (hroom : InsertsWithRoom config s (i, act))
    (hst : (gatewaySystem ι config).step s (i, act) t) : Capped config t := by
  obtain ⟨phase', -, -, he⟩ := gateway_step hst
  intro v
  cases he with
  | quiet hu hh ha hp =>
    rw [hu]
    exact h v
  | hit u id k hg hl hp =>
    rw [hg]
    exact h v
  | insert u sess hins hp =>
    rw [hins.shared, sessions_insertSession]
    split_ifs with hv
    · subst hv
      rw [length_insert]
      have hcap := h v
      obtain ⟨inp, hinp, hplace⟩ := hins.place
      cases hfresh : (s.threads i).fresh with
      | true =>
        -- the insertion under a new UUID counts under the lock
        have := hins.room hfresh
        split_ifs <;> omega
      | false =>
        obtain hmem | hlt := hroom inp hinp _ hplace hfresh
        · rw [if_pos hmem]
          exact hcap
        · simp only at hlt
          split_ifs <;> omega
    · exact h v
  | erase u id hg hp =>
    rw [hg, sessions_removeSession]
    split_ifs with hv
    · subst hv
      calc ((s.shared.sessions v).erase id).entries.length
          = ((s.shared.sessions v).keys.erase id).length := by
            rw [length_entries, keys_erase]
        _ ≤ (s.shared.sessions v).keys.length := length_erase_le
        _ = (s.shared.sessions v).entries.length := (length_entries _).symm
        _ ≤ config.max_sessions_per_user := h v
    · exact h v

/-- In every run in which resumed and default sessions are inserted only where there is room, no
user has more sessions in memory than allowed. -/
theorem sessions_capped (h : (gatewaySystem ι config).ReachWithin (InsertsWithRoom config) s) :
    Capped config s := by
  apply h.invariant
  · intro s hs u
    simp [GatewayState.sessions, hs.1]
  · intro s l t hs hroom hst
    exact hs.step hroom hst

end

instance {ι : Type} (config : GatewayConfig) (s : Threads ι GatewayState RequestPhase)
    (l : ι × GatewayAction) : Decidable (InsertsWithRoom config s l) :=
  inferInstanceAs (Decidable (∀ inp ∈ l.2.input, ∀ p ∈ (s.threads l.1).insertion inp,
    (s.threads l.1).fresh = false → p.2 ∈ s.shared.sessions p.1 ∨
      (s.shared.sessions p.1).entries.length < config.max_sessions_per_user))

/-- A user may have one session. -/
def oneSession : GatewayConfig := { max_sessions_per_user := 1 }

/-- Alice's default session, and the attempt to create one more. -/
def defaultThenCreate : List (Fin 2 × GatewayAction) :=
  requestSteps 0 (.hello "alice" none false) "" 7 ++
    requestSteps 1 (.hello "alice" none true) "0198-a" 3

/-- The second session is refused. -/
theorem defaultThenCreate_capped :
    ∃ s, (gatewaySystem (Fin 2) oneSession).ReachWithin (InsertsWithRoom oneSession) s ∧
      (s.shared.sessions "alice").entries.length = 1 ∧ (s.threads 1).handed = none ∧
      Capped oneSession s := by
  obtain ⟨s, hs, hcount, hrefused⟩ : ∃ s ∈ exec (InsertsWithRoom oneSession)
      (threadStep (gatewayStep oneSession)) (emptyGateway (Fin 2)) defaultThenCreate,
      (s.shared.sessions "alice").entries.length = 1 ∧ (s.threads 1).handed = none := by
    decide
  have hreach : (gatewaySystem (Fin 2) oneSession).ReachWithin (InsertsWithRoom oneSession) s :=
    reachWithin_exec (.init ⟨rfl, rfl, fun _ => rfl⟩) hs
  exact ⟨s, hreach, hcount, hrefused, sessions_capped hreach⟩

/-- Alice creates a session, which is evicted, creates one more, and resumes the first. -/
def resumeEvicted : List (Fin 1 × GatewayAction) :=
  requestSteps 0 (.hello "alice" none true) "0198-a" 5 ++ [(0, .leave), (0, .tick (48 * 3600))] ++
    requestSteps 0 (.cleanup "alice") "" 4 ++
    requestSteps 0 (.hello "alice" none true) "0198-b" 5 ++ [(0, .leave)] ++
    requestSteps 0 (.hello "alice" (some "0198-a") false) "" 4

/-- Alice, who may have one session, has two. -/
theorem more_sessions_than_allowed : ∃ s, (gatewaySystem (Fin 1) oneSession).Reach s ∧
    (s.shared.sessions "alice").entries.length = 2 ∧ ¬Capped oneSession s := by
  obtain ⟨s, hs, hcount⟩ : ∃ s ∈ exec (fun _ _ => True) (threadStep (gatewayStep oneSession))
      (emptyGateway (Fin 1)) resumeEvicted,
      (s.shared.sessions "alice").entries.length = 2 := by
    decide
  refine ⟨s, reachWithin_exec (.init ⟨rfl, rfl, fun _ => rfl⟩) hs, hcount, fun hcap => ?_⟩
  have := hcap "alice"
  rw [hcount] at this
  simp [oneSession] at this

end Oxydra
