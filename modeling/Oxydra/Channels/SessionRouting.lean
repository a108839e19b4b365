import Oxydra.Gateway.ArchivedSessions

/-!
# The session of a channel context

`resolve_session` of `crates/channels/src/telegram.rs`, which the handler of each message runs in a
task of its own: it looks up the session that its context is mapped to, joins it, or creates a session
and stores the mapping. In between, the gateway serves its requests and those of others. The mapping
is a table of the session store, whose foreign key lets it hold only sessions that have a record.

`routed_alike` is about the runs in which no message looks up a context that is not mapped while
another message is creating a session for it: all messages of a context are then routed to the session
that it is mapped to.
-/

namespace Oxydra

open Option Function Lts

variable {stage : RouteStage} {thread : RouteThread} {id : String} {handle : ℕ}

/-! ## Messages and their sessions -/

/-- `CHANNEL_ID` of the Telegram adapter. -/
def telegramChannelId : String := "telegram"

/-- Where the handler of a message is, with the context of the message. A thread without a message is
another client of the gateway. -/
inductive RouteStage where
  | other
  | arrived (channel_context_id : String)
  /-- In `create_or_get_session` with the session that was looked up. -/
  | joining (channel_context_id session_id : String)
  /-- In `create_or_get_session` without a session. -/
  | creating (channel_context_id : String)
  /-- In `set_session_id`. -/
  | storing (channel_context_id : String) (handle : ℕ)
  | routed (channel_context_id : String) (handle : ℕ)
  | failed (channel_context_id error : String)
  deriving DecidableEq

/-- The handler of a message, and its request to the gateway. -/
structure RouteThread where
  stage : RouteStage
  phase : RequestPhase := .idle

/-- The gateway, and the sessions to which the contexts of the channel are mapped. -/
structure RoutingState where
  gateway : GatewayState := {}
  mapping : String → Option String := fun _ => none

/-- What happens in a thread: a step of the gateway, or one of the handler. -/
inductive RouteAction where
  | gateway (act : GatewayAction)
  | lookup
  /-- The gateway has answered. -/
  | resolve
  | store

/-- A record of a session is stored. -/
def GatewayState.hasRecord (g : GatewayState) (session_id : String) : Bool :=
  (g.store.getD []).any fun r => r.session_id = session_id

/-- `set_channel_session`, which fails for a session without a record. -/
def RoutingState.setChannelSession (g : RoutingState) (channel_context_id session_id : String) :
    RoutingState :=
  if g.gateway.hasRecord session_id then
    { g with mapping := update g.mapping channel_context_id (some session_id) }
  else g

/-- What a thread may do at the gateway. The requests of a message are made by its handler, and it
uses its session when it is routed. -/
def RouteStage.allows (stage : RouteStage) : GatewayAction → Bool
  | .request _ => stage == .other
  | .subscribe | .startTurn | .leave =>
    match stage with
    | .other | .routed _ _ => true
    | _ => false
  | .next inp => !inp.store_fails
  | .markActive _ | .endTurn _ | .tick _ => true

section

variable (config : GatewayConfig) (user_id : String)

/-- `create_or_get_session`, as the adapter calls it. -/
def joinRequest (session_id : Option String) : RequestPhase :=
  (Request.createOrGet user_id session_id "default" telegramChannelId).start

/-- One step of a thread. -/
def routeStep (g : RoutingState) (thread : RouteThread) :
    RouteAction → Option (RoutingState × RouteThread)
  | .gateway act =>
    if thread.stage.allows act then
      (gatewayStep config g.gateway thread.phase act).map fun (gateway, phase) =>
        ({ g with gateway }, { thread with phase })
    else none
  | .lookup =>
    match thread.stage with
    | .arrived context =>
      match g.mapping context with
      | some session_id =>
        some (g, ⟨.joining context session_id, joinRequest user_id (some session_id)⟩)
      | none => some (g, ⟨.creating context, joinRequest user_id none⟩)
    | _ => none
  | .resolve =>
    match thread.stage, thread.phase with
    | .joining context _, .served _ (.ok handle) _ =>
      some (g, { thread with stage := .routed context handle })
    -- the mapping is stale
    | .joining context _, .served _ (.error _) _ =>
      some (g, ⟨.creating context, joinRequest user_id none⟩)
    | .creating context, .served _ (.ok handle) _ =>
      some (g, { thread with stage := .storing context handle })
    | .creating context, .served _ (.error error) _ =>
      some (g, { thread with stage := .failed context error })
    | _, _ => none
  | .store =>
    match thread.stage with
    | .storing context handle =>
      let session_id := (g.gateway.heap[handle]?.map LiveSession.session_id).getD ""
      -- a failure to persist the mapping is logged and ignored
      some (g.setChannelSession context session_id,
        { thread with stage := .routed context handle })
    | _ => none

/-- All interleavings of messages and other requests, on a store that works and that may hold
sessions and mappings from before. -/
def routingSystem (ι : Type) [DecidableEq ι] :
    System (Threads ι RoutingState RouteThread) (ι × RouteAction) :=
  interleave (fun s => s.shared.gateway.users = (fun _ => none) ∧ s.shared.gateway.heap = [] ∧
      s.shared.gateway.store.isSome ∧
      (∀ context, ∀ id ∈ s.shared.mapping context, s.shared.gateway.hasRecord id) ∧
      ∀ i, (s.threads i).phase = .idle ∧
        ((s.threads i).stage = .other ∨ ∃ context, (s.threads i).stage = .arrived context))
    (routeStep config user_id)

end

/-- The context for which a message is creating a session. -/
def RouteStage.creates : RouteStage → Option String
  | .creating context | .storing context _ => some context
  | _ => none

section

variable {ι : Type}

/-- A message that finds its context unmapped is the only one that creates a session for it. -/
def CreatesAlone (s : Threads ι RoutingState RouteThread) (l : ι × RouteAction) : Prop :=
  match l.2, (s.threads l.1).stage with
  | .lookup, .arrived context => s.shared.mapping context = none →
      ∀ j, (s.threads j).stage.creates ≠ some context
  | _, _ => True

/-- Two messages of a context that are routed are routed to one session, and the context is mapped to
it. A message that is not routed is refused because its user has too many sessions. -/
def RoutedAlike (config : GatewayConfig) (s : Threads ι RoutingState RouteThread) : Prop :=
  (∀ i j context handle handle', (s.threads i).stage = .routed context handle →
    (s.threads j).stage = .routed context handle' →
    ∃ x ∈ s.shared.gateway.heap[handle]?, ∃ y ∈ s.shared.gateway.heap[handle']?,
      x.session_id = y.session_id ∧ s.shared.mapping context = some x.session_id) ∧
  ∀ i context error, (s.threads i).stage = .failed context error →
    .error error = maximumReached config

end

/-! ## What the gateway keeps -/

section Gateway

variable {config : GatewayConfig} {g g' : GatewayState} {phase phase' : RequestPhase}
  {act : GatewayAction}

/-- A session that has an id. -/
def GatewayState.Names (g : GatewayState) (handle : ℕ) (session_id : String) : Prop :=
  ∃ x ∈ g.identAt handle, x.1 = session_id

/-- The maps of the users hold sessions under their own ids. -/
def GatewayState.MapsNamed (g : GatewayState) : Prop :=
  ∀ u id handle, (g.sessions u).lookup id = some handle → g.Names handle id

theorem names_getElem? (h : g.Names handle id) :
    ∃ x ∈ g.heap[handle]?, x.session_id = id := by
  obtain ⟨ident, hident, rfl⟩ := h
  obtain ⟨x, hx, rfl⟩ := map_eq_some_iff.mp hident
  exact ⟨x, hx, rfl⟩

/-- A session keeps its id. -/
theorem Names.step (he : StepEffect config g phase act g' phase') (h : g.Names handle id) :
    g'.Names handle id := by
  obtain ⟨x, hx, rfl⟩ := h
  exact ⟨x, identAt_step he hx, rfl⟩

theorem MapsNamed.step (he : StepEffect config g phase act g' phase') (h : g.MapsNamed) :
    g'.MapsNamed := by
  intro u id handle hl
  have hkept : (g.sessions u).lookup id = some handle → g'.Names handle id :=
    fun hold => Names.step he (h u id handle hold)
  cases he with
  | quiet hu hh ha hp =>
    rw [hu] at hl
    exact hkept hl
  | hit u' id' h' hg hl' hp =>
    subst hg
    exact hkept hl
  | insert u' sess hins hp =>
    rw [hins.shared] at hl
    obtain ⟨rfl, rfl, rfl⟩ | ⟨-, hold⟩ := lookup_insertSession hl
    · rw [hins.shared]
      exact ⟨sess.ident, identAt_insertSession, rfl⟩
    · exact hkept hold
  | erase u' id' hg hp =>
    rw [hg] at hl
    exact hkept (lookup_removeSession hl)

theorem hasRecord_iff : g.hasRecord id = true ↔
    ∃ records, g.store = some records ∧ ∃ r ∈ records, r.session_id = id := by
  unfold GatewayState.hasRecord
  rw [List.any_eq_true]
  cases hstore : g.store with
  | none => simp
  | some records => simp

/-- A session that is created has a record. -/
theorem mem_createSession (records : List SessionRecord) (record : SessionRecord) :
    ∃ r ∈ SessionStore.createSession records record, r.session_id = record.session_id := by
  unfold SessionStore.createSession
  split_ifs with h
  · exact h
  · exact ⟨record, List.mem_append_right _ (List.mem_singleton_self _), rfl⟩

/-- Records are kept. -/
theorem hasRecord_step (he : StoreEffect g phase act g') (h : g.hasRecord id) :
    g'.hasRecord id := by
  obtain ⟨records, hrecords, r, hr, rfl⟩ := hasRecord_iff.mp h
  cases he with
  | same hsame => exact hasRecord_iff.mpr ⟨records, hsame.trans hrecords, r, hr, rfl⟩
  | persisted inp new handle x hact hphase hx hstore =>
    rw [hrecords] at hstore
    refine hasRecord_iff.mpr ⟨_, hstore, r, ?_, rfl⟩
    unfold SessionStore.createSession
    dsimp only
    split_ifs
    · exact hr
    · exact List.mem_append_left _ hr
  | archived inp u id' rest hact hphase hstore =>
    rw [hrecords] at hstore
    refine hasRecord_iff.mpr ⟨_, hstore, _, List.mem_map.mpr ⟨r, hr, rfl⟩, ?_⟩
    split_ifs <;> rfl

/-! ## What the gateway answers -/

/-- A search for a session that has a record, or that has found it. -/
def Joining (g : GatewayState) (session_id : String) : RequestPhase → Prop
  | .looking _ id none stage => id = session_id ∧ ∀ r, stage = .resume r → r.session_id = session_id
  | .served _ (.ok handle) _ => g.Names handle session_id
  | _ => False

/-- A creation of a session, or its end: a session that has a record, or too many sessions. -/
def Creating (config : GatewayConfig) (g : GatewayState) : RequestPhase → Prop
  | .creating _ stage => ∀ handle, stage = .persist handle → (g.identAt handle).isSome
  | .served _ (.ok handle) _ => ∃ id, g.Names handle id ∧ g.hasRecord id
  | .served _ (.error error) _ => .error error = maximumReached config
  | _ => False

/-- A search is as good after a step of another request. -/
theorem Joining.kept {session_id : String} {own : RequestPhase}
    (he : StepEffect config g phase act g' phase') (h : Joining g session_id own) :
    Joining g' session_id own := by
  cases own with
  | served user result subscribed =>
    cases result with
    | ok handle => exact Names.step he h
    | error error => exact h
  | looking user id missing stage =>
    cases missing with
    | none => exact h
    | some new => exact h
  | _ => exact h

/-- A creation is as good after a step of another request. -/
theorem Creating.kept {own : RequestPhase} (he : StepEffect config g phase act g' phase')
    (hse : StoreEffect g phase act g') (h : Creating config g own) : Creating config g' own := by
  cases own with
  | served user result subscribed =>
    cases result with
    | ok handle =>
      obtain ⟨id, hnames, hrecord⟩ := h
      exact ⟨id, Names.step he hnames, hasRecord_step hse hrecord⟩
    | error error => exact h
  | creating new stage =>
    intro handle hstage
    obtain ⟨x, hx⟩ := isSome_iff_exists.mp (h handle hstage)
    rw [identAt_step he hx]
    rfl
  | _ => exact h

/-- What a message may do before it is routed. -/
def RouteStage.waits : RouteStage → Bool
  | .joining _ _ | .creating _ => true
  | _ => false

/-- A message that waits for the gateway only lets it take its steps. -/
theorem allows_of_waits (hwaits : stage.waits) (h : stage.allows act) :
    (∃ inp, act = .next inp ∧ inp.store_fails = false) ∨
      (∃ handle, act = .markActive handle ∨ act = .endTurn handle) ∨ ∃ secs, act = .tick secs := by
  cases act with
  | next inp => exact .inl ⟨inp, rfl, by simpa [RouteStage.allows] using h⟩
  | markActive handle => exact .inr (.inl ⟨handle, .inl rfl⟩)
  | endTurn handle => exact .inr (.inl ⟨handle, .inr rfl⟩)
  | tick secs => exact .inr (.inr ⟨secs, rfl⟩)
  | request | subscribe | startTurn | leave =>
    cases stage with
    | joining | creating => cases h
    | _ => cases hwaits

theorem works_of_allows (h : stage.allows act) :
    ∀ inp ∈ act.input, inp.store_fails = false := by
  intro inp hinp
  cases act with
  | next inp' =>
    cases hinp
    simpa [RouteStage.allows] using h
  | _ => cases hinp

/-- A search for a session with a record finds it. -/
theorem Joining.step {session_id : String} (hwaits : stage.waits) (hallows : stage.allows act)
    (hmaps : g.MapsNamed) (hrecord : g.hasRecord session_id)
    (hstep : gatewayStep config g phase act = some (g', phase')) (h : Joining g session_id phase) :
    Joining g' session_id phase' := by
  have he := step_effect hstep
  have hsame : phase' = phase → Joining g' session_id phase' := by
    rintro rfl
    exact h.kept he
  obtain ⟨inp, rfl, hworks⟩ | ⟨handle, rfl | rfl⟩ | ⟨secs, rfl⟩ := allows_of_waits hwaits hallows
  · cases phase with
    | looking user id missing stage' =>
      cases missing with
      | some new => cases h
      | none =>
        obtain ⟨rfl, hresume⟩ := h
        have hlook : lookStep inp g user id none stage' = (g', phase') := some.inj hstep
        cases stage' with
        | user =>
          cases hlook
          exact ⟨rfl, by simp⟩
        | memory =>
          simp only [lookStep] at hlook
          split at hlook
          · next handle hl =>
            cases hlook
            exact hmaps user id handle hl
          · cases hlook
            exact ⟨rfl, by simp⟩
        -- the store works and has the record, so it is found
        | store =>
          obtain ⟨records, hrecords, r, hr, hid⟩ := hasRecord_iff.mp hrecord
          obtain ⟨found, hfound⟩ := isSome_iff_exists.mp
            (List.find?_isSome (p := fun r : SessionRecord => r.session_id = id).mpr
              ⟨r, hr, by simpa using hid⟩)
          have hask : (askStore inp g fun records =>
              SessionStore.getSession records id).join = some found := by
            unfold askStore
            rw [hworks, hrecords]
            exact hfound
          simp only [lookStep] at hlook
          rw [hask] at hlook
          cases hlook
          refine ⟨rfl, fun r hstage => ?_⟩
          cases hstage
          simpa using List.find?_some hfound
        | resume r =>
          cases hlook
          exact ⟨_, identAt_insertSession, hresume r rfl⟩
    | served => cases hstep
    | _ => cases h
  · exact hsame (Prod.mk.inj (some.inj hstep)).2.symm
  · exact hsame (Prod.mk.inj (some.inj hstep)).2.symm
  · exact hsame (Prod.mk.inj (some.inj hstep)).2.symm

/-- A session that is created has a record when it is handed out. -/
theorem Creating.step (hwaits : stage.waits) (hallows : stage.allows act) (hstore : g.store.isSome)
    (hstep : gatewayStep config g phase act = some (g', phase')) (h : Creating config g phase) :
    Creating config g' phase' := by
  have he := step_effect hstep
  have hse := store_effect (works_of_allows hallows) hstep
  have hsame : phase' = phase → Creating config g' phase' := by
    rintro rfl
    exact h.kept he hse
  obtain ⟨inp, rfl, hworks⟩ | ⟨handle, rfl | rfl⟩ | ⟨secs, rfl⟩ := allows_of_waits hwaits hallows
  · cases phase with
    | creating new stage' =>
      have hcreate : createStep config inp g new stage' = some (g', phase') := hstep
      cases stage' with
      | user | count =>
        cases hcreate
        intro handle hstage
        cases hstage
      | capacity n =>
        simp only [createStep] at hcreate
        split_ifs at hcreate
        · cases hcreate
          exact rfl
        · cases hcreate
          intro handle hstage
          cases hstage
      | insert =>
        have hinserted : ∀ session : LiveSession,
            ((g.insertSession new.user_id session).identAt g.heap.length).isSome := by
          intro session
          rw [identAt_insertSession]
          rfl
        simp only [createStep] at hcreate
        split_ifs at hcreate
        · cases hcreate
          exact rfl
        · cases hcreate
          intro handle hstage
          cases hstage
          exact hinserted _
        · cases hcreate
          intro handle hstage
          cases hstage
          exact hinserted _
      | persist handle =>
        obtain ⟨ident, hident⟩ := isSome_iff_exists.mp (h handle rfl)
        obtain ⟨x, hx, -⟩ := map_eq_some_iff.mp hident
        obtain ⟨records, hrecords⟩ := isSome_iff_exists.mp hstore
        cases hcreate
        refine ⟨x.session_id, ⟨x.ident, identAt_of_getElem? hx, rfl⟩, ?_⟩
        -- the record is written before the session is handed out
        refine hasRecord_iff.mpr ⟨_, ?_, mem_createSession records x.record⟩
        simp only [hx, hworks, hrecords, Bool.false_eq_true, if_false, map_some]
        rfl
    | served => cases hstep
    | _ => cases h
  · exact hsame (Prod.mk.inj (some.inj hstep)).2.symm
  · exact hsame (Prod.mk.inj (some.inj hstep)).2.symm
  · exact hsame (Prod.mk.inj (some.inj hstep)).2.symm

theorem isSome_store_step (he : StoreEffect g phase act g') (h : g.store.isSome) :
    g'.store.isSome := by
  cases he with
  | same hsame => rwa [hsame]
  | persisted inp new handle x hact hphase hx hstore => rwa [hstore, isSome_map]
  | archived inp u id rest hact hphase hstore => rwa [hstore, isSome_map]

end Gateway

/-! ## What every step keeps -/

section

variable {ι : Type} {config : GatewayConfig} {user_id : String}
  {s t : Threads ι RoutingState RouteThread} {i : ι} {act : RouteAction}

/-- Where a message can be. -/
def RouteThread.Sound (config : GatewayConfig) (g : RoutingState) (thread : RouteThread) : Prop :=
  match thread.stage with
  | .other | .arrived _ => True
  | .joining context session_id =>
    g.mapping context = some session_id ∧ Joining g.gateway session_id thread.phase
  | .creating context => g.mapping context = none ∧ Creating config g.gateway thread.phase
  | .storing context handle => g.mapping context = none ∧
      ∃ session_id, g.gateway.Names handle session_id ∧ g.gateway.hasRecord session_id
  | .routed context handle =>
    ∃ session_id, g.mapping context = some session_id ∧ g.gateway.Names handle session_id
  | .failed _ error => .error error = maximumReached config

/-- What holds in a run: the contexts are mapped to sessions with records, the messages are where they
can be, and one message at a time creates a session for a context. -/
structure RoutingSound (config : GatewayConfig) (s : Threads ι RoutingState RouteThread) :
    Prop where
  maps : s.shared.gateway.MapsNamed
  store : s.shared.gateway.store.isSome
  records : ∀ context, ∀ id ∈ s.shared.mapping context, s.shared.gateway.hasRecord id
  threads : ∀ i, (s.threads i).Sound config s.shared
  single : ∀ i j, ∀ context ∈ (s.threads i).stage.creates, context ∈ (s.threads j).stage.creates →
    i = j

/-- What the gateway does leaves every other message where it is. -/
theorem Sound.gateway {g : RoutingState} {gateway : GatewayState} {phase phase' : RequestPhase}
    {act : GatewayAction} {thread : RouteThread}
    (he : StepEffect config g.gateway phase act gateway phase')
    (hse : StoreEffect g.gateway phase act gateway) (h : thread.Sound config g) :
    thread.Sound config { g with gateway } := by
  obtain ⟨stage, own⟩ := thread
  cases stage with
  | other | arrived | failed => exact h
  | joining context session_id => exact ⟨h.1, h.2.kept he⟩
  | creating context => exact ⟨h.1, h.2.kept he hse⟩
  | storing context handle =>
    obtain ⟨hmapping, id, hnames, hrecord⟩ := h
    exact ⟨hmapping, id, Names.step he hnames, hasRecord_step hse hrecord⟩
  | routed context handle =>
    obtain ⟨id, hmapping, hnames⟩ := h
    exact ⟨id, hmapping, Names.step he hnames⟩

/-- A step of the gateway for a message leaves it where it can be. -/
theorem Sound.gateway_self {g : RoutingState} {gateway : GatewayState} {phase' : RequestPhase}
    {act : GatewayAction} (hmaps : g.gateway.MapsNamed) (hstore : g.gateway.store.isSome)
    (hrecords : ∀ context, ∀ id ∈ g.mapping context, g.gateway.hasRecord id)
    (hallows : thread.stage.allows act)
    (hstep : gatewayStep config g.gateway thread.phase act = some (gateway, phase'))
    (h : thread.Sound config g) :
    RouteThread.Sound config { g with gateway } { thread with phase := phase' } := by
  have he := step_effect hstep
  have hse := store_effect (works_of_allows hallows) hstep
  obtain ⟨stage, phase⟩ := thread
  cases stage with
  | other | arrived | failed => exact h
  | joining context session_id =>
    exact ⟨h.1, h.2.step rfl hallows hmaps (hrecords context session_id h.1) hstep⟩
  | creating context => exact ⟨h.1, h.2.step rfl hallows hstore hstep⟩
  | storing context handle =>
    obtain ⟨hmapping, id, hnames, hrecord⟩ := h
    exact ⟨hmapping, id, Names.step he hnames, hasRecord_step hse hrecord⟩
  | routed context handle =>
    obtain ⟨id, hmapping, hnames⟩ := h
    exact ⟨id, hmapping, Names.step he hnames⟩

/-- What the first step of a request of a message is. -/
theorem joinRequest_sound (config : GatewayConfig) (g : GatewayState) :
    (∀ session_id, Joining g session_id (joinRequest user_id (some session_id))) ∧
      Creating config g (joinRequest user_id none) := by
  refine ⟨fun session_id => ⟨rfl, fun r hstage => by cases hstage⟩, fun handle hstage => ?_⟩
  cases hstage

variable [DecidableEq ι]

/-- A step that changes only its own message, which creates no session for a context for which it did
not before. -/
theorem RoutingSound.of_own (h : RoutingSound config s)
    (hthreads : t.threads = update s.threads i thread) (hshared : t.shared = s.shared)
    (hsound : thread.Sound config s.shared)
    (hsingle : ∀ j, j ≠ i → ∀ context ∈ thread.stage.creates,
      context ∉ (s.threads j).stage.creates) : RoutingSound config t := by
  refine ⟨hshared ▸ h.maps, hshared ▸ h.store, hshared ▸ h.records, fun j => ?_, fun j k => ?_⟩
  · rw [hshared, hthreads]
    by_cases hj : j = i
    · subst hj
      rwa [update_self]
    · rw [update_of_ne hj]
      exact h.threads j
  · intro context hjc hkc
    rw [hthreads] at hjc hkc
    by_cases hj : j = i <;> by_cases hk : k = i
    · rw [hj, hk]
    · subst hj
      rw [update_self] at hjc
      rw [update_of_ne hk] at hkc
      exact absurd hkc (hsingle k hk context hjc)
    · subst hk
      rw [update_self] at hkc
      rw [update_of_ne hj] at hjc
      exact absurd hjc (hsingle j hj context hkc)
    · rw [update_of_ne hj] at hjc
      rw [update_of_ne hk] at hkc
      exact h.single j k context hjc hkc

/-- A step of the gateway keeps the messages where they can be. -/
theorem RoutingSound.gateway (h : RoutingSound config s) {gateway : GatewayState}
    {phase : RequestPhase} {gatewayAct : GatewayAction}
    (hallows : (s.threads i).stage.allows gatewayAct)
    (hstep : gatewayStep config s.shared.gateway (s.threads i).phase gatewayAct =
      some (gateway, phase)) :
    RoutingSound config (⟨{ s.shared with gateway },
      update s.threads i { s.threads i with phase }⟩ :
        Threads ι RoutingState RouteThread) := by
  have he := step_effect hstep
  have hse := store_effect (works_of_allows hallows) hstep
  have hstages : ∀ j, (update s.threads i { s.threads i with phase } j).stage =
      (s.threads j).stage := by
    intro j
    by_cases hj : j = i
    · subst hj
      rw [update_self]
    · rw [update_of_ne hj]
  refine ⟨MapsNamed.step he h.maps, isSome_store_step hse h.store,
    fun context id hid => hasRecord_step hse (h.records context id hid), fun j => ?_,
    fun j k context hj hk => ?_⟩
  · dsimp only
    by_cases hj : j = i
    · subst hj
      rw [update_self]
      exact Sound.gateway_self h.maps h.store h.records hallows hstep (h.threads j)
    · rw [update_of_ne hj]
      exact Sound.gateway he hse (h.threads j)
  · dsimp only at hj hk
    rw [hstages] at hj hk
    exact h.single j k context hj hk

/-- A message that stores the mapping of its context is the one that created its session. -/
theorem RoutingSound.stored (h : RoutingSound config s) {context : String}
    (hstage : (s.threads i).stage = .storing context handle) :
    RoutingSound config (⟨s.shared.setChannelSession context
        ((s.shared.gateway.heap[handle]?.map LiveSession.session_id).getD ""),
      update s.threads i { s.threads i with stage := .routed context handle }⟩ :
        Threads ι RoutingState RouteThread) := by
  have hsound := h.threads i
  unfold RouteThread.Sound at hsound
  rw [hstage] at hsound
  obtain ⟨hmapping, id, hnames, hrecord⟩ := hsound
  obtain ⟨x, hx, hid⟩ := names_getElem? hnames
  have hset : s.shared.setChannelSession context
      ((s.shared.gateway.heap[handle]?.map LiveSession.session_id).getD "") =
        { s.shared with mapping := update s.shared.mapping context (some id) } := by
    rw [mem_def.mp hx, map_some, getD_some, hid,
      RoutingState.setChannelSession, if_pos hrecord]
  rw [hset]
  have hcreates : context ∈ (s.threads i).stage.creates := by
    rw [hstage]
    rfl
  refine ⟨h.maps, h.store, fun context' id' hid' => ?_, fun j => ?_, fun j k context' hj hk => ?_⟩
  · dsimp only at hid'
    by_cases hcontext : context' = context
    · subst hcontext
      rw [update_self] at hid'
      cases hid'
      exact hrecord
    · rw [update_of_ne hcontext] at hid'
      exact h.records context' id' hid'
  · dsimp only
    by_cases hj : j = i
    · subst hj
      rw [update_self]
      exact ⟨id, update_self _ _ _, hnames⟩
    · rw [update_of_ne hj]
      -- no other message of the context is creating a session or was routed
      have hother := h.threads j
      have hsingle : context ∉ (s.threads j).stage.creates :=
        fun hjc => hj (h.single j i context hjc hcreates)
      unfold RouteThread.Sound at hother ⊢
      cases hstage' : (s.threads j).stage with
      | other | arrived | failed =>
        rw [hstage'] at hother
        exact hother
      | joining context' session_id =>
        rw [hstage'] at hother
        have hne : context' ≠ context := by
          rintro rfl
          cases hmapping.symm.trans hother.1
        exact ⟨(update_of_ne hne _ _).trans hother.1, hother.2⟩
      | creating context' | storing context' handle' =>
        rw [hstage'] at hother hsingle
        have hne : context' ≠ context := by
          rintro rfl
          exact hsingle rfl
        exact ⟨(update_of_ne hne _ _).trans hother.1, hother.2⟩
      | routed context' handle' =>
        rw [hstage'] at hother
        obtain ⟨id', hmapped, hnames'⟩ := hother
        have hne : context' ≠ context := by
          rintro rfl
          cases hmapping.symm.trans hmapped
        exact ⟨id', (update_of_ne hne _ _).trans hmapped, hnames'⟩
  · have hback : ∀ l, ∀ c ∈ (update s.threads i
        { s.threads i with stage := .routed context handle } l).stage.creates,
          c ∈ (s.threads l).stage.creates := by
      intro l c hc
      by_cases hl : l = i
      · subst hl
        rw [update_self] at hc
        cases hc
      · rwa [update_of_ne hl] at hc
    exact h.single j k context' (hback j _ hj) (hback k _ hk)

/-- Every guarded step keeps the messages where they can be. -/
theorem RoutingSound.step (h : RoutingSound config s) (hguard : CreatesAlone s (i, act))
    (hst : (routingSystem config user_id ι).step s (i, act) t) : RoutingSound config t := by
  obtain ⟨g, thread, hstep, rfl⟩ := interleave_step hst
  have hsound := h.threads i
  unfold RouteThread.Sound at hsound
  unfold routeStep at hstep
  cases act with
  | gateway gatewayAct =>
    dsimp only at hstep
    split_ifs at hstep with hallows
    obtain ⟨⟨gateway, phase⟩, hgateway, heq⟩ := map_eq_some_iff.mp hstep
    cases heq
    exact h.gateway hallows hgateway
  | lookup =>
    dsimp only at hstep
    split at hstep
    · next context hstage =>
      split at hstep
      · next session_id hmapping =>
        cases hstep
        exact h.of_own rfl rfl ⟨hmapping, (joinRequest_sound config _).1 session_id⟩
          fun j _ context' hcontext' => by cases hcontext'
      · next hmapping =>
        cases hstep
        refine h.of_own rfl rfl ⟨hmapping, (joinRequest_sound _ _).2⟩ fun j hj context' hcontext' => ?_
        cases hcontext'
        unfold CreatesAlone at hguard
        dsimp only at hguard
        rw [hstage] at hguard
        exact hguard hmapping j
    · cases hstep
  | resolve =>
    dsimp only at hstep
    split at hstep
    · next context session_id user handle subscribed hstage hphase =>
      cases hstep
      rw [hstage, hphase] at hsound
      exact h.of_own rfl rfl ⟨session_id, hsound⟩ fun j _ context' hcontext' => by cases hcontext'
    · next context session_id user error subscribed hstage hphase =>
      -- a session that is mapped is found
      rw [hstage, hphase] at hsound
      exact hsound.2.elim
    · next context user handle subscribed hstage hphase =>
      cases hstep
      rw [hstage, hphase] at hsound
      refine h.of_own rfl rfl hsound fun j hj context' hcontext' hother => ?_
      refine hj (h.single j i context' hother ?_)
      rw [hstage]
      exact hcontext'
    · next context user error subscribed hstage hphase =>
      cases hstep
      rw [hstage, hphase] at hsound
      exact h.of_own rfl rfl hsound.2 fun j _ context' hcontext' => by cases hcontext'
    · cases hstep
  | store =>
    dsimp only at hstep
    split at hstep
    · next context handle hstage =>
      cases hstep
      exact h.stored hstage
    · cases hstep

theorem routingSound_init (h : (routingSystem config user_id ι).init s) :
    RoutingSound config s := by
  obtain ⟨husers, hheap, hstore, hrecords, hthreads⟩ := h
  refine ⟨fun u id handle hl => ?_, hstore, hrecords, fun j => ?_, fun j k context hj => ?_⟩
  · simp [GatewayState.sessions, husers] at hl
  · unfold RouteThread.Sound
    rcases (hthreads j).2 with hother | ⟨context, harrived⟩
    · rw [hother]
      trivial
    · rw [harrived]
      trivial
  · rcases (hthreads j).2 with hother | ⟨context', harrived⟩
    · rw [hother] at hj
      cases hj
    · rw [harrived] at hj
      cases hj

/-- In every run in which no message looks up a context that is not mapped while another message is
creating a session for it, the messages of a context are routed to one session, to which the context
is mapped. -/
theorem routed_alike (h : (routingSystem config user_id ι).ReachWithin CreatesAlone s) :
    RoutedAlike config s := by
  have hsound : RoutingSound config s :=
    h.invariant (fun s hs => routingSound_init hs) fun s l t hs hg hst => hs.step hg hst
  refine ⟨fun i j context handle handle' hi hj => ?_, fun i context error hi => ?_⟩
  · have hroutedI := hsound.threads i
    have hroutedJ := hsound.threads j
    unfold RouteThread.Sound at hroutedI hroutedJ
    rw [hi] at hroutedI
    rw [hj] at hroutedJ
    obtain ⟨id, hmapping, hnames⟩ := hroutedI
    obtain ⟨id', hmapping', hnames'⟩ := hroutedJ
    obtain rfl := some.inj (hmapping.symm.trans hmapping')
    obtain ⟨x, hx, hxid⟩ := names_getElem? hnames
    obtain ⟨y, hy, hyid⟩ := names_getElem? hnames'
    exact ⟨x, hx, y, hy, hxid.trans hyid.symm, hxid ▸ hmapping⟩
  · have hfailed := hsound.threads i
    unfold RouteThread.Sound at hfailed
    rw [hi] at hfailed
    exact hfailed

end

instance {ι : Type} [Fintype ι] (s : Threads ι RoutingState RouteThread) (l : ι × RouteAction) :
    Decidable (CreatesAlone s l) :=
  match h : l.2, hstage : (s.threads l.1).stage with
  | .lookup, .arrived context => decidable_of_iff (s.shared.mapping context = none →
      ∀ j, (s.threads j).stage.creates ≠ some context) (by simp [CreatesAlone, h, hstage])
  | .gateway _, _ | .resolve, _ | .store, _ => .isTrue (by simp [CreatesAlone, h])
  | .lookup, .other | .lookup, .joining _ _ | .lookup, .creating _ | .lookup, .storing _ _
  | .lookup, .routed _ _ | .lookup, .failed _ _ => .isTrue (by simp [CreatesAlone, h, hstage])

section Examples

/-- Two messages of a chat that is not mapped yet. -/
def firstMessages : Threads (Fin 2) RoutingState RouteThread :=
  ⟨{}, fun _ => { stage := .arrived "12345" }⟩

theorem init_firstMessages : (routingSystem {} "alice" (Fin 2)).init firstMessages :=
  ⟨rfl, rfl, rfl, fun _ _ => nofun, fun _ => ⟨rfl, .inr ⟨"12345", rfl⟩⟩⟩

/-- A message creates a session under a UUID, and stores the mapping. -/
def createAndStore (i : Fin 2) (uuid : String) : List (Fin 2 × RouteAction) :=
  List.replicate 5 (i, .gateway (.next { uuid })) ++ [(i, .resolve), (i, .store)]

/-- Both messages look up the mapping before one of them stores it. -/
def bothFirst : List (Fin 2 × RouteAction) :=
  [(0, .lookup), (1, .lookup)] ++ createAndStore 0 "0198-a" ++ createAndStore 1 "0198-b"

/-- The messages are routed to two sessions. -/
theorem bothFirst_apart : ∃ s, (routingSystem {} "alice" (Fin 2)).Reach s ∧
    ¬RoutedAlike {} s := by
  obtain ⟨s, hs, hfirst, hsecond, hids⟩ : ∃ s ∈ exec (fun _ _ => True)
      (threadStep (routeStep {} "alice")) firstMessages bothFirst,
      (s.threads 0).stage = .routed "12345" 0 ∧ (s.threads 1).stage = .routed "12345" 1 ∧
        s.shared.gateway.heap.map LiveSession.session_id = ["0198-a", "0198-b"] := by
    decide
  refine ⟨s, reachWithin_exec (.init init_firstMessages) hs, fun hsame => ?_⟩
  obtain ⟨x, hx, y, hy, hxy, -⟩ := hsame.1 0 1 _ _ _ hfirst hsecond
  have hxid := congrArg (·[0]?) hids
  have hyid := congrArg (·[1]?) hids
  simp only [List.getElem?_map, mem_def.mp hx, mem_def.mp hy] at hxid hyid
  have hxid : x.session_id = "0198-a" := some.inj hxid
  have hyid : y.session_id = "0198-b" := some.inj hyid
  rw [hxid, hyid] at hxy
  exact absurd hxy (by decide)

/-- The second message looks up the mapping when the first has stored it. -/
def firstThenSecond : List (Fin 2 × RouteAction) :=
  [(0, .lookup)] ++ createAndStore 0 "0198-a" ++ [(1, .lookup)] ++
    List.replicate 2 (1, .gateway (.next {})) ++ [(1, .resolve)]

/-- Both messages are routed to the session of the first. -/
theorem firstThenSecond_alike : ∃ s, (routingSystem {} "alice" (Fin 2)).ReachWithin CreatesAlone s ∧
    (s.threads 0).stage = .routed "12345" 0 ∧ (s.threads 1).stage = .routed "12345" 0 ∧
    RoutedAlike {} s := by
  obtain ⟨s, hs, hfirst, hsecond⟩ : ∃ s ∈ exec CreatesAlone
      (threadStep (routeStep {} "alice")) firstMessages firstThenSecond,
      (s.threads 0).stage = .routed "12345" 0 ∧ (s.threads 1).stage = .routed "12345" 0 := by
    decide
  have hreach : (routingSystem {} "alice" (Fin 2)).ReachWithin CreatesAlone s :=
    reachWithin_exec (.init init_firstMessages) hs
  exact ⟨s, hreach, hfirst, hsecond, routed_alike hreach⟩

end Examples

end Oxydra
