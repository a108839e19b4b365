import Oxydra.Gateway.SessionLaws

/-!
# Live sessions and archived records

The cleanup takes a session out of its user's map and archives its record. A session comes back into
a map from its record, and nothing un-archives the record then. With a store that works, the
sessions in the maps are the listed ones in the runs that resume only listed records, archive only
records of sessions that no map holds, and create a session only under an id that is free or listed
(`live_sessions_listed`).

A session that was just created is in its user's map before its record is written, so the law has
one exception: the sessions whose creation is about to persist them.
-/

namespace Oxydra

open Option List Lts

variable {new : NewSession} {id u : String}

/-! ## The law -/

/-- `list_sessions` of the user, without the archived ones, has the id. -/
def GatewayState.Listed (g : GatewayState) (u id : String) : Prop :=
  ∃ r ∈ SessionStore.listSessions (g.store.getD []) u false, r.session_id = id

/-- Some user's map holds a session under the id. -/
def GatewayState.Mapped (g : GatewayState) (id : String) : Prop :=
  ∃ x ∈ g.heap, ((g.sessions x.holder).lookup id).isSome

section

variable {ι : Type}

section

variable (s : Threads ι GatewayState RequestPhase)

/-- A creation is about to write the record of the user's session. -/
def Persisting (u id : String) : Prop :=
  ∃ i new handle, s.threads i = .creating new (.persist handle) ∧ new.user_id = u ∧
    s.shared.identAt handle = some (id, u, u)

/-- Each session in a user's map is listed, once its record is written. -/
def LiveListed : Prop :=
  ∀ u id h, (s.shared.sessions u).lookup id = some h → ¬Persisting s u id → s.shared.Listed u id

/-- There is a store, and it does not fail. -/
def StoreWorks (l : ι × GatewayAction) : Prop :=
  s.shared.store.isSome ∧ ∀ inp ∈ l.2.input, inp.store_fails = false

/-- A record is resumed only if it is listed, is archived only if no map holds its id, and a session
that is in its user's map is persisted only under an id that has no record or is listed. -/
def SparesLive (l : ι × GatewayAction) : Prop :=
  match l.2, s.threads l.1 with
  | .next _, .looking u _ _ (.resume record) => s.shared.Listed u record.session_id
  | .next _, .cleaning _ (.archive id _) => ¬s.shared.Mapped id
  | .next _, .creating new (.persist handle) =>
    ∀ x ∈ s.shared.heap[handle]?, ((s.shared.sessions new.user_id).lookup x.session_id).isSome →
      (∀ r ∈ s.shared.store.getD [], r.session_id ≠ x.session_id) ∨
        s.shared.Listed new.user_id x.session_id
  | _, _ => True

end

end

/-! ## The store after a step -/

section

variable {config : GatewayConfig} {inp : StepInput} {g g' : GatewayState}
  {phase phase' : RequestPhase} {act : GatewayAction}

/-- The record of a new session. -/
def LiveSession.record (s : LiveSession) : SessionRecord :=
  { session_id := s.session_id
    user_id := s.user_id
    agent_name := s.agent_name
    channel_origin := s.channel_origin }

/-- All that a step can do to a store that works. -/
inductive StoreEffect (g : GatewayState) (phase : RequestPhase) (act : GatewayAction)
    (g' : GatewayState) : Prop
  | same (h : g'.store = g.store)
  | persisted (inp : StepInput) (new : NewSession) (handle : ℕ) (x : LiveSession)
    (hact : act = .next inp) (hphase : phase = .creating new (.persist handle))
    (hx : g.heap[handle]? = some x)
    (h : g'.store = g.store.map fun records => SessionStore.createSession records x.record)
  | archived (inp : StepInput) (u id : String) (rest : List String)
    (hact : act = .next inp) (hphase : phase = .cleaning u (.archive id rest))
    (h : g'.store = g.store.map fun records => SessionStore.archiveSession records id)

theorem store_lookStep (u id : String) (missing : Option NewSession) (stage : LookupStage) :
    (lookStep inp g u id missing stage).1.store = g.store := by
  cases stage with
  | user | resume => rfl
  | memory =>
    simp only [lookStep]
    split <;> rfl
  | store =>
    simp only [lookStep]
    split
    · rfl
    · split <;> rfl

theorem store_matchStep (u wanted : String) (stage : MatchStage) :
    (matchStep inp g u wanted stage).1.store = g.store := by
  cases stage with
  | user | store | list =>
    simp only [matchStep]
    split <;> rfl
  | memory =>
    simp only [matchStep]
    split
    · rfl
    · split
      · rfl
      · split_ifs <;> rfl
      · rfl

theorem createStep_store {stage : CreateStage} (hworks : inp.store_fails = false)
    (h : createStep config inp g new stage = some (g', phase')) :
    StoreEffect g (.creating new stage) (.next inp) g' := by
  cases stage with
  | user | count =>
    cases h
    exact .same rfl
  | capacity n =>
    simp only [createStep] at h
    split_ifs at h
    all_goals
      cases h
      exact .same rfl
  | insert =>
    simp only [createStep] at h
    split_ifs at h
    all_goals
      cases h
      exact .same rfl
  | persist handle =>
    cases h
    cases hx : g.heap[handle]? with
    | none => exact .same rfl
    | some x =>
      refine .persisted inp new handle x rfl rfl hx ?_
      simp only [hworks, Bool.false_eq_true, if_false]
      rfl

theorem cleanStep_store {stage : CleanupStage} (hworks : inp.store_fails = false) :
    StoreEffect g (.cleaning u stage) (.next inp) (cleanStep config inp g u stage).1 := by
  cases stage with
  | scan => exact .same rfl
  | remove stale =>
    cases stale with
    | nil => exact .same rfl
    | cons id rest =>
      simp only [cleanStep]
      split
      · split_ifs <;> exact .same rfl
      · exact .same rfl
  | archive id rest =>
    refine .archived inp u id rest rfl rfl ?_
    simp only [cleanStep, hworks, Bool.false_eq_true, if_false]

/-- What a step can do to a store that works. -/
theorem store_effect (hworks : ∀ inp ∈ act.input, inp.store_fails = false)
    (h : gatewayStep config g phase act = some (g', phase')) : StoreEffect g phase act g' := by
  cases act with
  | next inp =>
    have hworks : inp.store_fails = false := hworks inp rfl
    cases phase with
    | idle | served => cases h
    | looking u id missing stage =>
      have hg : (lookStep inp g u id missing stage).1 = g' := congrArg Prod.fst (some.inj h)
      exact .same (hg ▸ store_lookStep u id missing stage)
    | creating new stage => exact createStep_store hworks h
    | matching u wanted stage =>
      have hg : (matchStep inp g u wanted stage).1 = g' := congrArg Prod.fst (some.inj h)
      exact .same (hg ▸ store_matchStep u wanted stage)
    | cleaning u stage =>
      have hg : (cleanStep config inp g u stage).1 = g' := congrArg Prod.fst (some.inj h)
      exact hg ▸ cleanStep_store hworks
  | startTurn =>
    simp only [gatewayStep] at h
    split at h
    · next handle _ =>
      cases h
      refine .same ?_
      unfold GatewayState.withOwner
      split <;> rfl
    · cases h
  | request | subscribe | leave =>
    simp only [gatewayStep] at h
    split at h
    all_goals first
      | cases h
        exact .same rfl
      | cases h
  | markActive | endTurn | tick =>
    cases h
    exact .same rfl

/-- A new session is written under its own user. -/
theorem listed_createSession {x : LiveSession}
    (hnew : ∀ r ∈ g.store.getD [], r.session_id ≠ x.session_id) (hsome : g.store.isSome)
    (h : g'.store = g.store.map fun records => SessionStore.createSession records x.record) :
    g'.Listed x.user_id x.session_id := by
  obtain ⟨records, hrecords⟩ := isSome_iff_exists.mp hsome
  rw [hrecords] at h hnew
  have hfree : ¬∃ r ∈ records, r.session_id = x.record.session_id := by
    rintro ⟨r, hr, hid⟩
    exact hnew r hr hid
  refine ⟨x.record, mem_filter.mpr ⟨?_, by simp [LiveSession.record]⟩, rfl⟩
  rw [h, map_some, getD_some, SessionStore.createSession, if_neg hfree]
  exact mem_append_right _ (mem_singleton_self _)

/-- What is listed stays listed when a session is created. -/
theorem Listed.createSession {record : SessionRecord} (hl : g.Listed u id)
    (h : g'.store = g.store.map fun records => SessionStore.createSession records record) :
    g'.Listed u id := by
  obtain ⟨r, hr, hid⟩ := hl
  cases hrecords : g.store with
  | none =>
    rw [hrecords] at hr
    cases hr
  | some records =>
    rw [hrecords] at h hr
    refine ⟨r, ?_, hid⟩
    simp only [h, map_some, getD_some, SessionStore.createSession] at hr ⊢
    split_ifs
    · exact hr
    · simp only [SessionStore.listSessions, filter_append]
      exact mem_append_left _ hr

/-- What is listed stays listed when a session with another id is archived. -/
theorem Listed.archiveSession {u id id' : String} (hl : g.Listed u id) (hne : id ≠ id')
    (h : g'.store = g.store.map fun records => SessionStore.archiveSession records id') :
    g'.Listed u id := by
  obtain ⟨r, hr, hid⟩ := hl
  cases hrecords : g.store with
  | none =>
    rw [hrecords] at hr
    cases hr
  | some records =>
    rw [hrecords] at h hr
    refine ⟨r, ?_, hid⟩
    have hmem := mem_filter.mp hr
    refine mem_filter.mpr ⟨?_, hmem.2⟩
    rw [h]
    refine mem_map.mpr ⟨r, hmem.1, ?_⟩
    rw [if_neg (fun heq => hne (hid.symm.trans heq))]

/-- What a creation does that is about to persist its session: nothing, or it writes the record. -/
theorem persist_step {handle : ℕ} {x : LiveSession}
    (hworks : ∀ inp ∈ act.input, inp.store_fails = false) (hx : g.heap[handle]? = some x)
    (h : gatewayStep config g (.creating new (.persist handle)) act = some (g', phase')) :
    phase' = .creating new (.persist handle) ∨ ∃ inp, act = .next inp ∧
      g'.store = g.store.map fun records => SessionStore.createSession records x.record := by
  cases act with
  | next inp =>
    cases h
    have hworks : inp.store_fails = false := hworks inp rfl
    refine .inr ⟨inp, rfl, ?_⟩
    simp only [hx, hworks, Bool.false_eq_true, if_false]
    rfl
  | request | subscribe | startTurn | leave => cases h
  | markActive | endTurn | tick =>
    cases h
    exact .inl rfl

/-- A creation that inserts its session is about to persist it then. -/
theorem insert_step
    (h : gatewayStep config g (.creating new .insert) (.next inp) = some (g', phase'))
    (hhandle : phase'.handle = some (new.user_id, g.heap.length)) :
    phase' = .creating new (.persist g.heap.length) := by
  simp only [gatewayStep, requestStep, createStep] at h
  split_ifs at h
  · cases h
    cases hhandle
  · exact (Prod.mk.inj (some.inj h)).2.symm
  · exact (Prod.mk.inj (some.inj h)).2.symm

end

/-! ## What every step keeps -/

section

variable {ι : Type} [DecidableEq ι] {config : GatewayConfig}
  {s t : Threads ι GatewayState RequestPhase} {i : ι} {act : GatewayAction}

/-- What keeps live sessions listed: a map holds a session only for its holder. -/
structure ListedInv (s : Threads ι GatewayState RequestPhase) : Prop where
  holder : ∀ u id h, (s.shared.sessions u).lookup id = some h →
    ∃ x ∈ s.shared.identAt h, x.2.2 = u
  listed : ∀ u id h, (s.shared.sessions u).lookup id = some h →
    Persisting s u id ∨ s.shared.Listed u id

omit [DecidableEq ι] in
/-- An id in a user's map is mapped. -/
theorem ListedInv.mapped (h : ListedInv s) {k : ℕ} (hl : (s.shared.sessions u).lookup id = some k) :
    s.shared.Mapped id := by
  obtain ⟨x, hx, hholder⟩ := h.holder u id k hl
  obtain ⟨y, hy, rfl⟩ := map_eq_some_iff.mp hx
  refine ⟨y, mem_of_getElem? hy, ?_⟩
  have hu : y.holder = u := hholder
  rw [hu, hl]
  rfl

/-- A session whose record is to be written, or that is listed, is so after a step that spares
it. -/
theorem ListedInv.kept (h : ListedInv s) (hworks : StoreWorks s (i, act))
    (hspares : SparesLive s (i, act)) (hst : (gatewaySystem ι config).step s (i, act) t) {k : ℕ}
    (hl : (s.shared.sessions u).lookup id = some k) :
    Persisting t u id ∨ t.shared.Listed u id := by
  obtain ⟨phase', hstep, hthreads, he⟩ := gateway_step hst
  obtain ⟨j, new, handle, hphase, huser, hident⟩ | hlisted := h.listed u id k hl
  · have hident' := identAt_step he hident
    by_cases hji : j = i
    · subst hji
      rw [hphase] at hstep
      obtain ⟨x, hx, hxid⟩ := map_eq_some_iff.mp hident
      obtain ⟨hxid, hxuser, -⟩ : x.session_id = id ∧ x.user_id = u ∧ x.holder = u := by
        simpa [LiveSession.ident] using hxid
      obtain hphase' | ⟨inp, rfl, hstore⟩ := persist_step hworks.2 hx hstep
      · refine .inl ⟨j, new, handle, ?_, huser, hident'⟩
        rw [hthreads, Function.update_self, hphase']
      · right
        simp only [SparesLive, hphase, huser] at hspares
        have hmapped : ((s.shared.sessions u).lookup x.session_id).isSome := by
          rw [hxid, hl]
          rfl
        obtain hfree | hlisted := hspares x hx hmapped
        · have hnew := listed_createSession hfree hworks.1 hstore
          rwa [hxid, hxuser] at hnew
        · rw [hxid] at hlisted
          exact Listed.createSession hlisted hstore
    · refine .inl ⟨j, new, handle, ?_, huser, hident'⟩
      rw [hthreads, Function.update_of_ne hji, hphase]
  · right
    cases store_effect hworks.2 hstep with
    | same hstore =>
      unfold GatewayState.Listed at hlisted ⊢
      rwa [hstore]
    | persisted inp new handle x hact hphase hx hstore =>
      exact Listed.createSession hlisted hstore
    | archived inp v id' rest hact hphase hstore =>
      subst hact
      simp only [SparesLive, hphase] at hspares
      refine Listed.archiveSession hlisted (fun heq => ?_) hstore
      subst heq
      exact hspares (h.mapped hl)

/-- A session that was just inserted is about to be persisted, or its record was listed. -/
theorem listed_insertion (hspares : SparesLive s (i, act)) {phase' : RequestPhase}
    {sess : LiveSession}
    (hstep : gatewayStep config s.shared (s.threads i) act = some (t.shared, phase'))
    (hthreads : t.threads = Function.update s.threads i phase')
    (hins : Insertion config s.shared (s.threads i) act t.shared u sess)
    (hhandle : phase'.handle = some (u, s.shared.heap.length)) :
    Persisting t u sess.session_id ∨ t.shared.Listed u sess.session_id := by
  obtain ⟨inp, hinp, hplace⟩ := hins.place
  obtain rfl : act = .next inp := by
    cases act with
    | next inp' =>
      cases hinp
      rfl
    | _ => cases hinp
  unfold RequestPhase.insertion at hplace
  split at hplace
  · next v id missing record hphase =>
    right
    obtain ⟨rfl, hid⟩ : v = u ∧ record.session_id = sess.session_id := by simpa using hplace
    simp only [SparesLive, hphase, hid] at hspares
    rw [hins.shared]
    exact hspares
  · next new hphase =>
    left
    obtain ⟨huser, hid⟩ : new.user_id = u ∧ new.session_id.getD inp.uuid = sess.session_id := by
      simpa using hplace
    rw [hphase] at hstep
    rw [← huser] at hhandle
    have hphase' := insert_step hstep hhandle
    have howner : sess.user_id = u := by
      obtain howner | ⟨id, missing, r, hlooking, -⟩ := hins.owner
      · exact howner
      · rw [hphase] at hlooking
        cases hlooking
    refine ⟨i, new, s.shared.heap.length, ?_, huser, ?_⟩
    · rw [hthreads, Function.update_self, hphase']
    · rw [hins.shared, identAt_insertSession, LiveSession.ident, howner, hins.holder]
  · cases hplace

/-- A step on a store that works, and that spares the live sessions, keeps them listed. -/
theorem ListedInv.step (h : ListedInv s) (hworks : StoreWorks s (i, act))
    (hspares : SparesLive s (i, act)) (hst : (gatewaySystem ι config).step s (i, act) t) :
    ListedInv t := by
  obtain ⟨phase', hstep, hthreads, he⟩ := gateway_step hst
  constructor
  · intro u id k hl
    obtain hl | ⟨rfl, -, sess, -, hins⟩ := lookup_origin he hl
    · obtain ⟨x, hx, hholder⟩ := h.holder u id k hl
      exact ⟨x, identAt_step he hx, hholder⟩
    · refine ⟨sess.ident, ?_, hins.holder⟩
      rw [hins.shared]
      exact identAt_insertSession
  · intro u id k hl
    obtain hl | ⟨-, hhandle, sess, rfl, hins⟩ := lookup_origin he hl
    · exact h.kept hworks hspares hst hl
    · exact listed_insertion hspares hstep hthreads hins hhandle

/-- In every run on a store that works that spares the live sessions, each session in a user's map
is listed, once its record is written. -/
theorem live_sessions_listed
    (h : (gatewaySystem ι config).ReachWithin (fun s l => StoreWorks s l ∧ SparesLive s l) s) :
    LiveListed s := by
  have hinv : ListedInv s := by
    apply h.invariant
    · intro s hs
      have hempty : ∀ u id k, (s.shared.sessions u).lookup id ≠ some k := fun u id k hl =>
        not_known_init hs u k (.inl ⟨id, hl⟩)
      exact ⟨fun u id k hl => absurd hl (hempty u id k), fun u id k hl => absurd hl (hempty u id k)⟩
    · rintro s ⟨i, act⟩ t hs ⟨hworks, hspares⟩ hst
      exact hs.step hworks hspares hst
  intro u id k hl hwritten
  exact (hinv.listed u id k hl).resolve_left hwritten

end

instance (g : GatewayState) (u id : String) : Decidable (g.Listed u id) :=
  inferInstanceAs (Decidable (∃ r ∈ SessionStore.listSessions (g.store.getD []) u false,
    r.session_id = id))

instance (g : GatewayState) (id : String) : Decidable (g.Mapped id) :=
  inferInstanceAs (Decidable (∃ x ∈ g.heap, ((g.sessions x.holder).lookup id).isSome))

instance {ι : Type} (s : Threads ι GatewayState RequestPhase) (l : ι × GatewayAction) :
    Decidable (StoreWorks s l) :=
  inferInstanceAs (Decidable (_ ∧ ∀ inp ∈ l.2.input, inp.store_fails = false))

instance {ι : Type} (s : Threads ι GatewayState RequestPhase) (l : ι × GatewayAction) :
    Decidable (SparesLive s l) := by
  unfold SparesLive
  split <;> infer_instance

/-- Alice creates a session, which is evicted when she is long gone, and opens her default
session. -/
def evictThenDefault : List (Fin 1 × GatewayAction) :=
  requestSteps 0 (.hello "alice" none true) "0198-a" 5 ++ [(0, .leave), (0, .tick (48 * 3600))] ++
    requestSteps 0 (.cleanup "alice") "" 4 ++ requestSteps 0 (.hello "alice" none false) "" 7

/-- The default session is in the map, and it is listed. -/
theorem evictThenDefault_listed : ∃ s, (gatewaySystem (Fin 1) {}).ReachWithin
      (fun s l => StoreWorks s l ∧ SparesLive s l) s ∧
    (s.shared.sessions "alice").keys = ["runtime-alice"] ∧ LiveListed s := by
  obtain ⟨s, hs, hkeys⟩ : ∃ s ∈ exec (fun s l => StoreWorks s l ∧ SparesLive s l)
      (threadStep (gatewayStep {})) (emptyGateway (Fin 1)) evictThenDefault,
      (s.shared.sessions "alice").keys = ["runtime-alice"] := by
    decide
  have hreach : (gatewaySystem (Fin 1) {}).ReachWithin
      (fun s l => StoreWorks s l ∧ SparesLive s l) s :=
    reachWithin_exec (.init ⟨rfl, rfl, fun _ => rfl⟩) hs
  exact ⟨s, hreach, hkeys, live_sessions_listed hreach⟩

/-- Alice creates a session, which is evicted, and resumes it. -/
def evictThenResume : List (Fin 1 × GatewayAction) :=
  requestSteps 0 (.hello "alice" none true) "0198-a" 5 ++ [(0, .leave), (0, .tick (48 * 3600))] ++
    requestSteps 0 (.cleanup "alice") "" 4 ++
    requestSteps 0 (.hello "alice" (some "0198-a") false) "" 4

/-- The store works all along, and Alice is served a session whose record is archived. -/
theorem resumed_session_archived : ∃ s, (gatewaySystem (Fin 1) {}).ReachWithin StoreWorks s ∧
    (s.threads 0).handed = some ("alice", 1) ∧
    s.shared.store = some [{ session_id := "0198-a", user_id := "alice", archived := true }] ∧
    ¬LiveListed s := by
  obtain ⟨s, hs, hhanded, hstore, hlookup, hlisted⟩ : ∃ s ∈ exec StoreWorks
      (threadStep (gatewayStep {})) (emptyGateway (Fin 1)) evictThenResume,
      (s.threads 0).handed = some ("alice", 1) ∧
        s.shared.store = some [{ session_id := "0198-a", user_id := "alice", archived := true }] ∧
        (s.shared.sessions "alice").lookup "0198-a" = some 1 ∧
        ¬s.shared.Listed "alice" "0198-a" := by
    decide
  refine ⟨s, reachWithin_exec (.init ⟨rfl, rfl, fun _ => rfl⟩) hs, hhanded, hstore, fun hall => ?_⟩
  refine hlisted (hall "alice" "0198-a" 1 hlookup ?_)
  -- the only request was served
  rintro ⟨i, new, handle, hphase, -⟩
  obtain rfl : i = 0 := Subsingleton.elim _ _
  rw [hphase] at hhanded
  cases hhanded

end Oxydra
