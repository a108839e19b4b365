import Mathlib.Data.List.AList
import Oxydra.Library.Interleaving

/-!
# Sessions of the gateway

How a client of the gateway comes by a session: `resolve_session` (the `Hello` handshake),
`create_or_get_session`, and `resolve_session_by_prefix` of `crates/gateway/src/lib.rs`, with
`cleanup_sessions_once`, which evicts sessions, and the session store of
`crates/memory/src/session_store.rs`. Each request is a thread, and each section between two awaits
(one lock, one call of the store) is one atomic step, so `gatewaySystem` is the transition system of
all interleavings of requests.

A `SessionState` of the source lives behind an `Arc`; here it is a place in `heap`, and the maps
from session ids hold its number.
-/

namespace Oxydra

open Option Lts

variable {f : LiveSession → LiveSession} {missing : Option NewSession} {id u : String}

/-! ## The store -/

/-- `SessionRecord`, without its timestamps. -/
structure SessionRecord where
  session_id : String
  user_id : String
  agent_name : String := "default"
  display_name : Option String := none
  channel_origin : String := "tui"
  parent_session_id : Option String := none
  archived : Bool := false
  deriving DecidableEq, Repr

namespace SessionStore

section

variable (records : List SessionRecord)

/-- `get_session`. -/
def getSession (session_id : String) : Option SessionRecord :=
  records.find? fun r => r.session_id = session_id

/-- `list_sessions`, in no particular order. -/
def listSessions (user_id : String) (include_archived : Bool) :
    List SessionRecord :=
  records.filter fun r => r.user_id = user_id ∧ (include_archived ∨ ¬r.archived)

/-- `create_session`: a session that is there stands. -/
def createSession (record : SessionRecord) : List SessionRecord :=
  if ∃ r ∈ records, r.session_id = record.session_id then records else records ++ [record]

/-- `archive_session`. -/
def archiveSession (session_id : String) : List SessionRecord :=
  records.map fun r => if r.session_id = session_id then { r with archived := true } else r

end

end SessionStore

/-! ## The state -/

/-- `GATEWAY_CHANNEL_ID`. -/
def gatewayChannelId : String := "tui"

/-- `default_session_id`. -/
def defaultSessionId (user_id : String) : String :=
  "runtime-" ++ String.ofList (user_id.toList.map fun c =>
    if c.isAlphanum ∨ c = '_' ∨ c = '-' then c else '-')

/-- `SessionState`, the parts that requests and the cleanup read. -/
structure LiveSession where
  session_id : String
  user_id : String
  agent_name : String
  parent_session_id : Option String := none
  channel_origin : String
  /-- `events.receiver_count()`. -/
  receivers : ℕ := 0
  /-- `last_activity_epoch_secs`. -/
  last_activity : ℕ
  /-- Whether `active_turn` is set. -/
  active_turn : Bool := false
  /-- The user into whose map the session was put, which no part of the code reads. -/
  holder : String
  deriving DecidableEq, Repr

/-- The sessions of a user, by session id. -/
abbrev SessionMap := AList fun _ : String => ℕ

/-- The state that requests share. -/
structure GatewayState where
  users : String → Option SessionMap := fun _ => none
  heap : List LiveSession := []
  /-- The session store, if one is configured. -/
  store : Option (List SessionRecord) := some []
  /-- The clock, in seconds. -/
  now : ℕ := 0

/-- `GatewayConfig`, with the idle time in seconds. -/
structure GatewayConfig where
  max_sessions_per_user : ℕ := 50
  max_concurrent_turns_per_user : ℕ := 10
  session_idle_ttl : ℕ := 48 * 3600
  deriving DecidableEq, Repr

namespace GatewayState

variable (g : GatewayState)

/-- The sessions of a user who may be unknown. -/
def sessions (user_id : String) : SessionMap := (g.users user_id).getD ∅

/-- `get_or_create_user`. -/
def withUser (user_id : String) : GatewayState :=
  { g with users := Function.update g.users user_id (some (g.sessions user_id)) }

/-- A new `SessionState` is put into a user's map. -/
def insertSession (user_id : String) (session : LiveSession) : GatewayState :=
  { g with
    users := Function.update g.users user_id
      (some ((g.sessions user_id).insert session.session_id g.heap.length))
    heap := g.heap ++ [session] }

/-- A session is taken out of a user's map. -/
def removeSession (user_id session_id : String) : GatewayState :=
  { g with users := Function.update g.users user_id (some ((g.sessions user_id).erase session_id)) }

/-- A change of one `SessionState`. -/
def modifySession (handle : ℕ) (f : LiveSession → LiveSession) : GatewayState :=
  { g with heap := g.heap.modify handle f }

/-- `get_or_create_user` on the owner of a session. -/
def withOwner (handle : ℕ) : GatewayState :=
  match g.heap[handle]? with
  | some s => g.withUser s.user_id
  | none => g

/-- `SessionState::new` on a record of the store. -/
def resumed (user_id : String) (record : SessionRecord) : LiveSession where
  session_id := record.session_id
  user_id := record.user_id
  agent_name := record.agent_name
  parent_session_id := record.parent_session_id
  channel_origin := record.channel_origin
  last_activity := g.now
  holder := user_id

/-- Whether the cleanup takes a session to be stale: nobody listens, and it was not active
lately. -/
def stale (config : GatewayConfig) (handle : ℕ) : Bool :=
  match g.heap[handle]? with
  | some s => s.receivers = 0 ∧ config.session_idle_ttl ≤ g.now - s.last_activity
  | none => false

/-- A session id that no state and no record has. -/
def unused (session_id : String) : Bool :=
  g.heap.all (fun s => s.session_id ≠ session_id) &&
    (g.store.getD []).all fun r => r.session_id ≠ session_id

end GatewayState

/-! ## Requests -/

/-- A session that a request creates: under a new UUID, or under a given id. -/
structure NewSession where
  user_id : String
  session_id : Option String := none
  agent_name : String
  channel_origin : String := gatewayChannelId
  deriving DecidableEq, Repr

/-- What is asked of the gateway. -/
inductive Request where
  | createOrGet (user_id : String) (session_id : Option String) (agent_name channel_origin : String)
  | hello (user_id : String) (session_id : Option String) (create_new_session : Bool)
  /-- `SwitchSession`, by an id or the start of one. -/
  | switchSession (user_id wanted : String)
  /-- The cleanup of one user's sessions. -/
  | cleanup (user_id : String)

/-- Where the search for a session by its id is. -/
inductive LookupStage where
  | user
  | memory
  | store
  | resume (record : SessionRecord)
  deriving DecidableEq

/-- Where the creation of a session is. -/
inductive CreateStage where
  | user
  | count
  | capacity (in_memory_count : ℕ)
  | insert
  | persist (handle : ℕ)
  deriving DecidableEq

/-- Where the search for a session by the start of its id is. -/
inductive MatchStage where
  | user
  | memory
  | store
  | list
  deriving DecidableEq

/-- Where the cleanup is. -/
inductive CleanupStage where
  | scan
  | remove (stale : List String)
  | archive (session_id : String) (stale : List String)
  deriving DecidableEq

/-- Where a request is. A search by id that finds nothing fails, or creates the session that it has
at hand. A request that was served keeps the session until its client leaves. -/
inductive RequestPhase where
  | idle
  | looking (user_id session_id : String) (missing : Option NewSession) (stage : LookupStage)
  | creating (new : NewSession) (stage : CreateStage)
  | matching (user_id wanted : String) (stage : MatchStage)
  | cleaning (user_id : String) (stage : CleanupStage)
  | served (user_id : String) (result : Except String ℕ) (subscribed : Bool)

/-- The first phase of a request. -/
def Request.start : Request → RequestPhase
  | .createOrGet user_id (some session_id) _ _ => .looking user_id session_id none .user
  | .createOrGet user_id none agent_name channel_origin =>
    .creating { user_id, agent_name, channel_origin } .user
  | .hello user_id session_id create_new_session =>
    if create_new_session then .creating { user_id, agent_name := "default" } .user
    else match session_id with
      | some session_id => .looking user_id session_id none .user
      | none =>
        let default_id := defaultSessionId user_id
        .looking user_id default_id
          (some { user_id, session_id := some default_id, agent_name := "default" }) .user
  | .switchSession user_id wanted => .matching user_id wanted .user
  | .cleanup user_id => .cleaning user_id .scan

/-- What the world decides in a step: whether a call of the store fails, and which UUID is made. -/
structure StepInput where
  store_fails : Bool := false
  uuid : String := ""

/-- A session was handed out, or an error. -/
def RequestPhase.serve (user_id : String) (result : Except String ℕ) : RequestPhase :=
  .served user_id result false

def notFound (wanted user_id : String) : Except String ℕ :=
  .error s!"session `{wanted}` not found for user `{user_id}`"

def ambiguous (wanted : String) (n : ℕ) : Except String ℕ :=
  .error s!"ambiguous session prefix `{wanted}`: matches {n} sessions"

section

variable (config : GatewayConfig) (inp : StepInput) (g : GatewayState)

/-- What a call of the store returns. -/
def askStore {α : Type} (query : List SessionRecord → α) : Option α :=
  if inp.store_fails then none else g.store.map query

/-- `create_or_get_session` with an id, and `resolve_session` on the default id. -/
def lookStep (user_id session_id : String) (missing : Option NewSession) :
    LookupStage → GatewayState × RequestPhase
  | .user => (g.withUser user_id, .looking user_id session_id missing .memory)
  | .memory =>
    match (g.sessions user_id).lookup session_id with
    | some handle => (g, .serve user_id (.ok handle))
    | none => (g, .looking user_id session_id missing .store)
  | .store =>
    -- `get_session` does not ask whose session it is
    match (askStore inp g fun records => SessionStore.getSession records session_id).join with
    | some record => (g, .looking user_id session_id missing (.resume record))
    | none =>
      match missing with
      | some new => (g, .creating new .count)
      | none => (g, .serve user_id (notFound session_id user_id))
  | .resume record =>
    -- the map is not looked at again
    (g.insertSession user_id (g.resumed user_id record), .serve user_id (.ok g.heap.length))

/-- The error of a user who has too many sessions. -/
def maximumReached : Except String ℕ :=
  .error s!"maximum sessions reached (limit: {config.max_sessions_per_user})"

/-- The creation of a session, with `ensure_session_capacity`. Only a session under a new UUID is
counted once more when it is inserted. -/
def createStep (new : NewSession) : CreateStage → Option (GatewayState × RequestPhase)
  | .user => some (g.withUser new.user_id, .creating new .count)
  | .count =>
    some (g, .creating new (.capacity (g.sessions new.user_id).entries.length))
  | .capacity in_memory_count =>
    -- a store that fails counts as one that agrees with the memory
    let persisted_count := (askStore inp g fun records =>
      (SessionStore.listSessions records new.user_id false).length).getD in_memory_count
    if config.max_sessions_per_user ≤ max in_memory_count persisted_count then
      some (g, .serve new.user_id (maximumReached config))
    else some (g, .creating new .insert)
  | .insert =>
    let session : LiveSession :=
      { session_id := new.session_id.getD inp.uuid
        user_id := new.user_id
        agent_name := new.agent_name
        channel_origin := new.channel_origin
        last_activity := g.now
        holder := new.user_id }
    if new.session_id.isNone then
      -- a UUID is new
      if !g.unused inp.uuid then none
      else if config.max_sessions_per_user ≤ (g.sessions new.user_id).entries.length then
        some (g, .serve new.user_id (maximumReached config))
      else some (g.insertSession new.user_id session, .creating new (.persist g.heap.length))
    else
      -- the default session: neither the map nor its size is looked at again
      some (g.insertSession new.user_id session, .creating new (.persist g.heap.length))
  | .persist handle =>
    -- a failure to persist is logged and ignored
    let stored := match g.heap[handle]? with
      | some s =>
        if inp.store_fails then g.store
        else g.store.map fun records => SessionStore.createSession records
          { session_id := s.session_id
            user_id := s.user_id
            agent_name := s.agent_name
            channel_origin := s.channel_origin }
      | none => g.store
    some ({ g with store := stored }, .serve new.user_id (.ok handle))

/-- The ids and handles of a map whose id starts with a text. -/
def startingWith (wanted : String) (sessions : SessionMap) : List ((_ : String) × ℕ) :=
  sessions.entries.filter fun entry => wanted.toList.isPrefixOf entry.1.toList

/-- `resolve_session_by_prefix`. -/
def matchStep (user_id wanted : String) : MatchStage → GatewayState × RequestPhase
  | .user =>
    match g.users user_id with
    | none => (g, .serve user_id (notFound wanted user_id))
    | some _ => (g, .matching user_id wanted .memory)
  | .memory =>
    match (g.sessions user_id).lookup wanted with
    | some handle => (g, .serve user_id (.ok handle))
    | none =>
      match startingWith wanted (g.sessions user_id) with
      | [entry] => (g, .serve user_id (.ok entry.2))
      | [] =>
        -- only a prefix that nothing in memory has is looked for in the store
        if g.store.isSome then (g, .matching user_id wanted .store)
        else (g, .serve user_id (notFound wanted user_id))
      | entries => (g, .serve user_id (ambiguous wanted entries.length))
  | .store =>
    -- a record with the whole id, of any user, comes before the prefixes of the user's own
    match (askStore inp g fun records => SessionStore.getSession records wanted).join with
    | some record => (g, .looking user_id record.session_id none .user)
    | none => (g, .matching user_id wanted .list)
  | .list =>
    match askStore inp g fun records => (SessionStore.listSessions records user_id false).filter
        fun r => wanted.toList.isPrefixOf r.session_id.toList with
    | some [record] => (g, .looking user_id record.session_id none .user)
    | some [] | none => (g, .serve user_id (notFound wanted user_id))
    | some records => (g, .serve user_id (ambiguous wanted records.length))

/-- `cleanup_sessions_once`, for one user. A session is checked once more when it is removed. -/
def cleanStep (user_id : String) : CleanupStage → GatewayState × RequestPhase
  | .scan =>
    (g, .cleaning user_id (.remove
      (((g.sessions user_id).entries.filter fun entry => g.stale config entry.2).map Sigma.fst)))
  | .remove [] => (g, .idle)
  | .remove (session_id :: rest) =>
    match (g.sessions user_id).lookup session_id with
    | some handle =>
      -- it may have been used since the scan
      if g.stale config handle then
        (g.removeSession user_id session_id, .cleaning user_id (.archive session_id rest))
      else (g, .cleaning user_id (.remove rest))
    | none => (g, .cleaning user_id (.remove rest))
  | .archive session_id rest =>
    let stored := if inp.store_fails then g.store
      else g.store.map fun records => SessionStore.archiveSession records session_id
    ({ g with store := stored }, .cleaning user_id (.remove rest))

end

/-! ## All interleavings -/

/-- What a thread does: it starts a request, or takes the request's next step; its client subscribes
to the session, starts a turn, or leaves. In any thread a turn ends, a turn's task marks its session
as active (also after the turn's end), or time passes. -/
inductive GatewayAction where
  | request (req : Request)
  | next (inp : StepInput)
  | subscribe
  | startTurn
  | leave
  | markActive (handle : ℕ)
  | endTurn (handle : ℕ)
  | tick (secs : ℕ)

/-- The next step of a request. -/
def requestStep (config : GatewayConfig) (inp : StepInput) (g : GatewayState) :
    RequestPhase → Option (GatewayState × RequestPhase)
  | .looking user_id session_id missing stage =>
    some (lookStep inp g user_id session_id missing stage)
  | .creating new stage => createStep config inp g new stage
  | .matching user_id wanted stage => some (matchStep inp g user_id wanted stage)
  | .cleaning user_id stage => some (cleanStep config inp g user_id stage)
  | .idle | .served _ _ _ => none

/-- One atomic step of one thread. -/
def gatewayStep (config : GatewayConfig) (g : GatewayState) (phase : RequestPhase) :
    GatewayAction → Option (GatewayState × RequestPhase)
  | .request req =>
    match phase with
    | .idle => some (g, req.start)
    | _ => none
  | .next inp => requestStep config inp g phase
  | .subscribe =>
    match phase with
    | .served user_id (.ok handle) false =>
      some (g.modifySession handle fun s => { s with receivers := s.receivers + 1 },
        .served user_id (.ok handle) true)
    | _ => none
  | .startTurn =>
    match phase with
    | .served user_id (.ok handle) subscribed =>
      -- a turn that finds another one active is refused, and changes nothing
      some ((g.modifySession handle fun s => { s with active_turn := true }).withOwner handle,
        .served user_id (.ok handle) subscribed)
    | _ => none
  | .leave =>
    match phase with
    | .served _ (.ok handle) true =>
      some (g.modifySession handle fun s => { s with receivers := s.receivers - 1 }, .idle)
    | .served _ _ _ => some (g, .idle)
    | _ => none
  | .markActive handle =>
    some (g.modifySession handle fun s => { s with last_activity := g.now }, phase)
  | .endTurn handle =>
    some (g.modifySession handle fun s => { s with active_turn := false }, phase)
  | .tick secs => some ({ g with now := g.now + secs }, phase)

/-- All interleavings of requests, on a store that may hold sessions from before. -/
def gatewaySystem (ι : Type) [DecidableEq ι] (config : GatewayConfig) :
    System (Threads ι GatewayState RequestPhase) (ι × GatewayAction) :=
  interleave (fun s => s.shared.users = (fun _ => none) ∧ s.shared.heap = [] ∧
    ∀ i, s.threads i = .idle) (gatewayStep config)

/-! ## What a step can do -/

/-- What does not change of a `SessionState`. -/
def LiveSession.ident (s : LiveSession) : String × String × String :=
  (s.session_id, s.user_id, s.holder)

/-- Whether a turn of a session is active. -/
def GatewayState.active (g : GatewayState) (handle : ℕ) : Bool :=
  g.heap[handle]?.any LiveSession.active_turn

/-- The user whose request has a session at hand, and the session. -/
def RequestPhase.handle : RequestPhase → Option (String × ℕ)
  | .creating new (.persist handle) => some (new.user_id, handle)
  | .served user_id (.ok handle) _ => some (user_id, handle)
  | _ => none

/-- What the world decides in the next step of a request. -/
def GatewayAction.input : GatewayAction → Option StepInput
  | .next inp => some inp
  | _ => none

/-- The user's map and the id at which the next step of a request may insert a session. -/
def RequestPhase.insertion (inp : StepInput) : RequestPhase → Option (String × String)
  | .looking user_id _ _ (.resume record) => some (user_id, record.session_id)
  | .creating new .insert => some (new.user_id, new.session_id.getD inp.uuid)
  | _ => none

/-- Whether the insertion is of a session under a new UUID, which is counted under the lock. -/
def RequestPhase.fresh : RequestPhase → Bool
  | .creating new .insert => new.session_id.isNone
  | _ => false

/-- A session is put into the map of the user `u`. It has the user's own name, or the one of the
record that is resumed, and a session under a new UUID is put only where there is room for it. -/
structure Insertion (config : GatewayConfig) (g : GatewayState) (phase : RequestPhase)
    (act : GatewayAction) (g' : GatewayState) (u : String) (s : LiveSession) : Prop where
  shared : g' = g.insertSession u s
  place : ∃ inp ∈ act.input, phase.insertion inp = some (u, s.session_id)
  holder : s.holder = u
  inactive : s.active_turn = false
  owner : s.user_id = u ∨ ∃ id missing r, phase = .looking u id missing (.resume r) ∧
    s.user_id = r.user_id
  room : phase.fresh = true → (g.sessions u).entries.length < config.max_sessions_per_user

/-- All that one step can do to the maps of the users and to the sessions. -/
inductive StepEffect (config : GatewayConfig) (g : GatewayState) (phase : RequestPhase)
    (act : GatewayAction) (g' : GatewayState) (phase' : RequestPhase) : Prop
  /-- The maps stand. The request has the session that it had, or none, and only a turn of this
  session may start. -/
  | quiet (hu : ∀ u, g'.sessions u = g.sessions u)
    (hh : g'.heap.map LiveSession.ident = g.heap.map LiveSession.ident)
    (ha : ∀ h, g'.active h → g.active h ∨ ∃ u, phase.handle = some (u, h))
    (hp : phase'.handle = none ∨ phase'.handle = phase.handle)
  /-- A session is found in its user's map. -/
  | hit (u id : String) (h : ℕ) (hg : g' = g) (hl : (g.sessions u).lookup id = some h)
    (hp : phase'.handle = some (u, h))
  /-- A session is inserted. -/
  | insert (u : String) (s : LiveSession) (hins : Insertion config g phase act g' u s)
    (hp : phase'.handle = some (u, g.heap.length))
  /-- The cleanup removes a session. -/
  | erase (u id : String) (hg : g' = g.removeSession u id) (hp : phase'.handle = none)

section

variable {config : GatewayConfig} {inp : StepInput} {g g' : GatewayState}
  {phase phase' : RequestPhase} {act : GatewayAction}

/-- A user who becomes known has no sessions. -/
@[simp]
theorem sessions_withUser (u v : String) : (g.withUser u).sessions v = g.sessions v := by
  unfold GatewayState.withUser
  by_cases hv : v = u
  · subst hv
    simp [GatewayState.sessions]
  · simp [GatewayState.sessions, hv]

@[simp]
theorem sessions_withOwner (handle : ℕ) (v : String) :
    (g.withOwner handle).sessions v = g.sessions v := by
  unfold GatewayState.withOwner
  split
  · exact sessions_withUser _ v
  · rfl

theorem heap_withOwner (handle : ℕ) : (g.withOwner handle).heap = g.heap := by
  unfold GatewayState.withOwner
  split <;> rfl

/-- A step that changes neither a map nor a session. -/
theorem StepEffect.still (hu : ∀ u, g'.sessions u = g.sessions u) (hh : g'.heap = g.heap)
    (hp : phase'.handle = none ∨ phase'.handle = phase.handle) :
    StepEffect config g phase act g' phase' := by
  apply StepEffect.quiet hu (by rw [hh]) _ hp
  intro h ha
  unfold GatewayState.active at ha ⊢
  rw [hh] at ha
  exact Or.inl ha

/-- A step that changes nothing, to a phase without a session at hand. -/
theorem StepEffect.unmoved {next : RequestPhase} (h : (g, next) = (g', phase'))
    (hnext : next.handle = none) : StepEffect config g phase act g' phase' := by
  cases h
  exact .still (fun _ => rfl) rfl (Or.inl hnext)

/-- A change of a session that leaves its identity alone. -/
theorem map_ident_modify (handle : ℕ) (hf : ∀ s, (f s).ident = s.ident) :
    (g.modifySession handle f).heap.map LiveSession.ident = g.heap.map LiveSession.ident := by
  apply List.ext_getElem?
  intro j
  show ((g.heap.modify handle f).map _)[j]? = _
  rw [List.getElem?_map, List.getElem?_map, List.getElem?_modify, Option.map_eq_map,
    Option.map_map]
  congr 1
  funext s
  by_cases hj : handle = j
  · simp [hj, hf]
  · simp [hj]

/-- A change of a session starts a turn of this session at most. -/
theorem active_modify {handle h : ℕ} (ha : (g.modifySession handle f).active h) :
    g.active h ∨ (handle = h ∧ ∃ s, g.heap[h]? = some s ∧ (f s).active_turn) := by
  unfold GatewayState.active GatewayState.modifySession at ha
  rw [List.getElem?_modify, Option.map_eq_map, Option.any_map] at ha
  by_cases hj : handle = h
  · cases hs : g.heap[h]? with
    | none => simp [hs] at ha
    | some s =>
      rw [hs] at ha
      exact Or.inr ⟨hj, s, rfl, by simpa [hj] using ha⟩
  · left
    unfold GatewayState.active
    simpa [hj] using ha

/-- What a step of a search by id can do. -/
theorem lookStep_effect {stage : LookupStage} (h : lookStep inp g u id missing stage = (g', phase'))
    :
    StepEffect config g (.looking u id missing stage) (.next inp) g' phase' := by
  cases stage with
  | user =>
    cases h
    exact .still (sessions_withUser u) rfl (Or.inl rfl)
  | memory =>
    simp only [lookStep] at h
    split at h
    · next handle hl =>
      cases h
      exact .hit u id handle rfl hl rfl
    · exact .unmoved h rfl
  | store =>
    simp only [lookStep] at h
    split at h
    · exact .unmoved h rfl
    · split at h
      all_goals exact .unmoved h rfl
  | resume record =>
    cases h
    refine .insert u (g.resumed u record) ⟨rfl, ⟨inp, rfl, rfl⟩, rfl, rfl, ?_, nofun⟩ rfl
    exact Or.inr ⟨id, missing, record, rfl, rfl⟩

/-- What a step of a creation can do. -/
theorem createStep_effect {new : NewSession} {stage : CreateStage}
    (h : createStep config inp g new stage = some (g', phase')) :
    StepEffect config g (.creating new stage) (.next inp) g' phase' := by
  cases stage with
  | user =>
    cases h
    exact .still (sessions_withUser _) rfl (Or.inl rfl)
  | count => exact .unmoved (some.inj h) rfl
  | capacity n =>
    simp only [createStep] at h
    split at h
    all_goals exact .unmoved (some.inj h) rfl
  | insert =>
    simp only [createStep] at h
    split_ifs at h with hnew hunused hmax
    · exact .unmoved (some.inj h) rfl
    · -- under a new UUID, with room in the map
      cases h
      refine .insert new.user_id _ ⟨rfl, ⟨inp, rfl, rfl⟩, rfl, rfl, Or.inl rfl, fun _ => ?_⟩ rfl
      omega
    · -- the default session, which is not counted again
      cases h
      refine .insert new.user_id _ ⟨rfl, ⟨inp, rfl, rfl⟩, rfl, rfl, Or.inl rfl, fun hf => ?_⟩ rfl
      exact absurd hf hnew
  | persist handle =>
    cases h
    exact .still (fun _ => rfl) rfl (Or.inr rfl)

/-- What a step of a search by the start of an id can do. -/
theorem matchStep_effect {u wanted : String} {stage : MatchStage}
    (h : matchStep inp g u wanted stage = (g', phase')) :
    StepEffect config g (.matching u wanted stage) (.next inp) g' phase' := by
  cases stage with
  | user =>
    simp only [matchStep] at h
    split at h
    all_goals exact .unmoved h rfl
  | memory =>
    simp only [matchStep] at h
    split at h
    · next handle hl =>
      cases h
      exact .hit u wanted handle rfl hl rfl
    · split at h
      · next entry hentry =>
        cases h
        -- the one entry that matches is an entry of the map
        have hmem : entry ∈ (g.sessions u).entries := by
          have : entry ∈ startingWith wanted (g.sessions u) := by simp [hentry]
          exact List.mem_of_mem_filter this
        exact .hit u entry.1 entry.2 rfl (AList.mem_lookup_iff.mpr hmem) rfl
      · split_ifs at h
        all_goals exact .unmoved h rfl
      · exact .unmoved h rfl
  | store =>
    simp only [matchStep] at h
    split at h
    all_goals exact .unmoved h rfl
  | list =>
    simp only [matchStep] at h
    split at h
    all_goals exact .unmoved h rfl

/-- What a step of the cleanup can do. -/
theorem cleanStep_effect {stage : CleanupStage} (h : cleanStep config inp g u stage = (g', phase'))
    :
    StepEffect config g (.cleaning u stage) (.next inp) g' phase' := by
  cases stage with
  | scan => exact .unmoved h rfl
  | remove stale =>
    cases stale with
    | nil => exact .unmoved h rfl
    | cons id rest =>
      simp only [cleanStep] at h
      split at h
      · next handle hl =>
        split_ifs at h with hstale
        · cases h
          exact .erase u id rfl rfl
        · exact .unmoved h rfl
      · exact .unmoved h rfl
  | archive id rest =>
    -- the store is no part of the sessions
    cases h
    exact .still (fun _ => rfl) rfl (Or.inl rfl)

/-- What the next step of a request can do. -/
theorem requestStep_effect (h : requestStep config inp g phase = some (g', phase')) :
    StepEffect config g phase (.next inp) g' phase' := by
  cases phase with
  | idle => cases h
  | served _ _ _ => cases h
  | looking u id missing stage => exact lookStep_effect (some.inj h)
  | creating new stage => exact createStep_effect h
  | matching u wanted stage => exact matchStep_effect (some.inj h)
  | cleaning u stage => exact cleanStep_effect (some.inj h)

/-- A change of the session that a request has at hand, or one that starts no turn. -/
theorem StepEffect.modify {handle : ℕ} (hheap : g'.heap = (g.modifySession handle f).heap)
    (hu : ∀ u, g'.sessions u = g.sessions u) (hf : ∀ s, (f s).ident = s.ident)
    (hh : (∃ u, phase.handle = some (u, handle)) ∨ ∀ s, (f s).active_turn → s.active_turn)
    (hp : phase'.handle = none ∨ phase'.handle = phase.handle) :
    StepEffect config g phase act g' phase' := by
  have hident := map_ident_modify (g := g) handle hf
  rw [← hheap] at hident
  refine .quiet hu hident (fun h ha => ?_) hp
  have ha : (g.modifySession handle f).active h := by
    unfold GatewayState.active at ha ⊢
    rw [← hheap]
    exact ha
  obtain ha | ⟨rfl, s, hs, hactive⟩ := active_modify ha
  · exact Or.inl ha
  · obtain hheld | hkept := hh
    · exact Or.inr hheld
    · exact Or.inl (by simp [GatewayState.active, hs, hkept s hactive])

/-- Where a request starts. -/
theorem Request.start_cases (req : Request) :
    (∃ u id missing, req.start = .looking u id missing .user) ∨
      (∃ new, req.start = .creating new .user) ∨
      (∃ u wanted, req.start = .matching u wanted .user) ∨ ∃ u, req.start = .cleaning u .scan := by
  cases req with
  | createOrGet u id agent_name channel_origin =>
    cases id with
    | none => exact Or.inr (Or.inl ⟨_, rfl⟩)
    | some id => exact Or.inl ⟨u, id, none, rfl⟩
  | hello u id create_new_session =>
    cases create_new_session with
    | true => exact Or.inr (Or.inl ⟨_, rfl⟩)
    | false =>
      cases id with
      | none => exact Or.inl ⟨u, defaultSessionId u, _, rfl⟩
      | some id => exact Or.inl ⟨u, id, none, rfl⟩
  | switchSession u wanted => exact Or.inr (Or.inr (Or.inl ⟨u, wanted, rfl⟩))
  | cleanup u => exact Or.inr (Or.inr (Or.inr ⟨u, rfl⟩))

/-- What a step of a thread can do. -/
theorem step_effect (h : gatewayStep config g phase act = some (g', phase')) :
    StepEffect config g phase act g' phase' := by
  cases act with
  | request req =>
    simp only [gatewayStep] at h
    split at h
    · cases h
      refine .still (fun _ => rfl) rfl (Or.inl ?_)
      -- no request has a session at hand when it starts
      obtain ⟨u, id, missing, hs⟩ | ⟨new, hs⟩ | ⟨u, wanted, hs⟩ | ⟨u, hs⟩ := req.start_cases
      all_goals
        rw [hs]
        rfl
    · cases h
  | next inp => exact requestStep_effect h
  | subscribe =>
    simp only [gatewayStep] at h
    split at h
    · next u handle =>
      cases h
      exact .modify rfl (fun _ => rfl) (fun _ => rfl) (Or.inl ⟨u, rfl⟩) (Or.inr rfl)
    · cases h
  | startTurn =>
    simp only [gatewayStep] at h
    split at h
    · next u handle subscribed =>
      cases h
      refine .modify (heap_withOwner handle) (fun v => ?_) (fun _ => rfl) (Or.inl ⟨u, rfl⟩)
        (Or.inr rfl)
      rw [sessions_withOwner]
      rfl
    · cases h
  | leave =>
    simp only [gatewayStep] at h
    split at h
    · next u handle =>
      cases h
      exact .modify rfl (fun _ => rfl) (fun _ => rfl) (Or.inl ⟨u, rfl⟩) (Or.inl rfl)
    · exact .unmoved (some.inj h) rfl
    · cases h
  | markActive handle =>
    cases h
    exact .modify rfl (fun _ => rfl) (fun _ => rfl) (Or.inr fun _ ha => ha) (Or.inr rfl)
  | endTurn handle =>
    cases h
    exact .modify rfl (fun _ => rfl) (fun _ => rfl) (Or.inr fun _ ha => nomatch ha) (Or.inr rfl)
  | tick secs =>
    cases h
    exact .still (fun _ => rfl) rfl (Or.inr rfl)

/-- A search by id resumes only what it found in the store. -/
theorem lookStep_resume {u u' id id' : String} {missing missing' : Option NewSession}
    {stage : LookupStage} {record : SessionRecord}
    (h : lookStep inp g u id missing stage = (g', .looking u' id' missing' (.resume record))) :
    RequestPhase.looking u id missing stage = .looking u' id' missing' .store ∧
      (askStore inp g fun records => SessionStore.getSession records id').join = some record := by
  cases stage with
  | user => simp [lookStep] at h
  | memory =>
    simp only [lookStep] at h
    split at h <;> simp [RequestPhase.serve] at h
  | store =>
    simp only [lookStep] at h
    split at h
    · next found hfound =>
      obtain ⟨rfl, hphase⟩ := Prod.mk.inj h
      injection hphase with hu hid hmissing hstage
      injection hstage with hrecord
      subst hu hid hmissing hrecord
      exact ⟨rfl, hfound⟩
    · split at h <;> simp [RequestPhase.serve] at h
  | resume r => simp [lookStep, RequestPhase.serve] at h

/-- A request resumes only what it found in the store by the id that it looks for. -/
theorem step_resume {record : SessionRecord}
    (h : gatewayStep config g phase act = some (g', .looking u id missing (.resume record))) :
    phase = .looking u id missing (.resume record) ∨ ∃ inp ∈ act.input,
      phase = .looking u id missing .store ∧
      (askStore inp g fun records => SessionStore.getSession records id).join = some record := by
  cases act with
  | next inp =>
    cases phase with
    | looking u' id' missing' stage =>
      simp only [gatewayStep, requestStep, some.injEq] at h
      obtain ⟨hphase, hrecord⟩ := lookStep_resume h
      exact Or.inr ⟨inp, rfl, hphase, hrecord⟩
    -- no other request gets to the stage of resuming
    | creating new stage =>
      simp only [gatewayStep, requestStep] at h
      cases stage <;> simp only [createStep] at h <;> grind [RequestPhase.serve]
    | matching u' wanted stage =>
      cases stage <;> simp only [gatewayStep, requestStep, matchStep] at h <;> split at h <;>
        grind [RequestPhase.serve]
    | cleaning u' stage =>
      cases stage <;> simp only [gatewayStep, requestStep, cleanStep] at h <;> grind
    | idle => cases h
    | served _ _ _ => cases h
  | request req =>
    simp only [gatewayStep] at h
    split at h
    · obtain ⟨-, hstart⟩ := Prod.mk.inj (some.inj h)
      obtain ⟨u', id', missing', hs⟩ | ⟨new, hs⟩ | ⟨u', wanted, hs⟩ | ⟨u', hs⟩ := req.start_cases
      all_goals
        rw [hs] at hstart
        cases hstart
    · cases h
  | subscribe | startTurn | leave =>
    simp only [gatewayStep] at h
    grind
  | markActive | endTurn | tick =>
    simp only [gatewayStep] at h
    grind

end

end Oxydra
