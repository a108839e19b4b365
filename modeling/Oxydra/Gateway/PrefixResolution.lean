import Oxydra.Gateway.SessionLaws

/-!
# Sessions by the start of their ids

`resolve_session_by_prefix` of `crates/gateway/src/lib.rs`, as one request that runs alone on a
store that does not fail: the whole id in memory, the start of an id in memory, the whole id in the
store, and at last the start of an id in the store, with an answer as soon as one search finds
something. `prefix_resolution_iff` says when the answer is the one that all the user's sessions,
those in memory and those in the store, give together.
-/

namespace Oxydra

open List Lts

/-! ## The request on its own -/

/-- A request that takes up to `n` steps with no other in between, on a store that does not fail. -/
def runAlone (config : GatewayConfig) : ℕ → GatewayState → RequestPhase →
    GatewayState × RequestPhase
  | 0, g, phase => (g, phase)
  | n + 1, g, phase =>
    match requestStep config {} g phase with
    | some (g', phase') => runAlone config n g' phase'
    | none => (g, phase)

section

variable (g : GatewayState) (u wanted : String)

/-- `create_or_get_session` with an id. -/
def createOrGetById (id : String) : GatewayState × Except String ℕ :=
  let g := g.withUser u
  match (g.sessions u).lookup id with
  | some handle => (g, .ok handle)
  | none =>
    match SessionStore.getSession (g.store.getD []) id with
    | some record => (g.insertSession u (g.resumed u record), .ok g.heap.length)
    | none => (g, notFound id u)

/-- `id.starts_with(prefix)`. -/
def startsWith (id : String) : Bool := wanted.toList.isPrefixOf id.toList

/-- The user's stored sessions, without the archived ones, whose ids start with the text. -/
def GatewayState.storedMatches : List SessionRecord :=
  (SessionStore.listSessions (g.store.getD []) u false).filter fun r =>
    startsWith wanted r.session_id

/-- `resolve_session_by_prefix`, from where nothing in memory starts with the text. -/
def searchStore : GatewayState × Except String ℕ :=
  match SessionStore.getSession (g.store.getD []) wanted with
  | some record => createOrGetById g u record.session_id
  | none =>
    match g.storedMatches u wanted with
    | [record] => createOrGetById g u record.session_id
    | [] => (g, notFound wanted u)
    | records => (g, ambiguous wanted records.length)

/-- `resolve_session_by_prefix`. -/
def resolveSessionByPrefix : GatewayState × Except String ℕ :=
  match g.users u with
  | none => (g, notFound wanted u)
  | some sessions =>
    match sessions.lookup wanted with
    | some handle => (g, .ok handle)
    | none =>
      match startingWith wanted sessions with
      | [entry] => (g, .ok entry.2)
      | [] => searchStore g u wanted
      | entries => (g, ambiguous wanted entries.length)

end

section

variable {config : GatewayConfig} {g g' : GatewayState} {phase phase' : RequestPhase}
  {u id wanted : String} {n : ℕ}

theorem runAlone_step (h : requestStep config {} g phase = some (g', phase')) :
    runAlone config (n + 1) g phase = runAlone config n g' phase' := by
  simp only [runAlone, h]

theorem runAlone_serve (result : Except String ℕ) :
    runAlone config n g (.serve u result) = (g, .serve u result) := by
  cases n <;> rfl

/-- A query of a store that does not fail. -/
theorem askStore_join {α : Type} (query : List SessionRecord → Option α) (hnil : query [] = none) :
    (askStore {} g query).join = query (g.store.getD []) := by
  cases hs : g.store with
  | none => simp [askStore, hs, hnil]
  | some records => simp [askStore, hs]

/-- A search by id that runs alone. -/
theorem runAlone_looking : runAlone config (n + 4) g (.looking u id none .user) =
    ((createOrGetById g u id).1, .serve u (createOrGetById g u id).2) := by
  have huser : requestStep config {} g (.looking u id none .user) =
      some (g.withUser u, .looking u id none .memory) := rfl
  rw [runAlone_step huser]
  unfold createOrGetById
  generalize g.withUser u = g
  cases hl : (g.sessions u).lookup id with
  | some handle =>
    have hmemory : requestStep config {} g (.looking u id none .memory) =
        some (g, .serve u (.ok handle)) := by
      simp only [requestStep, lookStep, hl]
    rw [runAlone_step hmemory, runAlone_serve]
    simp only [hl]
  | none =>
    have hmemory : requestStep config {} g (.looking u id none .memory) =
        some (g, .looking u id none .store) := by
      simp only [requestStep, lookStep, hl]
    rw [runAlone_step hmemory]
    have hask := askStore_join (g := g) (SessionStore.getSession · id) rfl
    cases hr : SessionStore.getSession (g.store.getD []) id with
    | none =>
      have hstore : requestStep config {} g (.looking u id none .store) =
          some (g, .serve u (notFound id u)) := by
        simp only [requestStep, lookStep, hask, hr]
      rw [runAlone_step hstore, runAlone_serve]
      simp only [hl, hr]
    | some record =>
      have hstore : requestStep config {} g (.looking u id none .store) =
          some (g, .looking u id none (.resume record)) := by
        simp only [requestStep, lookStep, hask, hr]
      rw [runAlone_step hstore]
      have hresume : requestStep config {} g (.looking u id none (.resume record)) =
          some (g.insertSession u (g.resumed u record), .serve u (.ok g.heap.length)) := rfl
      rw [runAlone_step hresume, runAlone_serve]
      simp only [hl, hr]

/-- The search in the store, on its own. -/
theorem runAlone_store (hstore : g.store.isSome) :
    runAlone config (n + 6) g (.matching u wanted .store) =
      ((searchStore g u wanted).1, .serve u (searchStore g u wanted).2) := by
  obtain ⟨records, hs⟩ := Option.isSome_iff_exists.mp hstore
  have hask := askStore_join (g := g) (SessionStore.getSession · wanted) rfl
  unfold searchStore
  cases hr : SessionStore.getSession (g.store.getD []) wanted with
  | some record =>
    have hfound : requestStep config {} g (.matching u wanted .store) =
        some (g, .looking u record.session_id none .user) := by
      simp only [requestStep, matchStep, hask, hr]
    rw [runAlone_step hfound, runAlone_looking]
  | none =>
    have hnone : requestStep config {} g (.matching u wanted .store) =
        some (g, .matching u wanted .list) := by
      simp only [requestStep, matchStep, hask, hr]
    rw [runAlone_step hnone]
    have hlist : (askStore {} g fun records =>
        (SessionStore.listSessions records u false).filter fun r =>
          wanted.toList.isPrefixOf r.session_id.toList) = some (g.storedMatches u wanted) := by
      simp only [askStore, hs, GatewayState.storedMatches, startsWith]
      rfl
    simp only
    split
    · next record hone =>
      have hlisted : requestStep config {} g (.matching u wanted .list) =
          some (g, .looking u record.session_id none .user) := by
        simp only [requestStep, matchStep, hlist, hone]
      rw [runAlone_step hlisted, runAlone_looking]
    · next hempty =>
      have hlisted : requestStep config {} g (.matching u wanted .list) =
          some (g, .serve u (notFound wanted u)) := by
        simp only [requestStep, matchStep, hlist, hempty]
      rw [runAlone_step hlisted, runAlone_serve]
    · have hlisted : requestStep config {} g (.matching u wanted .list) =
          some (g, .serve u (ambiguous wanted (g.storedMatches u wanted).length)) := by
        simp only [requestStep, matchStep, hlist]
      rw [runAlone_step hlisted, runAlone_serve]

/-- A switch to a session that runs alone is `resolveSessionByPrefix`. -/
theorem runAlone_switchSession : runAlone config 8 g (Request.switchSession u wanted).start =
    ((resolveSessionByPrefix g u wanted).1, .serve u (resolveSessionByPrefix g u wanted).2) := by
  change runAlone config 8 g (.matching u wanted .user) = _
  unfold resolveSessionByPrefix
  cases hu : g.users u with
  | none =>
    have huser : requestStep config {} g (.matching u wanted .user) =
        some (g, .serve u (notFound wanted u)) := by
      simp only [requestStep, matchStep, hu]
    rw [runAlone_step huser, runAlone_serve]
  | some sessions =>
    have hsessions : g.sessions u = sessions := by simp [GatewayState.sessions, hu]
    have huser : requestStep config {} g (.matching u wanted .user) =
        some (g, .matching u wanted .memory) := by
      simp only [requestStep, matchStep, hu]
    rw [runAlone_step huser]
    simp only
    split
    · next handle hl =>
      have hmemory : requestStep config {} g (.matching u wanted .memory) =
          some (g, .serve u (.ok handle)) := by
        simp only [requestStep, matchStep, hsessions, hl]
      rw [runAlone_step hmemory, runAlone_serve]
    · next hl =>
      split
      · next entry hone =>
        have hmemory : requestStep config {} g (.matching u wanted .memory) =
            some (g, .serve u (.ok entry.2)) := by
          simp only [requestStep, matchStep, hsessions, hl, hone]
        rw [runAlone_step hmemory, runAlone_serve]
      · next hnone =>
        cases hs : g.store with
        | none =>
          have hmemory : requestStep config {} g (.matching u wanted .memory) =
              some (g, .serve u (notFound wanted u)) := by
            simp [requestStep, matchStep, hsessions, hl, hnone, hs]
          rw [runAlone_step hmemory, runAlone_serve]
          simp [searchStore, SessionStore.getSession, GatewayState.storedMatches, hs,
            SessionStore.listSessions]
        | some records =>
          have hmemory : requestStep config {} g (.matching u wanted .memory) =
              some (g, .matching u wanted .store) := by
            simp [requestStep, matchStep, hsessions, hl, hnone, hs]
          rw [runAlone_step hmemory, runAlone_store (by rw [hs]; rfl)]
      · have hmemory : requestStep config {} g (.matching u wanted .memory) =
            some (g, .serve u (ambiguous wanted (startingWith wanted sessions).length)) := by
          simp only [requestStep, matchStep, hsessions, hl]
        rw [runAlone_step hmemory, runAlone_serve]

end

/-! ## The answer of all sessions together -/

section

variable (g : GatewayState) (u wanted : String)

/-- The ids of the sessions that a user has in memory or, not archived, in the store. -/
def GatewayState.idsOf : List String :=
  (g.sessions u).keys ++ (SessionStore.listSessions (g.store.getD []) u false).map (·.session_id)

/-- The text is not an id of the user's, and is the start of two. -/
def GatewayState.Ambiguous : Prop :=
  wanted ∉ g.idsOf u ∧ ∃ id ∈ g.idsOf u, ∃ id' ∈ g.idsOf u, id ≠ id' ∧
    startsWith wanted id ∧ startsWith wanted id'

/-- The entries of a user's map are under their ids. -/
def GatewayState.Placed : Prop :=
  ∀ id h, (g.sessions u).lookup id = some h → ∃ x ∈ g.heap[h]?, x.session_id = id

/-- A session is handed out only if the text is its id, or it is the only one of the user's sessions
whose id starts with it; and an ambiguous text is reported as ambiguous. -/
def Unambiguous (answer : GatewayState × Except String ℕ) : Prop :=
  (∀ h, answer.2 = .ok h → ∃ x ∈ answer.1.heap[h]?, x.session_id = wanted ∨
    (x.session_id ∈ g.idsOf u ∧ startsWith wanted x.session_id ∧
      ∀ id ∈ g.idsOf u, startsWith wanted id → id = x.session_id)) ∧
  (g.Ambiguous u wanted → ∃ n, answer.2 = ambiguous wanted n)

/-- Where the searches one after the other give the answer of all together: no user who was never
heard of has an ambiguous text; when one id in memory starts with the text, no other one in the
store does; and a record that has the text as its id, and that is not one of the user's sessions,
does not hide that the text is ambiguous. -/
structure SearchesAgree : Prop where
  unknown : g.users u = none → ¬g.Ambiguous u wanted
  memory : ∀ entry, (g.sessions u).lookup wanted = none →
    startingWith wanted (g.sessions u) = [entry] →
    ∀ r ∈ g.storedMatches u wanted, r.session_id = entry.1
  store : startingWith wanted (g.sessions u) = [] →
    (SessionStore.getSession (g.store.getD []) wanted).isSome → ¬g.Ambiguous u wanted

end

section

variable {g : GatewayState} {u wanted id : String}

theorem startsWith_self (id : String) : startsWith id id = true := by
  simp [startsWith]

/-- The entries that a search in memory finds. -/
theorem mem_startingWith {m : SessionMap} {entry : (_ : String) × ℕ} :
    entry ∈ startingWith wanted m ↔ entry ∈ m.entries ∧ startsWith wanted entry.1 = true :=
  mem_filter

theorem mem_storedMatches {r : SessionRecord} :
    r ∈ g.storedMatches u wanted ↔ r ∈ SessionStore.listSessions (g.store.getD []) u false ∧
      startsWith wanted r.session_id = true :=
  mem_filter

/-- The ids that start with a text are those that the two searches find. -/
theorem mem_idsOf_startsWith : (id ∈ g.idsOf u ∧ startsWith wanted id = true) ↔
    (∃ entry ∈ startingWith wanted (g.sessions u), entry.1 = id) ∨
      ∃ r ∈ g.storedMatches u wanted, r.session_id = id := by
  simp only [GatewayState.idsOf, mem_append, AList.keys, List.keys, mem_map,
    mem_startingWith, mem_storedMatches]
  constructor
  · rintro ⟨⟨entry, hentry, rfl⟩ | ⟨r, hr, rfl⟩, hstart⟩
    · exact .inl ⟨entry, ⟨hentry, hstart⟩, rfl⟩
    · exact .inr ⟨r, ⟨hr, hstart⟩, rfl⟩
  · rintro (⟨entry, ⟨hentry, hstart⟩, rfl⟩ | ⟨r, ⟨hr, hstart⟩, rfl⟩)
    · exact ⟨.inl ⟨entry, hentry, rfl⟩, hstart⟩
    · exact ⟨.inr ⟨r, hr, rfl⟩, hstart⟩

/-- An id in memory is found by its start. -/
theorem lookup_eq_none_of_startingWith (h : startingWith wanted (g.sessions u) = [])
    (hstart : startsWith wanted id = true) : (g.sessions u).lookup id = none := by
  rw [Option.eq_none_iff_forall_not_mem]
  intro handle hl
  have hentry : ⟨id, handle⟩ ∈ startingWith wanted (g.sessions u) :=
    mem_startingWith.mpr ⟨AList.mem_lookup_iff.mp hl, hstart⟩
  rw [h] at hentry
  cases hentry

/-- A record that is found by an id has it. -/
theorem getSession_id {records : List SessionRecord} {record : SessionRecord}
    (h : SessionStore.getSession records id = some record) : record.session_id = id := by
  have := List.find?_some h
  simpa using this

/-- A user's record is found by its id. -/
theorem getSession_of_mem {records : List SessionRecord} {r : SessionRecord} (hr : r ∈ records) :
    ∃ record, SessionStore.getSession records r.session_id = some record := by
  have hsome : (records.find? fun r' => r'.session_id = r.session_id).isSome := by
    rw [List.find?_isSome]
    exact ⟨r, hr, by simp⟩
  exact Option.isSome_iff_exists.mp hsome

/-- Two errors that do not say the same. -/
theorem notFound_ne_ambiguous (n : ℕ) : notFound wanted u ≠ ambiguous wanted n := by
  intro h
  have hchars := congrArg (fun result : Except String ℕ =>
    match result with
    | .ok _ => none
    | .error message => message.toList.head?) h
  have hs : (toString "session `").toList.head? = some 's' := by decide
  have ha : (toString "ambiguous session prefix `").toList.head? = some 'a' := by decide
  simp [notFound, ambiguous, hs, ha] at hchars

/-- A stored session that is not in memory is resumed under its id. -/
theorem createOrGetById_resumed {record : SessionRecord}
    (hl : (g.sessions u).lookup id = none)
    (hr : SessionStore.getSession (g.store.getD []) id = some record) :
    ∃ h, (createOrGetById g u id).2 = .ok h ∧
      ∃ x ∈ (createOrGetById g u id).1.heap[h]?, x.session_id = id := by
  have hl' : ((g.withUser u).sessions u).lookup id = none := by
    rw [sessions_withUser]
    exact hl
  have hr' : SessionStore.getSession ((g.withUser u).store.getD []) id = some record := hr
  refine ⟨(g.withUser u).heap.length, ?_, (g.withUser u).resumed u record, ?_, getSession_id hr⟩
  · simp only [createOrGetById, hl', hr']
  · simp only [createOrGetById, hl', hr']
    simp [GatewayState.insertSession]

/-- A text is not ambiguous if all that start with it are one. -/
theorem not_ambiguous_of_all_eq (id : String)
    (h : ∀ id' ∈ g.idsOf u, startsWith wanted id' = true → id' = id) : ¬g.Ambiguous u wanted := by
  rintro ⟨-, id₁, h₁, id₂, h₂, hne, hs₁, hs₂⟩
  exact hne ((h id₁ h₁ hs₁).trans (h id₂ h₂ hs₂).symm)

/-- An id in memory is one of the user's. -/
theorem mem_idsOf_of_lookup {h : ℕ} (hl : (g.sessions u).lookup id = some h) : id ∈ g.idsOf u := by
  refine mem_append_left _ (AList.mem_keys.mp ?_)
  rw [← AList.lookup_isSome, hl]
  rfl

/-- The session with the text as its id is the right answer, unless the text is ambiguous. -/
theorem unambiguous_exact {answer : GatewayState × Except String ℕ} {h : ℕ} {x : LiveSession}
    (hanswer : answer.2 = .ok h) (hx : x ∈ answer.1.heap[h]?) (hid : x.session_id = wanted) :
    Unambiguous g u wanted answer ↔ ¬g.Ambiguous u wanted := by
  constructor
  · rintro ⟨-, hreport⟩ hamb
    obtain ⟨n, hn⟩ := hreport hamb
    rw [hanswer] at hn
    cases hn
  · intro hnot
    refine ⟨fun h' hok => ?_, fun hamb => absurd hamb hnot⟩
    obtain rfl := Except.ok.inj (hanswer.symm.trans hok)
    exact ⟨x, hx, .inl hid⟩

/-- A session that starts with the text is the right answer if no other does. -/
theorem unambiguous_single {answer : GatewayState × Except String ℕ} {h : ℕ} {x : LiveSession}
    (hanswer : answer.2 = .ok h) (hx : x ∈ answer.1.heap[h]?) (hne : x.session_id ≠ wanted)
    (hmem : x.session_id ∈ g.idsOf u) (hstart : startsWith wanted x.session_id = true) :
    Unambiguous g u wanted answer ↔
      ∀ id ∈ g.idsOf u, startsWith wanted id = true → id = x.session_id := by
  constructor
  · rintro ⟨honly, -⟩
    obtain ⟨y, hy, hyonly⟩ := honly h hanswer
    rw [Option.mem_unique hy hx] at hyonly
    exact (hyonly.resolve_left hne).2.2
  · intro honly
    refine ⟨fun h' hok => ?_, fun hamb => absurd hamb (not_ambiguous_of_all_eq _ honly)⟩
    obtain rfl := Except.ok.inj (hanswer.symm.trans hok)
    exact ⟨x, hx, .inr ⟨hmem, hstart, honly⟩⟩

/-- Nothing is the right answer, unless the text is ambiguous. -/
theorem unambiguous_notFound :
    Unambiguous g u wanted (g, notFound wanted u) ↔ ¬g.Ambiguous u wanted := by
  constructor
  · rintro ⟨-, hreport⟩ hamb
    obtain ⟨n, hn⟩ := hreport hamb
    exact notFound_ne_ambiguous n hn
  · intro hnot
    exact ⟨nofun, fun hamb => absurd hamb hnot⟩

/-- To report an ambiguity hands out nothing. -/
theorem unambiguous_ambiguous (n : ℕ) : Unambiguous g u wanted (g, ambiguous wanted n) :=
  ⟨nofun, fun _ => ⟨n, rfl⟩⟩

/-- The search in memory, when it finds one session that starts with the text: it goes wrong where
the store has another one. -/
theorem searchMemory_iff (hplaced : g.Placed u) {entry : (_ : String) × ℕ}
    (hl : (g.sessions u).lookup wanted = none)
    (hone : startingWith wanted (g.sessions u) = [entry]) :
    Unambiguous g u wanted (g, .ok entry.2) ↔
      ∀ r ∈ g.storedMatches u wanted, r.session_id = entry.1 := by
  have hentry : entry ∈ startingWith wanted (g.sessions u) := by simp [hone]
  have hlookup : (g.sessions u).lookup entry.1 = some entry.2 :=
    AList.mem_lookup_iff.mpr (mem_startingWith.mp hentry).1
  obtain ⟨x, hx, hid⟩ := hplaced entry.1 entry.2 hlookup
  have hne : x.session_id ≠ wanted := by
    intro heq
    rw [← hid, heq, hl] at hlookup
    cases hlookup
  rw [unambiguous_single rfl hx hne (hid ▸ mem_idsOf_of_lookup hlookup)
    (hid ▸ (mem_startingWith.mp hentry).2), hid]
  constructor
  · intro honly r hr
    obtain ⟨hmem, hstart⟩ := mem_idsOf_startsWith.mpr (.inr ⟨r, hr, rfl⟩)
    exact honly _ hmem hstart
  · intro hstored id hmem hstart
    obtain ⟨entry', hentry', rfl⟩ | ⟨r, hr, rfl⟩ := mem_idsOf_startsWith.mp ⟨hmem, hstart⟩
    · rw [hone, mem_singleton] at hentry'
      rw [hentry']
    · exact hstored r hr

/-- The search in the store, when nothing in memory starts with the text: it goes wrong only where
it comes upon a record with the whole text as its id. -/
theorem searchStore_iff (hnone : startingWith wanted (g.sessions u) = []) :
    Unambiguous g u wanted (searchStore g u wanted) ↔
      ((SessionStore.getSession (g.store.getD []) wanted).isSome → ¬g.Ambiguous u wanted) := by
  -- only the store has sessions that start with the text
  have hstored : ∀ id ∈ g.idsOf u, startsWith wanted id = true →
      ∃ r ∈ g.storedMatches u wanted, r.session_id = id := by
    intro id hmem hstart
    obtain ⟨entry, hentry, -⟩ | hr := mem_idsOf_startsWith.mp ⟨hmem, hstart⟩
    · rw [hnone] at hentry
      cases hentry
    · exact hr
  unfold searchStore
  cases hr : SessionStore.getSession (g.store.getD []) wanted with
  | some record =>
    have hid := getSession_id hr
    simp only [hid]
    obtain ⟨h, hanswer, x, hx, hxid⟩ :=
      createOrGetById_resumed (lookup_eq_none_of_startingWith hnone (startsWith_self wanted)) hr
    rw [unambiguous_exact hanswer hx hxid]
    simp
  | none =>
    refine iff_of_true ?_ (by simp)
    simp only
    split
    · next record hone =>
      have hmatch : record ∈ g.storedMatches u wanted := by simp [hone]
      obtain ⟨hlisted, hstart⟩ := mem_storedMatches.mp hmatch
      obtain ⟨record', hr'⟩ := getSession_of_mem (mem_filter.mp hlisted).1
      obtain ⟨h, hanswer, x, hx, hxid⟩ :=
        createOrGetById_resumed (lookup_eq_none_of_startingWith hnone hstart) hr'
      have hne : x.session_id ≠ wanted := by
        intro heq
        rw [← heq, hxid, hr'] at hr
        cases hr
      have hmem := mem_idsOf_startsWith.mpr (.inr ⟨record, hmatch, rfl⟩)
      rw [unambiguous_single hanswer hx hne (hxid ▸ hmem.1) (hxid ▸ hstart), hxid]
      intro id hid hidstart
      obtain ⟨r, hr, rfl⟩ := hstored id hid hidstart
      rw [hone, mem_singleton] at hr
      rw [hr]
    · next hempty =>
      rw [unambiguous_notFound]
      rintro ⟨-, id, hid, -, -, -, hstart, -⟩
      obtain ⟨r, hr, -⟩ := hstored id hid hstart
      rw [hempty] at hr
      cases hr
    · exact unambiguous_ambiguous _

/-- The searches one after the other resolve a text without ambiguity exactly where they agree with
one search of all the user's sessions. -/
theorem prefix_resolution_iff (hplaced : g.Placed u) :
    Unambiguous g u wanted (resolveSessionByPrefix g u wanted) ↔ SearchesAgree g u wanted := by
  unfold resolveSessionByPrefix
  cases hu : g.users u with
  | none =>
    have hempty : startingWith wanted (g.sessions u) = [] := by
      simp [GatewayState.sessions, hu, startingWith]
    simp only [unambiguous_notFound]
    constructor
    · intro hnot
      refine ⟨fun _ => hnot, fun entry _ hone => ?_, fun _ _ => hnot⟩
      rw [hempty] at hone
      cases hone
    · intro hagree
      exact hagree.unknown hu
  | some sessions =>
    have hsessions : g.sessions u = sessions := by simp [GatewayState.sessions, hu]
    have hknown : g.users u = none → ¬g.Ambiguous u wanted := by simp [hu]
    simp only [← hsessions]
    split
    · next handle hl =>
      -- the text is an id in memory
      obtain ⟨x, hx, hid⟩ := hplaced wanted handle hl
      have hnot : ¬g.Ambiguous u wanted := fun hamb => hamb.1 (mem_idsOf_of_lookup hl)
      refine iff_of_true ((unambiguous_exact rfl hx hid).mpr hnot) ⟨hknown, ?_, fun _ _ => hnot⟩
      intro entry hnone
      rw [hl] at hnone
      cases hnone
    · next hl =>
      split
      · next entry hone =>
        -- the text is the start of one id in memory
        rw [searchMemory_iff hplaced hl hone]
        constructor
        · intro hstored
          refine ⟨hknown, fun entry' _ hone' r hr => ?_, fun hnone => ?_⟩
          · rw [hone] at hone'
            obtain rfl := (List.cons.inj hone').1
            exact hstored r hr
          · rw [hone] at hnone
            cases hnone
        · intro hagree
          exact hagree.memory entry hl hone
      · next hnone =>
        rw [searchStore_iff hnone]
        constructor
        · intro hstore
          refine ⟨hknown, fun entry _ hone => ?_, fun _ => hstore⟩
          rw [hnone] at hone
          cases hone
        · intro hagree
          exact hagree.store hnone
      · next hone hnone =>
        -- several ids in memory start with the text
        refine iff_of_true (unambiguous_ambiguous _) ⟨hknown, ?_, ?_⟩
        · exact fun entry _ hone' => absurd hone' (hone entry)
        · exact fun hnone' => absurd hnone' hnone

end

/-! ## States that are reached -/

/-- In every state that requests reach, the entries of the maps are under their ids. -/
theorem placed_of_reach {ι : Type} [DecidableEq ι] {config : GatewayConfig}
    {s : Threads ι GatewayState RequestPhase} (h : (gatewaySystem ι config).Reach s) (u : String) :
    s.shared.Placed u := by
  have hident : ∀ u id k, (s.shared.sessions u).lookup id = some k →
      ∃ x ∈ s.shared.identAt k, x.1 = id := by
    apply h.invariant
    · intro s hs u id k hl
      exact absurd (.inl ⟨id, hl⟩) (not_known_init hs u k)
    · rintro s ⟨i, act⟩ t hs - hst u id k hl
      obtain ⟨phase', -, -, he⟩ := gateway_step hst
      obtain hl | ⟨rfl, -, sess, rfl, hins⟩ := lookup_origin he hl
      · obtain ⟨x, hx, hid⟩ := hs u id k hl
        exact ⟨x, identAt_step he hx, hid⟩
      · refine ⟨sess.ident, ?_, rfl⟩
        rw [hins.shared]
        exact identAt_insertSession
  intro id k hl
  obtain ⟨x, hx, hid⟩ := hident u id k hl
  obtain ⟨y, hy, rfl⟩ := Option.map_eq_some_iff.mp hx
  exact ⟨y, hy, hid⟩

/-- A gateway that starts on a store with one session of Alice's. -/
def restartedGateway (session_id : String) : Threads (Fin 1) GatewayState RequestPhase :=
  ⟨{ store := some [{ session_id, user_id := "alice" }] }, fun _ => .idle⟩

/-- Alice creates one more session. -/
def createOneMore : List (Fin 1 × GatewayAction) :=
  requestSteps 0 (.hello "alice" none true) "0198-a1" 5

/-- The new session is the only one that starts with `0198-a`, and is handed out. -/
theorem only_match_resolved : ∃ s, (gatewaySystem (Fin 1) {}).Reach s ∧
    (resolveSessionByPrefix s.shared "alice" "0198-a").2 = .ok 0 ∧
    Unambiguous s.shared "alice" "0198-a" (resolveSessionByPrefix s.shared "alice" "0198-a") := by
  obtain ⟨s, hs, hanswer, hknown, hmemory, hstored⟩ : ∃ s ∈ exec (fun _ _ => True)
      (threadStep (gatewayStep {})) (restartedGateway "0197-b2") createOneMore,
      (resolveSessionByPrefix s.shared "alice" "0198-a").2 = .ok 0 ∧
        s.shared.users "alice" ≠ none ∧
        startingWith "0198-a" (s.shared.sessions "alice") = [⟨"0198-a1", 0⟩] ∧
        ∀ r ∈ s.shared.storedMatches "alice" "0198-a", r.session_id = "0198-a1" := by
    decide
  have hreach : (gatewaySystem (Fin 1) {}).Reach s :=
    reachWithin_exec (.init ⟨rfl, rfl, fun _ => rfl⟩) hs
  refine ⟨s, hreach, hanswer, (prefix_resolution_iff (placed_of_reach hreach "alice")).mpr ?_⟩
  refine ⟨fun hunknown => absurd hunknown hknown, fun entry _ hone => ?_, fun hnone => ?_⟩
  · rw [hmemory] at hone
    obtain rfl := (List.cons.inj hone).1
    exact hstored
  · rw [hmemory] at hnone
    cases hnone

/-- The new session is handed out for `0198-a`, although a stored one starts with it as well. -/
theorem stored_match_overlooked : ∃ s, (gatewaySystem (Fin 1) {}).Reach s ∧
    (resolveSessionByPrefix s.shared "alice" "0198-a").2 = .ok 0 ∧
    s.shared.idsOf "alice" = ["0198-a1", "0198-a2", "0198-a1"] ∧
    ¬Unambiguous s.shared "alice" "0198-a" (resolveSessionByPrefix s.shared "alice" "0198-a") := by
  obtain ⟨s, hs, hanswer, hids⟩ : ∃ s ∈ exec (fun _ _ => True)
      (threadStep (gatewayStep {})) (restartedGateway "0198-a2") createOneMore,
      (resolveSessionByPrefix s.shared "alice" "0198-a").2 = .ok 0 ∧
        s.shared.idsOf "alice" = ["0198-a1", "0198-a2", "0198-a1"] := by
    decide
  refine ⟨s, reachWithin_exec (.init ⟨rfl, rfl, fun _ => rfl⟩) hs, hanswer, hids, ?_⟩
  rintro ⟨-, hreport⟩
  have hamb : s.shared.Ambiguous "alice" "0198-a" := by
    refine ⟨?_, "0198-a1", ?_, "0198-a2", ?_, ?_⟩
    all_goals
      try rw [hids]
      decide
  obtain ⟨n, hn⟩ := hreport hamb
  rw [hanswer] at hn
  cases hn

end Oxydra
