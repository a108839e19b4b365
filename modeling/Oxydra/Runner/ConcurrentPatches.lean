import Oxydra.Library.Interleaving
import Oxydra.Runner.ConfigFileCalls

/-!
# Concurrent patches of a configuration file

Any number of requests patch one file, in any interleaving of their steps: the file is read and the
patch prepared, the backup is made, the new content is put in place, and the stale backups are
removed. No lock is held from one step to the next, so another request can put its content in place
between the read and the write.

`patches_serialisable` is about the runs in which that does not happen: the file is as it would be
if the requests had been handled one after the other.
-/

namespace Oxydra

open Option Function List Toml Lts Effect

/-- A request to patch the file, and its readings of the clock. -/
structure PatchRequest where
  pid : ℕ
  type : ConfigType
  validate : Datum → Except String Unit
  payload : Value
  now : PatchTimes

/-- Where a request is, with the file as it has read it. -/
inductive PatchPhase where
  | requested
  | prepared (file : ConfigFile) (prepared : PreparedPatch)
  | backedUp (file : ConfigFile) (prepared : PreparedPatch) (backup : Option FilePath)
  | written (backup : Option FilePath)
  | answered (result : Except ErrorResponse (Option FilePath))

/-- A request and where it is. -/
structure PatchThread where
  request : PatchRequest
  phase : PatchPhase := .requested

section System

variable (toml : TomlCrate) (path : FilePath)

/-- The files and the request after a computation, which ends the request if it fails. -/
def PatchThread.follow {α : Type} (thread : PatchThread) (message : String → String)
    (next : α → PatchPhase) : EStateM.Result String ConfigFiles α → ConfigFiles × PatchThread
  | .ok a files => (files, { thread with phase := next a })
  | .error error files =>
    (files, { thread with phase := .answered (.error (configWriteFailed (message error))) })

/-- The next step of a request: what `prepare_patch` does, or one of the three things that
`persist_patch` does if a field has changed. -/
def patchStep (files : ConfigFiles) (thread : PatchThread) (_ : Unit) :
    Option (ConfigFiles × PatchThread) :=
  let request := thread.request
  let host := FileHost.reliable request.pid
  match thread.phase with
  | .requested =>
    match preparePatchOf host path toml request.type request.validate request.payload files with
    | .ok prepared files' =>
      if prepared.changed_fields = [] then
        some (files', { thread with phase := .answered (.ok none) })
      else some (files', { thread with phase := .prepared (configFileOf files path) prepared })
    | .error error files' => some (files', { thread with phase := .answered (.error error) })
  | .prepared file prepared =>
    some (thread.follow (s!"failed to create backup for `{path.display}`: {·}")
      (.backedUp file prepared)
      (backupExisting host request.now.backup path prepared.file_exists files))
  | .backedUp _ prepared backup =>
    some (thread.follow (s!"failed to write config `{path.display}`: {·}")
      (fun _ => .written backup)
      (writeOrRestore host request.now.write path prepared.rendered_toml backup files))
  | .written backup =>
    some (thread.follow (s!"failed to prune backups for `{path.display}`: {·}")
      (fun _ => .answered (.ok backup)) (pruneIfBackedUp host path backup files))
  | .answered _ => none

/-- All interleavings of requests, from these files. -/
def patchSystem {ι : Type*} [DecidableEq ι] (initial : ConfigFiles) :
    System (Threads ι ConfigFiles PatchThread) (ι × Unit) :=
  interleave (fun s => s.shared = initial ∧ ∀ i, (s.threads i).phase = .requested)
    (patchStep toml path)

/-- The condition on a step: a request that writes finds the file as it has read it. -/
def Unchanged {ι : Type*} (s : Threads ι ConfigFiles PatchThread) (l : ι × Unit) : Prop :=
  match (s.threads l.1).phase with
  | .backedUp file _ _ => configFileOf s.shared path = file
  | _ => True

/-! ## One request after the other -/

/-- The files after a request that is handled alone. -/
def handled (files : ConfigFiles) (request : PatchRequest) : ConfigFiles :=
  match patchConfigFile (.reliable request.pid) path request.now toml request.type request.validate
    request.payload files with
  | .ok _ files' => files'
  | .error _ files' => files'

/-- The files after requests that are handled in this order. -/
def handledInOrder (requests : List PatchRequest) (files : ConfigFiles) : ConfigFiles :=
  requests.foldl (handled toml path) files

/-- The bytes that a request leaves of a file with these. -/
def patchedBytes (request : PatchRequest) (files : ConfigFiles) : Option ByteArray :=
  match preparePatch toml request.type request.validate path.display (configFileOf files path)
    request.payload with
  | .ok prepared =>
    if prepared.changed_fields = [] then files.lookup path
    else some prepared.rendered_toml.toUTF8
  | .error _ => files.lookup path

variable {toml path}

theorem lookup_handled (files : ConfigFiles) (request : PatchRequest) :
    (handled toml path files request).lookup path = patchedBytes toml path request files := by
  have hhost := FileHost.reliable_reliable request.pid
  have hprepare := hhost.preparePatchOf_run toml request.type request.validate path
    request.payload files
  unfold handled patchConfigFile patchedBytes
  cases hprepared : preparePatch toml request.type request.validate path.display
      (configFileOf files path) request.payload with
  | error error =>
    rw [hprepared] at hprepare
    rw [bind_error hprepare]
  | ok prepared =>
    rw [hprepared] at hprepare
    rw [bind_ok hprepare]
    have hexists := file_exists_of_preparePatch hprepared
    dsimp only
    by_cases hchanged : prepared.changed_fields = []
    · rw [persistPatch_unchanged hchanged, if_pos hchanged]
    rw [if_neg hchanged]
    cases hbefore : files.lookup path with
    | none =>
      rw [configFileOf, hbefore] at hexists
      rw [hhost.persistPatch_new hchanged hexists, lookup_written, if_pos rfl]
    | some before =>
      rw [configFileOf, hbefore] at hexists
      obtain ⟨files', hrun, hfiles'⟩ :=
        hhost.persistPatch_existing hchanged hexists request.now hbefore rfl
      rw [hrun, hfiles', if_neg fun h => not_isBackupOf_self path h.1, lookup_written, if_pos rfl]

/-- What a request leaves of the file depends on the file only. -/
theorem patchedBytes_congr {files files' : ConfigFiles}
    (h : files.lookup path = files'.lookup path) (request : PatchRequest) :
    patchedBytes toml path request files = patchedBytes toml path request files' := by
  unfold patchedBytes configFileOf
  rw [h]

/-! ## The steps -/

/-- What the next step of a request is, by what it is up to. -/
inductive PatchMove (toml : TomlCrate) (path : FilePath) (files : ConfigFiles) :
    PatchThread → ConfigFiles → PatchThread → Prop
  | failed {thread : PatchThread} {files' : ConfigFiles} {error : ErrorResponse} :
    PatchMove toml path files thread files' ⟨thread.request, .answered (.error error)⟩
  | unchanged {request : PatchRequest} {prepared : PreparedPatch}
      (hprepared : preparePatch toml request.type request.validate path.display
        (configFileOf files path) request.payload = .ok prepared)
      (hchanged : prepared.changed_fields = []) :
    PatchMove toml path files ⟨request, .requested⟩ files ⟨request, .answered (.ok none)⟩
  | prepared {request : PatchRequest} {prepared : PreparedPatch}
      (hprepared : preparePatch toml request.type request.validate path.display
        (configFileOf files path) request.payload = .ok prepared)
      (hchanged : prepared.changed_fields ≠ []) :
    PatchMove toml path files ⟨request, .requested⟩ files
      ⟨request, .prepared (configFileOf files path) prepared⟩
  | backedUp {request : PatchRequest} {file : ConfigFile} {prepared : PreparedPatch}
      {backup : Option FilePath} {files' : ConfigFiles}
      (hfiles' : files'.lookup path = files.lookup path) :
    PatchMove toml path files ⟨request, .prepared file prepared⟩ files'
      ⟨request, .backedUp file prepared backup⟩
  | written {request : PatchRequest} {file : ConfigFile} {prepared : PreparedPatch}
      {backup : Option FilePath} {files' : ConfigFiles}
      (hfiles' : files'.lookup path = some prepared.rendered_toml.toUTF8) :
    PatchMove toml path files ⟨request, .backedUp file prepared backup⟩ files'
      ⟨request, .written backup⟩
  | pruned {request : PatchRequest} {backup : Option FilePath} {files' : ConfigFiles}
      (hfiles' : files'.lookup path = files.lookup path) :
    PatchMove toml path files ⟨request, .written backup⟩ files' ⟨request, .answered (.ok backup)⟩

theorem patchMove_of_step {files files' : ConfigFiles} {thread thread' : PatchThread}
    (h : patchStep toml path files thread () = some (files', thread')) :
    PatchMove toml path files thread files' thread' := by
  obtain ⟨request, phase⟩ := thread
  have hhost := FileHost.reliable_reliable request.pid
  unfold patchStep at h
  cases phase with
  | requested =>
    dsimp only at h
    rw [hhost.preparePatchOf_run toml request.type request.validate path request.payload] at h
    cases hprepared : preparePatch toml request.type request.validate path.display
        (configFileOf files path) request.payload with
    | error error =>
      rw [hprepared] at h
      cases h
      exact .failed
    | ok prepared =>
      rw [hprepared] at h
      dsimp only at h
      split_ifs at h with hchanged
      · cases h
        exact .unchanged hprepared hchanged
      · cases h
        exact .prepared hprepared hchanged
  | prepared file prepared =>
    dsimp only at h
    obtain ⟨backup, files₁, hrun, hlookup⟩ | ⟨-, error, hrun⟩ :=
      hhost.backupExisting_run request.now.backup path prepared.file_exists
    · rw [hrun] at h
      cases h
      exact .backedUp hlookup
    · rw [hrun] at h
      cases h
      exact .failed
  | backedUp file prepared backup =>
    have hrun := hhost.writeOrRestore_run request.now.write path prepared.rendered_toml backup files
    dsimp only at h
    rw [hrun] at h
    cases h
    refine .written ?_
    rw [lookup_written, if_pos rfl]
  | written backup =>
    obtain ⟨files₁, hrun, hlookup⟩ := hhost.pruneIfBackedUp_run path backup
    dsimp only at h
    rw [hrun] at h
    cases h
    exact .pruned hlookup
  | answered result => cases h

/-! ## Runs -/

/-- A request has taken effect. -/
def PatchThread.Applied (thread : PatchThread) : Prop :=
  match thread.phase with
  | .written _ | .answered _ => True
  | _ => False

/-- A request that has a patch prepared has it from the file that it has read. -/
def PatchThread.Prepared (toml : TomlCrate) (path : FilePath) (thread : PatchThread) : Prop :=
  match thread.phase with
  | .prepared file prepared | .backedUp file prepared _ =>
    preparePatch toml thread.request.type thread.request.validate path.display file
      thread.request.payload = .ok prepared ∧ prepared.changed_fields ≠ []
  | _ => True

variable {ι : Type*} [DecidableEq ι]

/-- The requests that have taken effect have done so in this order. -/
structure Serialised (toml : TomlCrate) (path : FilePath) (initial : ConfigFiles)
    (s : Threads ι ConfigFiles PatchThread) (order : List ι) : Prop where
  nodup : order.Nodup
  applied : ∀ i, i ∈ order ↔ (s.threads i).Applied
  prepared : ∀ i, (s.threads i).Prepared toml path
  lookup : s.shared.lookup path =
    (handledInOrder toml path (order.map fun i => (s.threads i).request) initial).lookup path

/-- Some request was answered with an error. -/
def SomeFailed (s : Threads ι ConfigFiles PatchThread) : Prop :=
  ∃ i error, (s.threads i).phase = .answered (.error error)

section

variable {initial files' : ConfigFiles} {s t : Threads ι ConfigFiles PatchThread} {order : List ι}
  {i : ι} {thread' : PatchThread}

theorem request_update (hrequest : thread'.request = (s.threads i).request) (j : ι) :
    (update s.threads i thread' j).request = (s.threads j).request := by
  by_cases hj : j = i
  · rw [hj, update_self, hrequest]
  · rw [update_of_ne hj]

/-- What holds of every request holds after a step, if it holds of the one that has taken it. -/
theorem forall_update {P : PatchThread → Prop} (h : ∀ j, P (s.threads j)) (h' : P thread')
    (j : ι) :
    P (update s.threads i thread' j) := by
  by_cases hj : j = i
  · rw [hj, update_self]
    exact h'
  · rw [update_of_ne hj]
    exact h j

/-- A step that leaves the file does not change the order. -/
theorem Serialised.keep (h : Serialised toml path initial s order)
    (hrequest : thread'.request = (s.threads i).request)
    (happlied : thread'.Applied ↔ (s.threads i).Applied) (hprepared : thread'.Prepared toml path)
    (hfiles' : files'.lookup path = s.shared.lookup path) :
    Serialised toml path initial ⟨files', update s.threads i thread'⟩ order where
  nodup := h.nodup
  applied j := by
    show j ∈ order ↔ (update s.threads i thread' j).Applied
    rw [h.applied]
    by_cases hj : j = i
    · rw [hj, update_self, happlied]
    · rw [update_of_ne hj]
  prepared := forall_update h.prepared hprepared
  lookup := by
    rw [hfiles', h.lookup]
    simp only [request_update hrequest]

/-- A step in which a request takes effect puts it at the end of the order. -/
theorem Serialised.apply (h : Serialised toml path initial s order)
    (hrequest : thread'.request = (s.threads i).request) (hbefore : ¬(s.threads i).Applied)
    (happlied : thread'.Applied) (hprepared : thread'.Prepared toml path)
    (hfiles' : files'.lookup path = patchedBytes toml path (s.threads i).request s.shared) :
    Serialised toml path initial ⟨files', update s.threads i thread'⟩ (order ++ [i]) where
  nodup := by
    have hnot : i ∉ order := fun hmem => hbefore ((h.applied i).mp hmem)
    exact nodup_append.mpr ⟨h.nodup, nodup_singleton i, by
      intro a ha b hb
      rw [mem_singleton.mp hb]
      exact fun heq => hnot (heq ▸ ha)⟩
  applied j := by
    show j ∈ order ++ [i] ↔ (update s.threads i thread' j).Applied
    rw [mem_append, mem_singleton, h.applied]
    by_cases hj : j = i
    · rw [hj, update_self]
      exact iff_of_true (.inr rfl) happlied
    · rw [update_of_ne hj]
      exact or_iff_left hj
  prepared := forall_update h.prepared hprepared
  lookup := by
    simp only [request_update hrequest]
    rw [hfiles', map_append, handledInOrder, foldl_append]
    show _ = (handled toml path _ (s.threads i).request).lookup path
    rw [lookup_handled]
    exact patchedBytes_congr h.lookup _

/-- A step that finds the file as the request has read it keeps that there is an order, unless the
request fails. -/
theorem serialised_step (h : Serialised toml path initial s order)
    (hunchanged : Unchanged path s (i, ()))
    (hstep : patchStep toml path s.shared (s.threads i) () = some (files', thread')) :
    SomeFailed ⟨files', update s.threads i thread'⟩ ∨
      ∃ order, Serialised toml path initial ⟨files', update s.threads i thread'⟩
        order := by
  have hmove := patchMove_of_step hstep
  have hprepared := h.prepared i
  unfold Unchanged at hunchanged
  generalize hthread : s.threads i = thread at hmove hprepared hunchanged
  cases hmove with
  | @failed _ _ error =>
    refine .inl ⟨i, error, ?_⟩
    show (update s.threads i _ i).phase = _
    rw [update_self]
  | @unchanged request prepared hprepare hchanged =>
    refine .inr ⟨_, h.apply ?_ ?_ trivial trivial ?_⟩
    · rw [hthread]
    · rw [hthread]
      exact not_false
    · rw [hthread, patchedBytes, hprepare]
      exact (if_pos hchanged).symm
  | @prepared request prepared hprepare hchanged =>
    refine .inr ⟨order, h.keep ?_ ?_ ⟨hprepare, hchanged⟩ rfl⟩
    · rw [hthread]
    · rw [hthread]
      exact Iff.rfl
  | @backedUp request file prepared backup _ hfiles' =>
    refine .inr ⟨order, h.keep ?_ ?_ hprepared hfiles'⟩
    · rw [hthread]
    · rw [hthread]
      exact Iff.rfl
  | @written request file prepared backup _ hfiles' =>
    refine .inr ⟨_, h.apply ?_ ?_ trivial trivial ?_⟩
    · rw [hthread]
    · rw [hthread]
      exact not_false
    · -- the file is the one that the patch was prepared for
      obtain ⟨hprepare, hchanged⟩ := hprepared
      rw [hthread, patchedBytes, show configFileOf s.shared path = file from hunchanged, hprepare,
        hfiles']
      exact (if_neg hchanged).symm
  | @pruned request backup _ hfiles' =>
    refine .inr ⟨order, h.keep ?_ ?_ trivial hfiles'⟩
    · rw [hthread]
    · rw [hthread]
      exact Iff.rfl

/-- An error that was answered stays. -/
theorem someFailed_step (h : SomeFailed s)
    (hstep : patchStep toml path s.shared (s.threads i) () = some (files', thread')) :
    SomeFailed ⟨files', update s.threads i thread'⟩ := by
  obtain ⟨j, error, hj⟩ := h
  refine ⟨j, error, ?_⟩
  have hne : j ≠ i := by
    rintro rfl
    unfold patchStep at hstep
    rw [hj] at hstep
    cases hstep
  show (update s.threads i thread' j).phase = _
  rw [update_of_ne hne, hj]

/-- In every run in which each request that writes finds the file as it has read it, and in which
all requests are answered with success, the file is as it is after these requests one after the
other, in some order. -/
theorem patches_serialisable (h : (patchSystem toml path initial).ReachWithin (Unchanged path) s)
    (hdone : ∀ i, ∃ backup, (s.threads i).phase = .answered (.ok backup)) :
    ∃ order : List ι, order.Nodup ∧ (∀ i, i ∈ order) ∧
      s.shared.lookup path = (handledInOrder toml path
        (order.map fun i => (s.threads i).request) initial).lookup path := by
  have hinv : SomeFailed s ∨ ∃ order, Serialised toml path initial s order := by
    refine @System.ReachWithin.invariant _ _ _ _ (fun s => SomeFailed s ∨ ∃ order,
      Serialised toml path initial s order) ?_ ?_ _ h
    · rintro s ⟨hshared, hphases⟩
      refine .inr ⟨[], nodup_nil, fun i => ?_, fun i => ?_, ?_⟩
      · unfold PatchThread.Applied
        rw [hphases i]
        simp
      · unfold PatchThread.Prepared
        rw [hphases i]
        trivial
      · rw [hshared]
        rfl
    · rintro s ⟨i, ⟨⟩⟩ t hinv hunchanged hstep
      obtain ⟨files', thread', hmove, rfl⟩ := interleave_step hstep
      obtain hfailed | ⟨order, hserial⟩ := hinv
      · exact .inl (someFailed_step hfailed hmove)
      · exact serialised_step hserial hunchanged hmove
  obtain ⟨i, error, hfailed⟩ | ⟨order, hserial⟩ := hinv
  · obtain ⟨backup, hok⟩ := hdone i
    cases hfailed.symm.trans hok
  · refine ⟨order, hserial.nodup, fun i => (hserial.applied i).mpr ?_, hserial.lookup⟩
    obtain ⟨backup, hok⟩ := hdone i
    unfold PatchThread.Applied
    rw [hok]
    trivial

end

/-! ## Requests that overlap -/

section

variable {files : ConfigFiles} {request : PatchRequest} {file : ConfigFile}
  {prepared : PreparedPatch} {backup : Option FilePath}

theorem step_prepared
    (h : preparePatch toml request.type request.validate path.display (configFileOf files path)
      request.payload = .ok prepared) (hchanged : prepared.changed_fields ≠ []) :
    patchStep toml path files ⟨request, .requested⟩ () =
      some (files, ⟨request, .prepared (configFileOf files path) prepared⟩) := by
  have hhost := FileHost.reliable_reliable request.pid
  unfold patchStep
  dsimp only
  rw [hhost.preparePatchOf_run toml request.type request.validate path request.payload, h]
  exact if_neg hchanged

variable (toml path files request file prepared backup)

variable {path files} in
theorem step_backedUp (h : path ∈ files) :
    ∃ backup files', patchStep toml path files ⟨request, .prepared file prepared⟩ () =
        some (files', ⟨request, .backedUp file prepared backup⟩) ∧
      files'.lookup path = files.lookup path := by
  have hhost := FileHost.reliable_reliable request.pid
  obtain ⟨backup, files', hrun, hlookup⟩ | ⟨hnot, -⟩ :=
    hhost.backupExisting_run request.now.backup path prepared.file_exists
  · refine ⟨backup, files', ?_, hlookup⟩
    unfold patchStep
    dsimp only
    rw [hrun]
    rfl
  · exact absurd h hnot

theorem step_written :
    ∃ files', patchStep toml path files ⟨request, .backedUp file prepared backup⟩ () =
        some (files', ⟨request, .written backup⟩) ∧
      files'.lookup path = some prepared.rendered_toml.toUTF8 := by
  have hhost := FileHost.reliable_reliable request.pid
  have hrun := hhost.writeOrRestore_run request.now.write path prepared.rendered_toml backup files
  refine ⟨written (temporaryPath (.reliable request.pid) request.now.write path) path
    prepared.rendered_toml files, ?_, ?_⟩
  · unfold patchStep
    dsimp only
    rw [hrun]
    rfl
  · rw [lookup_written, if_pos rfl]

theorem step_pruned :
    ∃ files', patchStep toml path files ⟨request, .written backup⟩ () =
        some (files', ⟨request, .answered (.ok backup)⟩) ∧
      files'.lookup path = files.lookup path := by
  have hhost := FileHost.reliable_reliable request.pid
  obtain ⟨files', hrun, hlookup⟩ := hhost.pruneIfBackedUp_run path backup
  refine ⟨files', ?_, hlookup⟩
  unfold patchStep
  dsimp only
  rw [hrun]
  rfl

end

section

variable {ι : Type*} [DecidableEq ι] {initial : ConfigFiles}
  {guard : Threads ι ConfigFiles PatchThread → ι × Unit → Prop}
  {s : Threads ι ConfigFiles PatchThread}

/-- A step of a request whose state is known. -/
theorem reach_step {i : ι} {thread thread' : PatchThread} {files' : ConfigFiles}
    (h : (patchSystem toml path initial).ReachWithin guard s) (hthread : s.threads i = thread)
    (hguard : guard s (i, ()))
    (hstep : patchStep toml path s.shared thread () = some (files', thread')) :
    (patchSystem toml path initial).ReachWithin guard
      ⟨files', update s.threads i thread'⟩ := by
  subst hthread
  exact .step h hguard (interleave_of_step hstep)

/-- A request that takes its steps with no other in between finds the file as it has read it, and
leaves what it has prepared. -/
theorem reach_alone {i : ι} {request : PatchRequest} {prepared : PreparedPatch}
    (h : (patchSystem toml path initial).ReachWithin (Unchanged path) s)
    (hthread : s.threads i = ⟨request, .requested⟩) (hfile : path ∈ s.shared)
    (hprepared : preparePatch toml request.type request.validate path.display
      (configFileOf s.shared path) request.payload = .ok prepared)
    (hchanged : prepared.changed_fields ≠ []) :
    ∃ files backup, (patchSystem toml path initial).ReachWithin (Unchanged path)
        ⟨files, update s.threads i ⟨request, .answered (.ok backup)⟩⟩ ∧
      files.lookup path = some prepared.rendered_toml.toUTF8 := by
  have hself : ∀ {files : ConfigFiles} {threads : ι → PatchThread} {thread : PatchThread},
      (⟨files, update threads i thread⟩ : Threads ι ConfigFiles PatchThread).threads i =
        thread := update_self ..
  have hguard : ∀ {files : ConfigFiles} {threads : ι → PatchThread} {thread : PatchThread},
      (∀ file prepared backup, thread.phase = .backedUp file prepared backup →
        configFileOf files path = file) →
      Unchanged path ⟨files, update threads i thread⟩ (i, ()) := by
    intro files threads thread hfile
    unfold Unchanged
    rw [hself]
    split
    · next hphase => exact hfile _ _ _ hphase
    · trivial
  have hstart : Unchanged path s (i, ()) := by
    unfold Unchanged
    rw [hthread]
    trivial
  have hread := reach_step h hthread hstart (step_prepared hprepared hchanged)
  obtain ⟨backup, files₁, hstep, hlookup₁⟩ := step_backedUp toml request
    (configFileOf s.shared path) prepared hfile
  have hback := reach_step hread hself (hguard (by simp)) hstep
  obtain ⟨files₂, hstep, hwritten⟩ := step_written toml path files₁ request
    (configFileOf s.shared path) prepared backup
  -- the backup has left the file alone
  have hunchanged : configFileOf files₁ path = configFileOf s.shared path := by
    rw [configFileOf, hlookup₁, configFileOf]
  have hwrite := reach_step hback hself
    (hguard fun _ _ _ hphase => by cases hphase; exact hunchanged) hstep
  obtain ⟨files₃, hstep, hlookup₃⟩ := step_pruned toml path files₂ request backup
  have hprune := reach_step hwrite hself (hguard (by simp)) hstep
  simp only [update_idem] at hprune
  exact ⟨files₃, backup, hprune, hlookup₃.trans hwritten⟩

end

/-- Of two requests that have both read the file before one of them writes it, the later one leaves
the file as if there had been no other. -/
theorem overlapping_requests {initial : ConfigFiles} {requests : Bool → PatchRequest}
    {prepared : Bool → PreparedPatch} (hfile : path ∈ initial)
    (hprepared : ∀ i, preparePatch toml (requests i).type (requests i).validate path.display
      (configFileOf initial path) (requests i).payload = .ok (prepared i))
    (hchanged : ∀ i, (prepared i).changed_fields ≠ []) :
    ∃ s, (patchSystem toml path initial).Reach s ∧
      (∀ i, (s.threads i).request = requests i ∧
        ∃ backup, (s.threads i).phase = .answered (.ok backup)) ∧
      s.shared.lookup path = some (prepared true).rendered_toml.toUTF8 := by
  have hstart : (patchSystem toml path initial).Reach
      ⟨initial, fun i => ⟨requests i, .requested⟩⟩ := .init ⟨rfl, fun _ => rfl⟩
  -- both read
  have hread₀ := reach_step hstart (i := false) rfl trivial
    (step_prepared (hprepared false) (hchanged false))
  have hread₁ := reach_step hread₀ (i := true) rfl trivial
    (step_prepared (hprepared true) (hchanged true))
  -- both make their backups
  obtain ⟨backup₀, files₁, hstep, hlookup⟩ := step_backedUp toml (requests false)
    (configFileOf initial path) (prepared false) hfile
  have hback₀ := reach_step hread₁ (i := false) rfl trivial hstep
  have hfile₁ : path ∈ files₁ := by
    rw [← AList.lookup_isSome, hlookup, AList.lookup_isSome]
    exact hfile
  obtain ⟨backup₁, files₂, hstep, -⟩ := step_backedUp toml (requests true)
    (configFileOf initial path) (prepared true) hfile₁
  have hback₁ := reach_step hback₀ (i := true) rfl trivial hstep
  -- both write
  obtain ⟨files₃, hstep, -⟩ := step_written toml path files₂ (requests false)
    (configFileOf initial path) (prepared false) backup₀
  have hwrite₀ := reach_step hback₁ (i := false) rfl trivial hstep
  obtain ⟨files₄, hstep, hwritten⟩ := step_written toml path files₃ (requests true)
    (configFileOf initial path) (prepared true) backup₁
  have hwrite₁ := reach_step hwrite₀ (i := true) rfl trivial hstep
  -- both remove the stale backups
  obtain ⟨files₅, hstep, hlookup₅⟩ := step_pruned toml path files₄ (requests false) backup₀
  have hprune₀ := reach_step hwrite₁ (i := false) rfl trivial hstep
  obtain ⟨files₆, hstep, hlookup₆⟩ := step_pruned toml path files₅ (requests true) backup₁
  have hprune₁ := reach_step hprune₀ (i := true) rfl trivial hstep
  refine ⟨_, hprune₁, fun i => ?_, ?_⟩
  · cases i with
    | false => exact ⟨rfl, backup₀, rfl⟩
    | true => exact ⟨rfl, backup₁, rfl⟩
  · exact (hlookup₆.trans hlookup₅).trans hwritten

end System

section Examples

def rootText : String := "workspace_root = \"work\"\n"
def tierText : String := "default_tier = \"process\"\n"

/-- What `toml_edit` reads and prints where these fields are set in an empty file. -/
def rootTierToml : TomlCrate where
  parse text :=
    if text = "" then .ok []
    else if text = rootText then .ok [("workspace_root", .string "work")]
    else if text = tierText then .ok [("default_tier", .string "process")]
    else if text = rootText ++ tierText then
      .ok [("default_tier", .string "process"), ("workspace_root", .string "work")]
    else .error "not read here"
  pretty _ := .error "not printed here"
  edited _ table :=
    (if (table.lookup "workspace_root").isSome then rootText else "") ++
      (if (table.lookup "default_tier").isSome then tierText else "")
  coercions := ⟨fun _ _ => none, fun _ _ => none⟩
  mismatch _ _ := "not read here"

def serverConfigPath : FilePath := ⟨"/etc/oxydra", "runner.toml"⟩

/-- An empty file. -/
def emptyConfig : ConfigFiles := AList.singleton serverConfigPath "".toUTF8

/-- A patch of the one field, and one of the other. -/
def rootTierPatch (tier : Bool) : Value :=
  if tier then .object [("default_tier", .string "process")]
  else .object [("workspace_root", .string "work")]

/-- Their requests. -/
def rootTierRequest (tier : Bool) : PatchRequest where
  pid := 42
  type := runnerGlobalConfig
  validate _ := .ok ()
  payload := rootTierPatch tier
  now := ⟨0, 0⟩

/-- What is prepared of a text. -/
def preparedText (text : String) (tier : Bool) : Option (String × Bool) :=
  (preparePatch rootTierToml runnerGlobalConfig (fun _ => .ok ()) serverConfigPath.display
    (some (.ok text)) (rootTierPatch tier)).toOption.map fun prepared =>
      (prepared.rendered_toml, prepared.changed_fields.isEmpty)

theorem preparedText_eq {text rendered : String} {tier : Bool}
    (h : preparedText text tier = some (rendered, false)) :
    ∃ prepared, preparePatch rootTierToml (rootTierRequest tier).type
        (rootTierRequest tier).validate serverConfigPath.display (some (.ok text))
        (rootTierRequest tier).payload = .ok prepared ∧
      prepared.changed_fields ≠ [] ∧ prepared.rendered_toml = rendered := by
  obtain ⟨prepared, hprepared, heq⟩ := Option.map_eq_some_iff.mp h
  obtain ⟨hrendered, hchanged⟩ := Prod.mk.inj heq
  refine ⟨prepared, mem_toOption.mp hprepared, ?_, hrendered⟩
  rw [Ne, ← List.isEmpty_iff, hchanged]
  decide

/-- A file with a text is found with it. -/
theorem configFileOf_toUTF8 {files : ConfigFiles} {path : FilePath} {text : String}
    (h : files.lookup path = some text.toUTF8) : configFileOf files path = some (.ok text) := by
  rw [configFileOf, h, Option.map_some, fromUTF8?_toUTF8]

/-- A request that is handled alone leaves what it has prepared. -/
theorem lookup_handled_text {files : ConfigFiles} {text : String} (rendered : String) (tier : Bool)
    (h : files.lookup serverConfigPath = some text.toUTF8)
    (hprepared : preparedText text tier = some (rendered, false)) :
    (handled rootTierToml serverConfigPath files (rootTierRequest tier)).lookup serverConfigPath =
      some rendered.toUTF8 := by
  obtain ⟨prepared, hprepare, hchanged, hrendered⟩ := preparedText_eq hprepared
  rw [lookup_handled, patchedBytes, configFileOf_toUTF8 h, hprepare, ← hrendered]
  exact if_neg hchanged

/-- Both orders of the two requests set both fields. -/
theorem lookup_handledInOrder {order : List Bool} (hnodup : order.Nodup) (hall : ∀ i, i ∈ order) :
    (handledInOrder rootTierToml serverConfigPath (order.map rootTierRequest) emptyConfig).lookup
      serverConfigPath = some (rootText ++ tierText).toUTF8 := by
  have hperm : order.Perm [false, true] := by
    rw [perm_ext_iff_of_nodup hnodup (by decide)]
    intro i
    cases i <;> simp [hall]
  have horder : order = [false, true] ∨ order = [true, false] := by
    obtain ⟨a, b, rfl⟩ := length_eq_two.mp hperm.length_eq
    cases a <;> cases b <;> simp at hnodup ⊢
  have hempty : emptyConfig.lookup serverConfigPath = some "".toUTF8 := rfl
  obtain rfl | rfl := horder
  · have hfirst := lookup_handled_text rootText false hempty (by decide +kernel)
    exact lookup_handled_text _ _ hfirst (by decide +kernel)
  · have hfirst := lookup_handled_text tierText true hempty (by decide +kernel)
    exact lookup_handled_text _ _ hfirst (by decide +kernel)

/-- Two requests, one after the other: each finds the file as it has read it, and both fields are
set. -/
theorem two_requests_serialised :
    ∃ s : Threads Bool ConfigFiles PatchThread,
      (patchSystem rootTierToml serverConfigPath emptyConfig).ReachWithin
        (Unchanged serverConfigPath) s ∧
      s.shared.lookup serverConfigPath = some (rootText ++ tierText).toUTF8 ∧
      ∃ order : List Bool, order.Nodup ∧ (∀ i, i ∈ order) ∧ s.shared.lookup serverConfigPath =
        (handledInOrder rootTierToml serverConfigPath
          (order.map fun i => (s.threads i).request) emptyConfig).lookup serverConfigPath := by
  have hempty : emptyConfig.lookup serverConfigPath = some "".toUTF8 := rfl
  obtain ⟨prepared, hprepared, hchanged, hrendered⟩ :=
    preparedText_eq (by decide +kernel : preparedText "" false = some (rootText, false))
  have hstart : (patchSystem rootTierToml serverConfigPath emptyConfig).ReachWithin
      (Unchanged serverConfigPath) ⟨emptyConfig, fun i => ⟨rootTierRequest i, .requested⟩⟩ :=
    .init ⟨rfl, fun _ => rfl⟩
  obtain ⟨files₁, backup₁, hfirst, hlookup₁⟩ := reach_alone hstart (i := false) rfl
    (AList.lookup_isSome.mp rfl) (configFileOf_toUTF8 hempty ▸ hprepared) hchanged
  rw [hrendered] at hlookup₁
  -- the second request reads what the first has written
  obtain ⟨prepared, hprepared, hchanged, hrendered⟩ := preparedText_eq
    (by decide +kernel : preparedText rootText true = some (rootText ++ tierText, false))
  obtain ⟨files₂, backup₂, hsecond, hlookup₂⟩ := reach_alone hfirst (i := true) rfl
    (AList.lookup_isSome.mp (by rw [hlookup₁]; rfl)) (configFileOf_toUTF8 hlookup₁ ▸ hprepared)
    hchanged
  refine ⟨_, hsecond, hrendered ▸ hlookup₂, patches_serialisable hsecond fun i => ?_⟩
  cases i with
  | false => exact ⟨backup₁, rfl⟩
  | true => exact ⟨backup₂, rfl⟩

/-- Two requests that overlap: both are answered with success, and one field is not set. -/
theorem overlapping_requests_lose_field :
    ∃ s, (patchSystem rootTierToml serverConfigPath emptyConfig).Reach s ∧
      (∀ i, ∃ backup, (s.threads i).phase = .answered (.ok backup)) ∧
      ¬∃ order : List Bool, order.Nodup ∧ (∀ i, i ∈ order) ∧
        s.shared.lookup serverConfigPath = (handledInOrder rootTierToml serverConfigPath
          (order.map fun i => (s.threads i).request) emptyConfig).lookup serverConfigPath := by
  have hfile : serverConfigPath ∈ emptyConfig := AList.lookup_isSome.mp rfl
  have hfound : configFileOf emptyConfig serverConfigPath = some (.ok "") :=
    configFileOf_toUTF8 rfl
  have hprepared : ∀ tier, ∃ prepared, preparePatch rootTierToml (rootTierRequest tier).type
      (rootTierRequest tier).validate serverConfigPath.display
      (configFileOf emptyConfig serverConfigPath) (rootTierRequest tier).payload = .ok prepared ∧
      prepared.changed_fields ≠ [] ∧
      prepared.rendered_toml = if tier then tierText else rootText := by
    intro tier
    rw [hfound]
    exact preparedText_eq (by cases tier <;> decide +kernel)
  choose prepared hprepared hchanged hrendered using hprepared
  obtain ⟨s, hreach, hdone, hlookup⟩ := overlapping_requests hfile hprepared hchanged
  refine ⟨s, hreach, fun i => (hdone i).2, ?_⟩
  rintro ⟨order, hnodup, hall, hserial⟩
  have hrequests : (fun i => (s.threads i).request) = rootTierRequest :=
    funext fun i => (hdone i).1
  rw [hrequests, lookup_handledInOrder hnodup hall, hlookup, hrendered] at hserial
  have htext := congrArg (Option.bind · String.fromUTF8?) hserial
  simp only [Option.bind_some, fromUTF8?_toUTF8] at htext
  exact absurd htext (by decide)

end Examples

end Oxydra
