import Oxydra.Library.Lts
import Oxydra.Runner.UserIsolation

/-!
# Shutting down

`shutdown` and `shutdown_async` of the handles of a launch in `crates/runner/src/lib.rs`, and the
answer of the control plane to a shutdown request. A launch has a runtime guest, perhaps a sidecar,
and perhaps a virtual machine in which its containers run. The handle of a guest is taken before the
guest is stopped, so an attempt that fails does not leave it for the next one; the handle of a
virtual machine stays.

`reported_stopped` is what holds of every run in which no attempt leaves a guest running without its
handle.
-/

namespace Oxydra

open Bool Option Lts

/-! ## Guests -/

/-- `RunnerError`, where a guest or its machine is not stopped. -/
inductive GuestError where
  | guestLifecycle (action : String) (role : RunnerGuestRole) (program source : String)
  | asyncRuntimeInit (source : String)
  | dockerConnect (endpoint message : String)
  | dockerOperation (endpoint operation target message : String)
  | sandboxApiTransport (operation socket_path message : String)
  | sandboxApiStatus (operation : String) (status : ℕ) (body : String)
  deriving DecidableEq, Repr

/-- The text of a `RunnerError`. -/
def GuestError.display : GuestError → String
  | .guestLifecycle action role program source =>
    s!"failed to {action} `{role.asLabel}` guest `{program}`: {source}"
  | .asyncRuntimeInit source => s!"failed to initialize async runtime: {source}"
  | .dockerConnect endpoint message => s!"docker connection to `{endpoint}` failed: {message}"
  | .dockerOperation endpoint operation target message =>
    s!"docker operation `{operation}` for `{target}` on `{endpoint}` failed: {message}"
  | .sandboxApiTransport operation socket_path message =>
    s!"sandbox API `{operation}` transport failure on `{socket_path}`: {message}"
  | .sandboxApiStatus operation status body =>
    s!"sandbox API `{operation}` returned {status} with body `{body}`"

/-- `RunnerGuestLifecycle`, where a container is in the virtual machine of its launch if its
endpoint is the socket of the machine. -/
inductive RunnerGuestLifecycle where
  | process
  | dockerContainer (container_name : String)
  | simulated
  deriving DecidableEq, Repr

structure RunnerGuestHandle where
  role : RunnerGuestRole
  program : String
  pid : Option ℕ
  lifecycle : RunnerGuestLifecycle
  deriving DecidableEq, Repr

/-- A guest: the handle of the runner, whether it is in the virtual machine of the launch, and
whether it runs. -/
structure Guest where
  handle : RunnerGuestHandle
  in_vm : Bool
  running : Bool
  deriving DecidableEq, Repr

/-- Whether a shutdown blocks, with a runtime of its own for each call of Docker, or is awaited. -/
inductive ShutdownMode where
  | blocking
  | awaited
  deriving DecidableEq, Repr

/-- What fails when a guest is stopped. -/
structure GuestFaults where
  check_status : Option String := none
  terminate : Option String := none
  wait : Option String := none
  runtime_init : Option String := none
  docker_client : Option GuestError := none
  stop_container : Bool := false
  remove_container : Option GuestError := none
  deriving DecidableEq, Repr

/-- A step that fails, if it does. -/
def failing {ε : Type} : Option ε → Except ε Unit
  | some error => .error error
  | none => .ok ()

/-- `run_async`, which an awaited call does without. -/
def runAsync (mode : ShutdownMode) (runtime_init : Option String) : Except GuestError Unit :=
  match mode with
  | .blocking => failing (runtime_init.map .asyncRuntimeInit)
  | .awaited => .ok ()

/-- `shutdown_docker_container`, with whether the container runs before it and after it. -/
def shutdownDockerContainer (mode : ShutdownMode) (faults : GuestFaults) (running : Bool) :
    Except GuestError Unit × Bool :=
  match runAsync mode faults.runtime_init >>= fun _ => failing faults.docker_client with
  | .error error => (.error error, running)
  | .ok _ =>
    -- the result of `stop_container` is ignored
    let running := running && faults.stop_container
    match faults.remove_container with
    | some error => (.error error, running)
    | none => (.ok (), false)

/-- A container that does not run is not made to run. -/
theorem shutdownDockerContainer_of_stopped (mode : ShutdownMode) (faults : GuestFaults) :
    (shutdownDockerContainer mode faults false).2 = false := by
  unfold shutdownDockerContainer
  split
  · rfl
  · cases faults.remove_container <;> rfl

namespace Guest

/-- `RunnerGuestHandle::shutdown` and `shutdown_async`. -/
def shutdown (mode : ShutdownMode) (faults : GuestFaults) (guest : Guest) :
    Except GuestError Unit × Guest :=
  let { handle, in_vm, running } := guest
  -- the handle is taken before anything is tried with it
  let taken := { handle with lifecycle := .simulated }
  let stopped := { taken with pid := none }
  let failed (action : String) (source : String) : Except GuestError Unit :=
    .error (.guestLifecycle action handle.role handle.program source)
  match handle.lifecycle with
  | .process =>
    match faults.check_status with
    | some source => (failed "check_status" source, ⟨taken, in_vm, running⟩)
    | none =>
      if running then
        match faults.terminate with
        | some source => (failed "terminate" source, ⟨taken, in_vm, running⟩)
        | none =>
          match faults.wait with
          | some source => (failed "wait" source, ⟨taken, in_vm, false⟩)
          | none => (.ok (), ⟨stopped, in_vm, false⟩)
      else (.ok (), ⟨stopped, in_vm, running⟩)
  | .dockerContainer _ =>
    match shutdownDockerContainer mode faults running with
    | (.error error, running) => (.error error, ⟨taken, in_vm, running⟩)
    | (.ok _, running) => (.ok (), ⟨stopped, in_vm, running⟩)
  | .simulated => (.ok (), ⟨stopped, in_vm, running⟩)

/-- Nothing of what fails leaves the guest running, if the runner still has its handle: its status
can be checked and it can be killed, or its container can be stopped or removed. -/
def Stops (mode : ShutdownMode) (faults : GuestFaults) (guest : Guest) : Prop :=
  guest.running = true →
    match guest.handle.lifecycle with
    | .process => faults.check_status = none ∧ faults.terminate = none
    | .dockerContainer _ =>
      (mode = .blocking → faults.runtime_init = none) ∧ faults.docker_client = none ∧
        (faults.stop_container = false ∨ faults.remove_container = none)
    | .simulated => True

/-- A guest of which the runner has no handle. -/
def Released (guest : Guest) : Prop := guest.handle.lifecycle = .simulated

variable {mode : ShutdownMode} {faults : GuestFaults} {guest : Guest}

/-- An attempt takes the handle, and leaves the guest where it is. -/
theorem shutdown_released (mode : ShutdownMode) (faults : GuestFaults) (guest : Guest) :
    (guest.shutdown mode faults).2.Released ∧
      (guest.shutdown mode faults).2.in_vm = guest.in_vm := by
  obtain ⟨⟨role, program, pid, lifecycle⟩, in_vm, running⟩ := guest
  unfold shutdown Released
  cases lifecycle with
  | process =>
    dsimp only
    repeat' split
    all_goals exact ⟨rfl, rfl⟩
  | dockerContainer container_name =>
    dsimp only
    split <;> exact ⟨rfl, rfl⟩
  | simulated => exact ⟨rfl, rfl⟩

/-- A guest that runs after an attempt ran before it. -/
theorem running_of_shutdown (h : (guest.shutdown mode faults).2.running = true) :
    guest.running = true := by
  obtain ⟨⟨role, program, pid, lifecycle⟩, in_vm, running⟩ := guest
  cases running with
  | true => rfl
  | false =>
    exfalso
    unfold shutdown at h
    cases lifecycle with
    | process => cases hstatus : faults.check_status <;> simp [hstatus] at h
    | dockerContainer container_name =>
      have hstays := shutdownDockerContainer_of_stopped mode faults
      dsimp only at h
      split at h
      · next heq =>
        rw [heq] at hstays
        cases hstays.symm.trans h
      · next heq =>
        rw [heq] at hstays
        cases hstays.symm.trans h
    | simulated => simp at h

/-- An attempt that leaves nothing running stops a guest that the runner has the handle of. -/
theorem Stops.shutdown (h : guest.Stops mode faults)
    (hreleased : guest.Released → guest.running = false) :
    (guest.shutdown mode faults).2.running = false := by
  obtain ⟨⟨role, program, pid, lifecycle⟩, in_vm, running⟩ := guest
  cases running with
  | false => exact eq_false_iff.2 fun hrunning => by simpa using running_of_shutdown hrunning
  | true =>
    have hstops := h rfl
    cases lifecycle with
    | process =>
      obtain ⟨hstatus, hterminate⟩ := hstops
      unfold Guest.shutdown
      simp only [hstatus, hterminate, if_true]
      split <;> rfl
    | dockerContainer container_name =>
      obtain ⟨hruntime, hclient, hcontainer⟩ := hstops
      have hconnected : (runAsync mode faults.runtime_init >>= fun _ =>
          failing faults.docker_client) = .ok () := by
        rw [hclient]
        cases mode with
        | blocking => rw [hruntime rfl]; rfl
        | awaited => rfl
      unfold Guest.shutdown shutdownDockerContainer
      simp only [hconnected]
      cases hremove : faults.remove_container with
      | none => rfl
      | some error =>
        have hstop : faults.stop_container = false := hcontainer.resolve_right (by simp [hremove])
        simp [hstop]
    | simulated => exact absurd (hreleased rfl) (by simp)

end Guest

/-! ## Launches -/

inductive RunnerScopeHandle where
  | dockerSandboxVm (vm_name : String)
  | simulated
  deriving DecidableEq, Repr

/-- A virtual machine: the handle of the runner, and whether it runs. -/
@[ext] structure Scope where
  handle : RunnerScopeHandle
  running : Bool
  deriving DecidableEq, Repr

/-- What fails when the guests of a launch are stopped. -/
structure ShutdownFaults where
  sidecar : GuestFaults := {}
  runtime : GuestFaults := {}
  scope_runtime_init : Option String := none
  delete_vm : Option GuestError := none
  deriving DecidableEq, Repr

/-- `RunnerScopeHandle::shutdown` and `shutdown_async`: whether the machine was deleted, too. -/
def Scope.shutdown (mode : ShutdownMode) (faults : ShutdownFaults) (scope : Scope) :
    Except GuestError Unit × Scope × Bool :=
  match scope.handle with
  | .dockerSandboxVm _ =>
    match runAsync mode faults.scope_runtime_init >>= fun _ => failing faults.delete_vm with
    | .error error => (.error error, scope, false)
    | .ok _ => (.ok (), { scope with running := false }, true)
  | .simulated => (.ok (), scope, false)

/-- An attempt keeps the handle of a virtual machine. -/
theorem Scope.shutdown_handle (scope : Scope) (mode : ShutdownMode) (faults : ShutdownFaults) :
    (scope.shutdown mode faults).2.1.handle = scope.handle := by
  unfold Scope.shutdown
  split
  · split <;> rfl
  · rfl

/-- A machine that was simulated is left as it is. -/
theorem Scope.shutdown_simulated {mode : ShutdownMode} {faults : ShutdownFaults} {scope : Scope}
    (h : scope.handle = .simulated) : scope.shutdown mode faults = (.ok (), scope, false) := by
  unfold Scope.shutdown
  rw [h]

/-- `RunnerLaunchHandle`. -/
structure Launch where
  tier : SandboxTier
  runtime : Guest
  sidecar : Option Guest
  scope : Option Scope
  deriving DecidableEq, Repr

/-- A guest when the virtual machine of its launch was deleted, or not. -/
def Guest.withoutVm (deleted : Bool) (guest : Guest) : Guest :=
  { guest with running := guest.running && !(deleted && guest.in_vm) }

/-- The first of some errors. -/
def firstError : List (Except GuestError Unit) → Except GuestError Unit
  | [] => .ok ()
  | .error error :: _ => .error error
  | .ok _ :: rest => firstError rest

/-- There is no error if each of the results is none. -/
theorem firstError_ok_iff : ∀ {results : List (Except GuestError Unit)},
    firstError results = .ok () ↔ ∀ result ∈ results, result = .ok ()
  | [] => by simp [firstError]
  | .error error :: rest => by simp [firstError]
  | .ok _ :: rest => by simp [firstError, firstError_ok_iff]

namespace Launch

/-- The guests of a launch. -/
def guests (launch : Launch) : List Guest := launch.sidecar.toList ++ [launch.runtime]

/-- `RunnerLaunchHandle::shutdown` and `shutdown_async`. -/
def shutdown (mode : ShutdownMode) (faults : ShutdownFaults) (launch : Launch) :
    Except GuestError Unit × Launch :=
  let sidecar := launch.sidecar.map (·.shutdown mode faults.sidecar)
  let runtime := launch.runtime.shutdown mode faults.runtime
  let scope := launch.scope.map (·.shutdown mode faults)
  let deleted := scope.any (·.2.2)
  (firstError ((sidecar.map (·.1)).toList ++ [runtime.1] ++ (scope.map (·.1)).toList),
    { launch with
      sidecar := sidecar.map (·.2.withoutVm deleted)
      runtime := runtime.2.withoutVm deleted
      scope := scope.map (·.2.1) })

/-- Nothing of a launch runs. -/
def Stopped (launch : Launch) : Prop :=
  (∀ guest ∈ launch.guests, guest.running = false) ∧ ∀ scope ∈ launch.scope, scope.running = false

/-- A guest runs that neither the runner has the handle of nor is in a virtual machine. -/
def Lost (guest : Guest) : Prop :=
  guest.Released ∧ guest.in_vm = false ∧ guest.running = true

/-- No guest is lost, and the runner has the handle of the virtual machine of those that are in
one. -/
structure Sound (launch : Launch) : Prop where
  kept : ∀ guest ∈ launch.guests, ¬Lost guest
  placed : ∀ guest ∈ launch.guests, guest.in_vm = true →
    ∃ vm_name running, launch.scope = some ⟨.dockerSandboxVm vm_name, running⟩
  machine : ∀ scope ∈ launch.scope, scope.handle = .simulated → scope.running = false

/-- An attempt leaves no guest running outside the virtual machine. -/
def Stops (mode : ShutdownMode) (faults : ShutdownFaults) (launch : Launch) : Prop :=
  (∀ guest ∈ launch.sidecar, guest.in_vm = false → guest.Stops mode faults.sidecar) ∧
    (launch.runtime.in_vm = false → launch.runtime.Stops mode faults.runtime)

variable {mode : ShutdownMode} {faults : ShutdownFaults} {launch : Launch}

/-- What an attempt makes of a guest of the launch. -/
structure Attempted (mode : ShutdownMode) (faults : ShutdownFaults) (launch : Launch)
    (before after : Guest) (guest_faults : GuestFaults) (deleted : Bool) : Prop where
  before_mem : before ∈ launch.guests
  after_eq : after = (before.shutdown mode guest_faults).2.withoutVm deleted
  stops : launch.Stops mode faults → before.in_vm = false → before.Stops mode guest_faults
  ok : (launch.shutdown mode faults).1 = .ok () → ∀ vm_name running,
    launch.scope = some ⟨.dockerSandboxVm vm_name, running⟩ → deleted = true

/-- Where the virtual machine of a launch was there and no error is returned, it was deleted. -/
theorem deleted_of_ok {vm_name : String} {running : Bool}
    (hscope : launch.scope = some ⟨.dockerSandboxVm vm_name, running⟩)
    (hok : (launch.shutdown mode faults).1 = .ok ()) :
    Scope.shutdown mode faults ⟨.dockerSandboxVm vm_name, running⟩ =
      (.ok (), ⟨.dockerSandboxVm vm_name, false⟩, true) := by
  have hresult : (Scope.shutdown mode faults ⟨.dockerSandboxVm vm_name, running⟩).1 = .ok () := by
    refine firstError_ok_iff.1 hok _ ?_
    simp [hscope]
  unfold Scope.shutdown at hresult ⊢
  dsimp only at hresult ⊢
  cases hconnected : runAsync mode faults.scope_runtime_init >>= fun _ =>
      failing faults.delete_vm with
  | error error => simp [hconnected] at hresult
  | ok _ => rfl

/-- Each guest after an attempt is one of before. -/
theorem mem_guests_shutdown {guest : Guest} (h : guest ∈ (launch.shutdown mode faults).2.guests) :
    ∃ before guest_faults deleted,
      Attempted mode faults launch before guest guest_faults deleted := by
  have hdeleted : (launch.shutdown mode faults).1 = .ok () → ∀ vm_name running,
      launch.scope = some ⟨.dockerSandboxVm vm_name, running⟩ →
      (launch.scope.map (·.shutdown mode faults)).any (·.2.2) = true := by
    intro hok vm_name running hscope
    simp [hscope, deleted_of_ok hscope hok]
  obtain hsidecar | hruntime := List.mem_append.1 h
  · have hmem : guest ∈ (launch.shutdown mode faults).2.sidecar := by simpa using hsidecar
    obtain ⟨attempt, hattempt, rfl⟩ := map_eq_some_iff.1 hmem
    obtain ⟨before, hbefore, rfl⟩ := map_eq_some_iff.1 hattempt
    exact ⟨before, faults.sidecar, _, by simp [guests, hbefore], rfl,
      fun hstops => hstops.1 before hbefore, hdeleted⟩
  · obtain rfl := List.mem_singleton.1 hruntime
    exact ⟨launch.runtime, faults.runtime, _, by simp [guests], rfl, fun hstops => hstops.2,
      hdeleted⟩

/-- The handle of a guest is gone after an attempt, the guest stays where it is, and it runs only if
it ran after its own attempt. -/
theorem Attempted.after {before after : Guest} {guest_faults : GuestFaults} {deleted : Bool}
    (h : Attempted mode faults launch before after guest_faults deleted) :
    after.Released ∧ after.in_vm = before.in_vm ∧
      (after.running = true → (before.shutdown mode guest_faults).2.running = true) := by
  obtain ⟨hreleased, hin_vm⟩ := Guest.shutdown_released mode guest_faults before
  rw [h.after_eq]
  refine ⟨hreleased, hin_vm, fun hrunning => ?_⟩
  unfold Guest.withoutVm at hrunning
  exact (and_eq_true_iff.1 hrunning).1

/-- A guest that is not lost is not lost by an attempt that leaves none running. -/
theorem Attempted.not_lost {before after : Guest} {guest_faults : GuestFaults} {deleted : Bool}
    (h : Attempted mode faults launch before after guest_faults deleted) (hsound : launch.Sound)
    (hstops : launch.Stops mode faults) : ¬Lost after := by
  rintro ⟨-, hin_vm, hrunning⟩
  obtain ⟨-, hplace, hran⟩ := h.after
  rw [hplace] at hin_vm
  have hstopped := (h.stops hstops hin_vm).shutdown fun hreleased =>
    eq_false_iff.2 fun hbefore =>
      hsound.kept before h.before_mem ⟨hreleased, hin_vm, hbefore⟩
  rw [hran hrunning] at hstopped
  cases hstopped

/-- The virtual machine after an attempt. -/
theorem scope_shutdown {scope : Scope} (h : scope ∈ (launch.shutdown mode faults).2.scope) :
    ∃ before ∈ launch.scope, scope = (before.shutdown mode faults).2.1 := by
  obtain ⟨attempt, hattempt, rfl⟩ := map_eq_some_iff.1 h
  obtain ⟨before, hbefore, rfl⟩ := map_eq_some_iff.1 hattempt
  exact ⟨before, hbefore, rfl⟩

/-- An attempt that leaves no guest running leaves a sound launch. -/
theorem Sound.shutdown (h : launch.Sound) (hstops : launch.Stops mode faults) :
    (launch.shutdown mode faults).2.Sound where
  kept guest hguest := by
    obtain ⟨before, guest_faults, deleted, hattempted⟩ := mem_guests_shutdown hguest
    exact hattempted.not_lost h hstops
  placed guest hguest hin_vm := by
    obtain ⟨before, guest_faults, deleted, hattempted⟩ := mem_guests_shutdown hguest
    obtain ⟨-, hplace, -⟩ := hattempted.after
    obtain ⟨vm_name, running, hscope⟩ := h.placed before hattempted.before_mem (hplace ▸ hin_vm)
    let machine : Scope := ⟨.dockerSandboxVm vm_name, running⟩
    have hhandle := machine.shutdown_handle mode faults
    refine ⟨vm_name, (machine.shutdown mode faults).2.1.running, ?_⟩
    unfold Launch.shutdown
    simp only [hscope, map_some]
    exact congrArg some (Scope.ext hhandle rfl)
  machine scope hscope hsimulated := by
    obtain ⟨before, hbefore, rfl⟩ := scope_shutdown hscope
    rw [Scope.shutdown_handle] at hsimulated
    rw [Scope.shutdown_simulated hsimulated]
    exact h.machine before hbefore hsimulated

/-- An attempt that leaves no guest running and returns no error has stopped the launch. -/
theorem Sound.stopped (h : launch.Sound) (hstops : launch.Stops mode faults)
    (hok : (launch.shutdown mode faults).1 = .ok ()) :
    (launch.shutdown mode faults).2.Stopped := by
  refine ⟨fun guest hguest => ?_, fun scope hscope => ?_⟩
  · obtain ⟨before, guest_faults, deleted, hattempted⟩ := mem_guests_shutdown hguest
    obtain ⟨hreleased, hplace, -⟩ := hattempted.after
    cases hin_vm : before.in_vm with
    | false =>
      rw [hin_vm] at hplace
      exact eq_false_iff.2 fun hrunning =>
        hattempted.not_lost h hstops ⟨hreleased, hplace, hrunning⟩
    | true =>
      -- the guest was stopped with its virtual machine
      obtain ⟨vm_name, running, hscope⟩ := h.placed before hattempted.before_mem hin_vm
      have hdeleted := hattempted.ok hok vm_name running hscope
      have hin_vm' := (Guest.shutdown_released mode guest_faults before).2.trans hin_vm
      rw [hattempted.after_eq, Guest.withoutVm, hdeleted, hin_vm']
      simp
  · obtain ⟨before, hbefore, rfl⟩ := scope_shutdown hscope
    cases hhandle : before.handle with
    | dockerSandboxVm vm_name =>
      obtain ⟨handle, running⟩ := before
      obtain rfl : handle = .dockerSandboxVm vm_name := hhandle
      rw [deleted_of_ok hbefore hok]
    | simulated =>
      rw [Scope.shutdown_simulated hhandle]
      exact h.machine before hbefore hhandle

/-- Something of a launch stops by itself. -/
inductive Exit where
  | runtime
  | sidecar
  | scope
  deriving DecidableEq, Repr

/-- The launch after something of it stopped by itself, and with a virtual machine what is in it. -/
def exit (launch : Launch) : Exit → Launch
  | .runtime => { launch with runtime := { launch.runtime with running := false } }
  | .sidecar => { launch with sidecar := launch.sidecar.map ({ · with running := false }) }
  | .scope =>
    { launch with
      runtime := launch.runtime.withoutVm true
      sidecar := launch.sidecar.map (·.withoutVm true)
      scope := launch.scope.map ({ · with running := false }) }

/-- The handles of a launch are what they were, and nothing runs that did not. -/
structure Quieter (before after : Launch) : Prop where
  guest : ∀ guest ∈ after.guests, ∃ old ∈ before.guests, guest.handle = old.handle ∧
    guest.in_vm = old.in_vm ∧ (guest.running = true → old.running = true)
  scope : ∀ scope ∈ after.scope, ∃ old ∈ before.scope, scope.handle = old.handle ∧
    (scope.running = true → old.running = true)
  kept : ∀ old ∈ before.scope, ∃ running, after.scope = some ⟨old.handle, running⟩

/-- What stops by itself makes a launch quieter. -/
theorem quieter_exit (launch : Launch) (which : Exit) : Quieter launch (launch.exit which) := by
  constructor
  · intro guest hguest
    obtain hmem | hmem := List.mem_append.1 hguest
    · have hguest : (launch.exit which).sidecar = some guest := by simpa using hmem
      cases which with
      | runtime =>
        have hsame : launch.sidecar = some guest := hguest
        exact ⟨guest, by simp [guests, hsame], rfl, rfl, id⟩
      | sidecar =>
        obtain ⟨old, hold, rfl⟩ := map_eq_some_iff.1 hguest
        exact ⟨old, by simp [guests, hold], rfl, rfl, by simp⟩
      | scope =>
        obtain ⟨old, hold, rfl⟩ := map_eq_some_iff.1 hguest
        exact ⟨old, by simp [guests, hold], rfl, rfl, fun hrunning =>
          (and_eq_true_iff.1 hrunning).1⟩
    · obtain rfl := List.mem_singleton.1 hmem
      refine ⟨launch.runtime, by simp [guests], ?_⟩
      cases which with
      | runtime => exact ⟨rfl, rfl, by simp [Launch.exit]⟩
      | sidecar => exact ⟨rfl, rfl, id⟩
      | scope => exact ⟨rfl, rfl, fun hrunning => (and_eq_true_iff.1 hrunning).1⟩
  · intro scope hscope
    cases which with
    | runtime => exact ⟨scope, hscope, rfl, id⟩
    | sidecar => exact ⟨scope, hscope, rfl, id⟩
    | scope =>
      obtain ⟨old, hold, rfl⟩ := map_eq_some_iff.1 hscope
      exact ⟨old, hold, rfl, by simp⟩
  · intro old hold
    cases which with
    | runtime => exact ⟨old.running, hold⟩
    | sidecar => exact ⟨old.running, hold⟩
    | scope => exact ⟨false, by simp [Launch.exit, mem_def.1 hold]⟩

/-- A launch that is quieter has lost no guest. -/
theorem Sound.quieter {after : Launch} (h : launch.Sound) (hquieter : Quieter launch after) :
    after.Sound := by
  constructor
  · rintro guest hguest ⟨hreleased, hin_vm, hrunning⟩
    obtain ⟨old, hold, hhandle, hplace, hran⟩ := hquieter.guest guest hguest
    have hgone : old.Released := by
      unfold Guest.Released at hreleased ⊢
      rw [← hhandle, hreleased]
    exact h.kept old hold ⟨hgone, hplace ▸ hin_vm, hran hrunning⟩
  · intro guest hguest hin_vm
    obtain ⟨old, hold, -, hplace, -⟩ := hquieter.guest guest hguest
    obtain ⟨vm_name, running, hscope⟩ := h.placed old hold (hplace ▸ hin_vm)
    obtain ⟨running', hkept⟩ := hquieter.kept _ hscope
    exact ⟨vm_name, running', hkept⟩
  · intro scope hscope hsimulated
    obtain ⟨old, hold, hhandle, hran⟩ := hquieter.scope scope hscope
    have hstopped := h.machine old hold (hhandle ▸ hsimulated)
    exact eq_false_iff.2 fun hrunning => by simp [hran hrunning] at hstopped

/-- A launch that is quieter than one that is stopped is stopped. -/
theorem Stopped.quieter {after : Launch} (h : launch.Stopped) (hquieter : Quieter launch after) :
    after.Stopped := by
  refine ⟨fun guest hguest => ?_, fun scope hscope => ?_⟩
  · obtain ⟨old, hold, -, -, hran⟩ := hquieter.guest guest hguest
    exact eq_false_iff.2 fun hrunning => by simpa [h.1 old hold] using hran hrunning
  · obtain ⟨old, hold, -, hran⟩ := hquieter.scope scope hscope
    exact eq_false_iff.2 fun hrunning => by simpa [h.2 old hold] using hran hrunning

end Launch

/-! ## The control plane -/

inductive StartupDegradedReasonCode where
  | insecureProcessTier
  | processHardeningLimited
  | sidecarUnavailable
  | sidecarTransportUnsupported
  | sidecarEndpointInvalid
  | sidecarConnectionFailed
  | sidecarProtocolError
  | runtimeShutdown
  deriving DecidableEq, Repr

structure StartupStatusReport where
  sandbox_tier : SandboxTier
  sidecar_available : Bool
  shell_available : Bool
  browser_available : Bool
  degraded_reasons : List (StartupDegradedReasonCode × String)
  deriving DecidableEq, Repr

/-- `StartupStatusReport::push_reason`. -/
def StartupStatusReport.pushReason (report : StartupStatusReport)
    (code : StartupDegradedReasonCode) (detail : String) : StartupStatusReport :=
  if report.degraded_reasons.any (·.1 = code) then report
  else { report with degraded_reasons := report.degraded_reasons ++ [(code, detail)] }

structure RunnerStartup where
  user_id : String
  sandbox_tier : SandboxTier
  shell_available : Bool
  browser_available : Bool
  startup_status : StartupStatusReport
  launch : Launch
  warnings : List String := []
  log_dir : String := ""
  shutdown_complete : Bool := false
  deriving DecidableEq, Repr

inductive RunnerControlErrorCode where
  | invalidRequest
  | unknownUser
  | internal
  deriving DecidableEq, Repr

structure RunnerControlHealthStatus where
  user_id : String
  healthy : Bool
  sandbox_tier : SandboxTier
  startup_status : StartupStatusReport
  shell_available : Bool
  browser_available : Bool
  shutdown : Bool
  message : Option String
  log_dir : Option String
  runtime_pid : Option ℕ
  runtime_container_name : Option String
  deriving DecidableEq, Repr

inductive LogSource where
  | processFile
  | dockerApi
  deriving DecidableEq, Repr

structure RunnerLogEntry where
  timestamp : Option String
  source : LogSource
  role : String
  stream : String
  message : String
  deriving DecidableEq, Repr

structure RunnerControlLogsResponse where
  entries : List RunnerLogEntry
  truncated : Bool
  warnings : List String
  deriving DecidableEq, Repr

inductive RunnerControlResponse where
  | healthStatus (status : RunnerControlHealthStatus)
  | shutdownStatus (user_id : String) (shutdown already_stopped : Bool) (message : Option String)
  | logs (response : RunnerControlLogsResponse)
  | error (code : RunnerControlErrorCode) (message : String)
  deriving DecidableEq, Repr

namespace RunnerStartup

/-- `RunnerStartup::shutdown` and `shutdown_async`. -/
def shutdown (mode : ShutdownMode) (faults : ShutdownFaults) (startup : RunnerStartup) :
    Except GuestError Unit × RunnerStartup :=
  if startup.shutdown_complete then (.ok (), startup)
  else
    match startup.launch.shutdown mode faults with
    | (.error error, launch) => (.error error, { startup with launch })
    | (.ok _, launch) =>
      let startup_status :=
        { startup.startup_status with
          shell_available := false, browser_available := false, sidecar_available := false }
      (.ok (), { startup with
        launch
        shutdown_complete := true
        shell_available := false
        browser_available := false
        startup_status := startup_status.pushReason .runtimeShutdown "runtime is shut down" })

/-- `handle_control` and `handle_control_async`, of `RunnerControl::ShutdownUser`. -/
def shutdownUser (mode : ShutdownMode) (faults : ShutdownFaults) (user_id : String)
    (startup : RunnerStartup) : RunnerControlResponse × RunnerStartup :=
  if user_id ≠ startup.user_id then
    (.error .unknownUser (s!"shutdown request targeted unknown user `{user_id}`; active user is " ++
      s!"`{startup.user_id}`"), startup)
  else if startup.shutdown_complete then
    (.shutdownStatus user_id true true (some "user runtime already shut down"), startup)
  else
    match startup.shutdown mode faults with
    | (.ok _, startup) => (.shutdownStatus user_id true false (some "shutdown completed"), startup)
    | (.error error, startup) =>
      (.error .internal s!"failed to shut down user `{startup.user_id}`: {error.display}", startup)

end RunnerStartup

/-! ## Runs -/

/-- What happens to a startup. -/
inductive ShutdownStep where
  | call (mode : ShutdownMode) (faults : ShutdownFaults)
  | request (user_id : String) (mode : ShutdownMode) (faults : ShutdownFaults)
  | exit (which : Launch.Exit)
  deriving DecidableEq, Repr

/-- What comes of it. -/
inductive ShutdownAnswer where
  | returned (result : Except GuestError Unit)
  | responded (response : RunnerControlResponse)
  | nothing

/-- An answer says that the launch is shut down. -/
def ShutdownAnswer.Reports : ShutdownAnswer → Prop
  | .returned result => result = .ok ()
  | .responded (.shutdownStatus _ shutdown _ _) => shutdown = true
  | .responded _ => False
  | .nothing => False

/-- A step, with what comes of it. -/
def RunnerStartup.step (startup : RunnerStartup) : ShutdownStep → ShutdownAnswer × RunnerStartup
  | .call mode faults =>
    let (result, startup) := startup.shutdown mode faults
    (.returned result, startup)
  | .request user_id mode faults =>
    let (response, startup) := startup.shutdownUser mode faults user_id
    (.responded response, startup)
  | .exit which => (.nothing, { startup with launch := startup.launch.exit which })

/-- The attempt that a step makes to stop the launch, if it makes one. -/
def RunnerStartup.attempt (startup : RunnerStartup) :
    ShutdownStep → Option (ShutdownMode × ShutdownFaults)
  | .call mode faults => if startup.shutdown_complete then none else some (mode, faults)
  | .request user_id mode faults =>
    if user_id ≠ startup.user_id ∨ startup.shutdown_complete then none else some (mode, faults)
  | .exit _ => none

/-- A step leaves no guest running outside a virtual machine after it took its handle. -/
def RunnerStartup.LosesNone (startup : RunnerStartup) (step : ShutdownStep) : Prop :=
  ∀ attempt ∈ startup.attempt step, startup.launch.Stops attempt.1 attempt.2

/-- All runs of a launch, from its start. -/
def shutdownSystem : System RunnerStartup ShutdownStep where
  init startup := startup.shutdown_complete = false ∧ startup.launch.Sound
  step startup step after := (startup.step step).2 = after

namespace RunnerStartup

/-- No guest of the launch is lost, and a startup that is shut down has nothing that runs. -/
structure Sound (startup : RunnerStartup) : Prop where
  launch : startup.launch.Sound
  stopped : startup.shutdown_complete = true → startup.launch.Stopped

variable {startup : RunnerStartup} {mode : ShutdownMode} {faults : ShutdownFaults}

/-- A shutdown that leaves no guest running leaves a sound startup, which is shut down if no error
is returned. -/
theorem Sound.shutdown (h : startup.Sound)
    (hstops : startup.shutdown_complete = false → startup.launch.Stops mode faults) :
    (startup.shutdown mode faults).2.Sound ∧ ((startup.shutdown mode faults).1 = .ok () →
      (startup.shutdown mode faults).2.shutdown_complete = true) := by
  unfold RunnerStartup.shutdown
  cases hcomplete : startup.shutdown_complete with
  | true => exact ⟨h, fun _ => hcomplete⟩
  | false =>
    have hsound := h.launch.shutdown (hstops hcomplete)
    have hstopped := h.launch.stopped (hstops hcomplete)
    rw [if_neg Bool.false_ne_true]
    split
    · next error launch hattempt =>
      rw [hattempt] at hsound
      exact ⟨⟨hsound, fun hcomplete' => by simp at hcomplete'⟩, by simp⟩
    · next launch hattempt =>
      rw [hattempt] at hsound hstopped
      exact ⟨⟨hsound, fun _ => hstopped rfl⟩, fun _ => rfl⟩

/-- A request is refused, or is a call. -/
theorem shutdownUser_cases (mode : ShutdownMode) (faults : ShutdownFaults) (user_id : String)
    (startup : RunnerStartup) :
    (startup.attempt (.request user_id mode faults) = none ∧
      (startup.shutdownUser mode faults user_id).2 = startup ∧
      ((ShutdownAnswer.responded (startup.shutdownUser mode faults user_id).1).Reports →
        startup.shutdown_complete = true)) ∨
    (startup.attempt (.request user_id mode faults) = some (mode, faults) ∧
      startup.shutdown_complete = false ∧
      (startup.shutdownUser mode faults user_id).2 = (startup.shutdown mode faults).2 ∧
      ((ShutdownAnswer.responded (startup.shutdownUser mode faults user_id).1).Reports →
        (startup.shutdown mode faults).1 = .ok ())) := by
  have hattempt : startup.attempt (.request user_id mode faults) =
      if user_id ≠ startup.user_id ∨ startup.shutdown_complete then none
      else some (mode, faults) := rfl
  rw [hattempt]
  unfold shutdownUser
  by_cases huser : user_id ≠ startup.user_id
  · rw [if_pos huser, if_pos (.inl huser)]
    exact .inl ⟨rfl, rfl, False.elim⟩
  cases hcomplete : startup.shutdown_complete with
  | true =>
    rw [if_neg huser, if_pos rfl, if_pos (.inr rfl)]
    exact .inl ⟨rfl, rfl, fun _ => rfl⟩
  | false =>
    rw [if_neg huser, if_neg Bool.false_ne_true, if_neg (by simpa using huser)]
    refine .inr ⟨rfl, rfl, ?_⟩
    split
    · next heq => exact ⟨by rw [heq], fun _ => by rw [heq]⟩
    · next heq => exact ⟨by rw [heq], False.elim⟩

/-- A step that loses no guest leaves a sound startup, and one that is shut down if the answer says
so. -/
theorem Sound.step (h : startup.Sound) {step : ShutdownStep} (hstep : startup.LosesNone step) :
    (startup.step step).2.Sound ∧
      ((startup.step step).1.Reports → (startup.step step).2.shutdown_complete = true) := by
  cases step with
  | call mode faults =>
    refine h.shutdown fun hcomplete => hstep (mode, faults) ?_
    simp [attempt, hcomplete]
  | request user_id mode faults =>
    obtain ⟨-, hsame, hreports⟩ | ⟨hattempt, hcomplete, hafter, hreports⟩ :=
      shutdownUser_cases mode faults user_id startup
    · exact ⟨hsame.symm ▸ h, fun hreport => (congrArg _ hsame).trans (hreports hreport)⟩
    · have hstops : startup.shutdown_complete = false → startup.launch.Stops mode faults :=
        fun _ => hstep (mode, faults) hattempt
      obtain ⟨hsound, hdone⟩ := h.shutdown hstops
      exact ⟨hafter.symm ▸ hsound, fun hreport =>
        (congrArg _ hafter).trans (hdone (hreports hreport))⟩
  | exit which =>
    have hquieter := Launch.quieter_exit startup.launch which
    exact ⟨⟨h.launch.quieter hquieter, fun hcomplete => (h.stopped hcomplete).quieter hquieter⟩,
      False.elim⟩

/-- In every run whose attempts lose no guest, what is reported to be shut down is stopped. -/
theorem reported_stopped (h : shutdownSystem.ReachWithin LosesNone startup) {step : ShutdownStep}
    (hstep : startup.LosesNone step) (hreports : (startup.step step).1.Reports) :
    (startup.step step).2.launch.Stopped := by
  have hsound : startup.Sound := by
    have hinit : ∀ startup, shutdownSystem.init startup → startup.Sound :=
      fun startup hinit => ⟨hinit.2, fun hcomplete => by cases hinit.1.symm.trans hcomplete⟩
    refine h.invariant hinit ?_
    rintro startup step _ hsound hguard rfl
    exact (hsound.step hguard).1
  obtain ⟨hafter, hcomplete⟩ := hsound.step hstep
  exact hafter.stopped (hcomplete hreports)

/-- A guest of the process tier. -/
def processGuest : Guest :=
  ⟨⟨.oxydraVm, "oxydra-vm", some 4242, .process⟩, false, true⟩

/-- A startup of the process tier. -/
def processStartup : RunnerStartup where
  user_id := "alice"
  sandbox_tier := .process
  shell_available := false
  browser_available := false
  startup_status := ⟨.process, false, false, false, [(.insecureProcessTier, "no isolation")]⟩
  launch := ⟨.process, processGuest, none, none⟩

/-- A startup with micro-VMs: each guest is a process of its own. -/
def microVmStartup : RunnerStartup where
  user_id := "alice"
  sandbox_tier := .microVm
  shell_available := true
  browser_available := true
  startup_status := ⟨.microVm, true, true, true, []⟩
  launch :=
    { tier := .microVm
      runtime := ⟨⟨.oxydraVm, "firecracker", some 4242, .process⟩, false, true⟩
      sidecar := some ⟨⟨.shellVm, "firecracker", some 4243, .process⟩, false, true⟩
      scope := none }

theorem microVmStartup_sound : microVmStartup.launch.Sound := by
  constructor
  · simp [Launch.guests, Launch.Lost, Guest.Released, microVmStartup]
  · simp [Launch.guests, microVmStartup]
  · simp [microVmStartup]

/-- The sidecar is killed and cannot be waited for, so that the first request is answered with an
error. When the second one is answered, nothing runs. -/
theorem reported_stopped_retried :
    let failed := microVmStartup.step
      (.request "alice" .awaited { sidecar := { wait := some "interrupted" } })
    let retried := failed.2.step (.request "alice" .awaited {})
    ¬failed.1.Reports ∧ retried.1.Reports ∧ retried.2.launch.Stopped := by
  intro failed retried
  have hfirst : microVmStartup.LosesNone
      (.request "alice" .awaited { sidecar := { wait := some "interrupted" } }) := by
    intro attempt hattempt
    obtain rfl : (.awaited, { sidecar := { wait := some "interrupted" } }) = attempt :=
      some.inj hattempt
    refine ⟨?_, fun _ _ => ⟨rfl, rfl⟩⟩
    rintro sidecar ⟨⟩ - -
    exact ⟨rfl, rfl⟩
  have hreach : shutdownSystem.ReachWithin LosesNone failed.2 :=
    .step (.init ⟨rfl, microVmStartup_sound⟩) hfirst rfl
  -- both handles are gone, and neither guest runs
  have hsecond : failed.2.LosesNone (.request "alice" .awaited {}) := by
    intro attempt hattempt
    obtain rfl : (.awaited, {}) = attempt := some.inj hattempt
    refine ⟨?_, fun _ hrunning => nomatch hrunning⟩
    rintro sidecar ⟨⟩ - hrunning
    exact nomatch hrunning
  exact ⟨id, rfl, reported_stopped hreach hsecond rfl⟩

/-- The status of the process cannot be checked, and the user asks again: the answer is that the
shutdown is completed, and the process runs. -/
theorem secondRequest_reports_running :
    let failed := processStartup.step
      (.request "alice" .awaited { runtime := { check_status := some "interrupted" } })
    let retried := failed.2.step (.request "alice" .awaited {})
    retried.1.Reports ∧ ¬retried.2.launch.Stopped := by
  refine ⟨rfl, fun hstopped => ?_⟩
  have hruns := hstopped.1 _ (List.mem_singleton_self _)
  cases hruns

end RunnerStartup

end Oxydra
