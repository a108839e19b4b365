import Oxydra.Library.LengthPrefix
import Oxydra.Runner.Shutdown
import Oxydra.Tools.ShellRecovery
import Oxydra.Types.JsonCodecs

/-!
# Bootstrap envelopes

`RunnerBootstrapEnvelope` of `crates/types/src/runner.rs` with what it consists of, how each part is
written as JSON and read, `validate`, and the frames of `to_length_prefixed_json` and
`from_length_prefixed_json`. What `serde_json` makes of JSON as bytes is a parameter; the fields of
an object stand in the order of the bytes.

A record names its fields in the order of the struct, each with what its attributes say: `required`
without any, `defaulted` with `default`, `optional` with `default` and
`skip_serializing_if = "Option::is_none"`, and `skipped` with another condition.
-/

namespace Oxydra

open RecordCodec Text

/-! ## Errors -/

/-- `RunnerConfigError`, where it is about a runtime policy. -/
inductive RuntimePolicyError where
  | invalidMountPath (mount : String)
  | invalidResourceLimit (field : String) (value : ℕ)
  | invalidCredentialRefKey
  | invalidCredentialRefValue (key : String)
  deriving DecidableEq, Repr

/-- The text of an error. -/
def RuntimePolicyError.message : RuntimePolicyError → String
  | .invalidMountPath mount => s!"runner mount path `{mount}` must not be empty"
  | .invalidResourceLimit field value =>
    s!"runner resource limit `{field}` must be greater than zero; got {value}"
  | .invalidCredentialRefKey => "runner credential reference key must not be empty"
  | .invalidCredentialRefValue key =>
    s!"runner credential reference value for key `{key}` must not be empty"

inductive BootstrapEnvelopeError where
  | frameTooShort (actual_bytes : ℕ)
  | lengthPrefixMismatch (prefixed_bytes payload_bytes : ℕ)
  | envelopeTooLarge (payload_bytes : ℕ)
  | invalidField (field : String)
  | invalidRuntimePolicy (detail : String)
  | serialization (message : String)
  deriving DecidableEq, Repr

/-! ## Enumerations -/

/-- The name of a `SandboxTier` in JSON. -/
def SandboxTier.jsonName : SandboxTier → String
  | .microVm => "micro_vm"
  | .container => "container"
  | .process => "process"

/-- `SandboxTier` as JSON. -/
def SandboxTier.codec : Codec Value SandboxTier :=
  Json.variant [.microVm, .container, .process] jsonName (by intro a; cases a <;> decide)
    (by intro a b; cases a <;> cases b <;> decide)

/-- The name of a `SidecarTransport` in JSON. -/
def SidecarTransport.jsonName : SidecarTransport → String
  | .unix => "unix"
  | .vsock => "vsock"

/-- `SidecarTransport` as JSON. -/
def SidecarTransport.codec : Codec Value SidecarTransport :=
  Json.variant [.unix, .vsock] jsonName (by intro a; cases a <;> decide)
    (by intro a b; cases a <;> cases b <;> decide)

/-- The name of a `StartupDegradedReasonCode` in JSON. -/
def StartupDegradedReasonCode.jsonName : StartupDegradedReasonCode → String
  | .insecureProcessTier => "insecure_process_tier"
  | .processHardeningLimited => "process_hardening_limited"
  | .sidecarUnavailable => "sidecar_unavailable"
  | .sidecarTransportUnsupported => "sidecar_transport_unsupported"
  | .sidecarEndpointInvalid => "sidecar_endpoint_invalid"
  | .sidecarConnectionFailed => "sidecar_connection_failed"
  | .sidecarProtocolError => "sidecar_protocol_error"
  | .runtimeShutdown => "runtime_shutdown"

/-- `StartupDegradedReasonCode` as JSON. -/
def StartupDegradedReasonCode.codec : Codec Value StartupDegradedReasonCode :=
  Json.variant [.insecureProcessTier, .processHardeningLimited, .sidecarUnavailable,
    .sidecarTransportUnsupported, .sidecarEndpointInvalid, .sidecarConnectionFailed,
    .sidecarProtocolError, .runtimeShutdown] jsonName (by intro a; cases a <;> decide)
    (by intro a b; cases a <;> cases b <;> decide)

/-! ## Structs -/

structure RunnerResolvedMountPaths where
  shared : String
  tmp : String
  vault : String
  deriving DecidableEq

/-- `RunnerResolvedMountPaths` as JSON. -/
def RunnerResolvedMountPaths.codec : Codec Value RunnerResolvedMountPaths :=
  Json.record <|
    ((Json.required "shared" Json.string).pair
      ((Json.required "tmp" Json.string).pair (Json.required "vault" Json.string)
        (by decide)) (by decide)).map
      (fun (shared, tmp, vault) => ⟨shared, tmp, vault⟩)
      (fun mounts => (mounts.shared, mounts.tmp, mounts.vault)) fun _ => rfl

structure RunnerResourceLimits where
  max_vcpus : Option (BitVec 16) := none
  max_memory_mib : Option (BitVec 64) := none
  max_processes : Option (BitVec 32) := none
  deriving DecidableEq

/-- `RunnerResourceLimits` as JSON. -/
def RunnerResourceLimits.codec : Codec Value RunnerResourceLimits :=
  Json.record <|
    ((Json.optional "max_vcpus" (Json.word 16) fun _ => rfl).pair
      ((Json.optional "max_memory_mib" (Json.word 64) fun _ => rfl).pair
        (Json.optional "max_processes" (Json.word 32) fun _ => rfl) (by decide)) (by decide)).map
      (fun (max_vcpus, max_memory_mib, max_processes) => ⟨max_vcpus, max_memory_mib, max_processes⟩)
      (fun limits => (limits.max_vcpus, limits.max_memory_mib, limits.max_processes)) fun _ => rfl

structure RunnerRuntimePolicy where
  mounts : RunnerResolvedMountPaths
  resources : RunnerResourceLimits := {}
  credential_refs : TextMap := .empty
  deriving DecidableEq

/-- A map without fields is the empty one. -/
theorem TextMap.eq_empty {map : TextMap} (h : map.fields.isEmpty = true) : map = .empty := by
  obtain ⟨fields, sorted⟩ := map
  obtain rfl := List.isEmpty_iff.mp h
  rfl

/-- `RunnerRuntimePolicy` as JSON. -/
def RunnerRuntimePolicy.codec : Codec Value RunnerRuntimePolicy :=
  Json.record <|
    ((Json.required "mounts" RunnerResolvedMountPaths.codec).pair
      ((Json.defaulted "resources" {} RunnerResourceLimits.codec).pair
        (Json.skipped "credential_refs" .empty (fun map => map.fields.isEmpty)
          (fun _ => TextMap.eq_empty) Json.textMap) (by decide)) (by decide)).map
      (fun (mounts, resources, credential_refs) => ⟨mounts, resources, credential_refs⟩)
      (fun policy => (policy.mounts, policy.resources, policy.credential_refs)) fun _ => rfl

/-- `StartupDegradedReason` as JSON. -/
def degradedReasonCodec : Codec Value (StartupDegradedReasonCode × String) :=
  Json.record <|
    (Json.required "code" StartupDegradedReasonCode.codec).pair
      (Json.required "detail" Json.string) (by decide)

/-- `StartupStatusReport` as JSON. -/
def StartupStatusReport.codec : Codec Value StartupStatusReport :=
  Json.record <|
    ((Json.required "sandbox_tier" SandboxTier.codec).pair
      ((Json.required "sidecar_available" Json.bool).pair
        ((Json.required "shell_available" Json.bool).pair
          ((Json.required "browser_available" Json.bool).pair
            (Json.skipped "degraded_reasons" [] List.isEmpty (fun _ => List.isEmpty_iff.mp)
              (Json.list degradedReasonCodec))
            (by decide)) (by decide)) (by decide)) (by decide)).map
      (fun (sandbox_tier, sidecar_available, shell_available, browser_available,
          degraded_reasons) =>
        ⟨sandbox_tier, sidecar_available, shell_available, browser_available, degraded_reasons⟩)
      (fun status => (status.sandbox_tier, status.sidecar_available, status.shell_available,
        status.browser_available, status.degraded_reasons)) fun _ => rfl

/-- `SidecarEndpoint` as JSON. -/
def SidecarEndpoint.codec : Codec Value SidecarEndpoint :=
  Json.record <|
    ((Json.required "transport" SidecarTransport.codec).pair
      (Json.required "address" Json.string) (by decide)).map
      (fun (transport, address) => ⟨transport, address⟩)
      (fun endpoint => (endpoint.transport, endpoint.address)) fun _ => rfl

structure BrowserToolConfig where
  pinchtab_base_url : String
  bridge_token : Option String
  deriving DecidableEq

/-- `BrowserToolConfig` as JSON. -/
def BrowserToolConfig.codec : Codec Value BrowserToolConfig :=
  Json.record <|
    ((Json.required "pinchtab_base_url" Json.string).pair
      (Json.optional "bridge_token" Json.string fun _ => rfl) (by decide)).map
      (fun (pinchtab_base_url, bridge_token) => ⟨pinchtab_base_url, bridge_token⟩)
      (fun config => (config.pinchtab_base_url, config.bridge_token)) fun _ => rfl

structure SenderBinding where
  platform_ids : List String
  display_name : Option String
  deriving DecidableEq

/-- `SenderBinding` as JSON. -/
def SenderBinding.codec : Codec Value SenderBinding :=
  Json.record <|
    ((Json.required "platform_ids" (Json.list Json.string)).pair
      (Json.optional "display_name" Json.string fun _ => rfl) (by decide)).map
      (fun (platform_ids, display_name) => ⟨platform_ids, display_name⟩)
      (fun sender => (sender.platform_ids, sender.display_name)) fun _ => rfl

structure TelegramChannelConfig where
  enabled : Bool
  bot_token_env : Option String
  polling_timeout_secs : BitVec 64
  senders : List SenderBinding
  max_message_length : BitVec 64
  deriving DecidableEq

/-- `TelegramChannelConfig` as JSON, with `default_polling_timeout_secs` and
`default_max_message_length`. -/
def TelegramChannelConfig.codec : Codec Value TelegramChannelConfig :=
  Json.record <|
    ((Json.defaulted "enabled" false Json.bool).pair
      ((Json.optional "bot_token_env" Json.string fun _ => rfl).pair
        ((Json.defaulted "polling_timeout_secs" 30 (Json.word 64)).pair
          ((Json.defaulted "senders" [] (Json.list SenderBinding.codec)).pair
            (Json.defaulted "max_message_length" 4096 (Json.word 64))
            (by decide)) (by decide)) (by decide)) (by decide)).map
      (fun (enabled, bot_token_env, polling_timeout_secs, senders, max_message_length) =>
        ⟨enabled, bot_token_env, polling_timeout_secs, senders, max_message_length⟩)
      (fun config => (config.enabled, config.bot_token_env, config.polling_timeout_secs,
        config.senders, config.max_message_length)) fun _ => rfl

structure ChannelsConfig where
  telegram : Option TelegramChannelConfig
  deriving DecidableEq

/-- `ChannelsConfig` as JSON. -/
def ChannelsConfig.codec : Codec Value ChannelsConfig :=
  Json.record <|
    (Json.optional "telegram" TelegramChannelConfig.codec fun _ => rfl).map
      (fun telegram => ⟨telegram⟩) (fun config => config.telegram) fun _ => rfl

structure RunnerBootstrapEnvelope where
  user_id : String
  sandbox_tier : SandboxTier
  workspace_root : String
  sidecar_endpoint : Option SidecarEndpoint := none
  runtime_policy : Option RunnerRuntimePolicy := none
  startup_status : Option StartupStatusReport := none
  channels : Option ChannelsConfig := none
  browser_config : Option BrowserToolConfig := none
  deriving DecidableEq

/-- `RunnerBootstrapEnvelope` as JSON. -/
def RunnerBootstrapEnvelope.codec : Codec Value RunnerBootstrapEnvelope :=
  Json.record <|
    ((Json.required "user_id" Json.string).pair
      ((Json.required "sandbox_tier" SandboxTier.codec).pair
        ((Json.required "workspace_root" Json.string).pair
          ((Json.optional "sidecar_endpoint" SidecarEndpoint.codec fun _ => rfl).pair
            ((Json.optional "runtime_policy" RunnerRuntimePolicy.codec fun _ => rfl).pair
              ((Json.optional "startup_status" StartupStatusReport.codec fun _ => rfl).pair
                ((Json.optional "channels" ChannelsConfig.codec fun _ => rfl).pair
                  (Json.optional "browser_config" BrowserToolConfig.codec fun _ => rfl)
                  (by decide)) (by decide)) (by decide)) (by decide)) (by decide)) (by decide))
      (by decide)).map
      (fun (user_id, sandbox_tier, workspace_root, sidecar_endpoint, runtime_policy,
          startup_status, channels, browser_config) =>
        ⟨user_id, sandbox_tier, workspace_root, sidecar_endpoint, runtime_policy, startup_status,
          channels, browser_config⟩)
      (fun envelope => (envelope.user_id, envelope.sandbox_tier, envelope.workspace_root,
        envelope.sidecar_endpoint, envelope.runtime_policy, envelope.startup_status,
        envelope.channels, envelope.browser_config)) fun _ => rfl

/-! ## Validation -/

/-- `validate_required_path`. -/
def validateRequiredPath (mount path : String) : Except RuntimePolicyError Unit :=
  if trim path = "" then throw (.invalidMountPath mount) else return

/-- `RunnerResolvedMountPaths::validate`. -/
def RunnerResolvedMountPaths.validate (mounts : RunnerResolvedMountPaths) :
    Except RuntimePolicyError Unit := do
  validateRequiredPath "shared" mounts.shared
  validateRequiredPath "tmp" mounts.tmp
  validateRequiredPath "vault" mounts.vault

/-- A limit that is zero. -/
def validateLimit {w : ℕ} (field : String) (limit : Option (BitVec w)) :
    Except RuntimePolicyError Unit :=
  if limit = some 0 then throw (.invalidResourceLimit field 0) else return

/-- `RunnerResourceLimits::validate`. -/
def RunnerResourceLimits.validate (limits : RunnerResourceLimits) :
    Except RuntimePolicyError Unit := do
  validateLimit "max_vcpus" limits.max_vcpus
  validateLimit "max_memory_mib" limits.max_memory_mib
  validateLimit "max_processes" limits.max_processes

/-- `validate_credential_refs`. -/
def validateCredentialRefs (credential_refs : TextMap) : Except RuntimePolicyError Unit :=
  credential_refs.fields.forM fun (key, value) => do
    if trim key = "" then throw .invalidCredentialRefKey
    if trim value = "" then throw (.invalidCredentialRefValue key)

/-- `RunnerRuntimePolicy::validate`. -/
def RunnerRuntimePolicy.validate (policy : RunnerRuntimePolicy) :
    Except RuntimePolicyError Unit := do
  policy.mounts.validate
  policy.resources.validate
  validateCredentialRefs policy.credential_refs

/-- What `validate` checks of a startup status. -/
def RunnerBootstrapEnvelope.validateStatus (envelope : RunnerBootstrapEnvelope)
    (status : StartupStatusReport) : Except BootstrapEnvelopeError Unit := do
  if status.sandbox_tier ≠ envelope.sandbox_tier then
    throw (.invalidField "startup_status.sandbox_tier")
  if envelope.sidecar_endpoint = none ∧
      (status.sidecar_available || status.shell_available || status.browser_available) then
    throw (.invalidField "startup_status.sidecar_available")
  if (status.shell_available || status.browser_available) ∧ !status.sidecar_available then
    throw (.invalidField "startup_status.shell_available")

/-- `RunnerBootstrapEnvelope::validate`. -/
def RunnerBootstrapEnvelope.validate (envelope : RunnerBootstrapEnvelope) :
    Except BootstrapEnvelopeError Unit := do
  if trim envelope.user_id = "" then throw (.invalidField "user_id")
  if trim envelope.workspace_root = "" then throw (.invalidField "workspace_root")
  match envelope.sidecar_endpoint with
  | some sidecar =>
    if trim sidecar.address = "" then throw (.invalidField "sidecar_endpoint.address")
  | none => pure ()
  match envelope.runtime_policy with
  | some policy => policy.validate.mapError fun source => .invalidRuntimePolicy source.message
  | none => pure ()
  match envelope.startup_status with
  | some status => envelope.validateStatus status
  | none => pure ()

/-! ## Frames -/

/-- `serde_json`: the bytes of a value, and the value of bytes. -/
structure SerdeJson where
  to_vec : Value → Except String (List UInt8)
  from_slice : List UInt8 → Except String Value

namespace RunnerBootstrapEnvelope

/-- `to_length_prefixed_json`. -/
def toLengthPrefixedJson (json : SerdeJson) (envelope : RunnerBootstrapEnvelope) :
    Except BootstrapEnvelopeError (List UInt8) := do
  envelope.validate
  let payload ← (json.to_vec (codec.write envelope)).mapError .serialization
  if 2^32 - 1 < payload.length then throw (.envelopeTooLarge payload.length)
  return LengthPrefix.toBytes payload.length ++ payload

/-- `from_length_prefixed_json`. -/
def fromLengthPrefixedJson (json : SerdeJson) (frame : List UInt8) :
    Except BootstrapEnvelopeError RunnerBootstrapEnvelope := do
  if frame.length < 4 then throw (.frameTooShort frame.length)
  let prefixed_len := LengthPrefix.ofBytes (frame.take 4)
  let payload := frame.drop 4
  if payload.length ≠ prefixed_len then
    throw (.lengthPrefixMismatch prefixed_len payload.length)
  let value ← (json.from_slice payload).mapError .serialization
  let envelope ← (codec.read value).mapError .serialization
  envelope.validate
  return envelope

end RunnerBootstrapEnvelope

end Oxydra
