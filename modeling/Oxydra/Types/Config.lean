import Oxydra.Library.TomlSchema

/-!
# The configurations

The configurations of `crates/types/src/config.rs` and `runner.rs` that the web configurator
patches, each as its schema and its `Default`. A field of a struct has the default that its serde
attribute names, and a struct the one of its `Default`; the source writes the two apart.
-/

namespace Oxydra

open Toml

/-- A type of a configuration: what is deserialized, and `T::default()`. -/
structure ConfigType where
  schema : Schema
  default : Datum

/-! ## Kinds of fields -/

/-- A field with a default, which is always written. -/
def defaultField (name : String) (default : Datum) (schema : Schema) : FieldSpec Schema :=
  ⟨name, some default, fun _ => false, schema⟩

/-- A field without a default. -/
def requiredField (name : String) (schema : Schema) : FieldSpec Schema :=
  ⟨name, none, fun _ => false, schema⟩

/-- A field of a type that has a `Default`. -/
def sectionField (name : String) (type : ConfigType) : FieldSpec Schema :=
  defaultField name type.default type.schema

/-- An `Option`, which is left out where it is `None`. -/
def optionField (name : String) (schema : Schema) : FieldSpec Schema :=
  ⟨name, some .absent, Datum.isAbsent, .optional schema⟩

def stringSchema : Schema := .plain .string
def booleanSchema : Schema := .plain .boolean
def floatSchema : Schema := .plain .float
def unsignedSchema (bits : ℕ) : Schema := .plain (.unsigned bits)

def stringDatum (s : String) : Datum := .plain (.string s)
def booleanDatum (b : Bool) : Datum := .plain (.boolean b)
def floatDatum (x : ℚ) : Datum := .plain (.float x)
def unsignedDatum (n : ℕ) : Datum := .plain (.integer n)

/-! ## `config.rs` -/

/-- `ContextBudgetConfig`. -/
def contextBudgetConfig : ConfigType where
  schema := .struct false [defaultField "trigger_ratio" (floatDatum 0.85) floatSchema,
    defaultField "safety_buffer_tokens" (unsignedDatum 1024) (unsignedSchema 64),
    defaultField "fallback_max_context_tokens" (unsignedDatum 128000) (unsignedSchema 32)]
  default := .record [("trigger_ratio", floatDatum 0.85),
    ("safety_buffer_tokens", unsignedDatum 1024),
    ("fallback_max_context_tokens", unsignedDatum 128000)]

/-- `SummarizationConfig`. -/
def summarizationConfig : ConfigType where
  schema := .struct false [defaultField "target_ratio" (floatDatum 0.5) floatSchema,
    defaultField "min_turns" (unsignedDatum 6) (unsignedSchema 64)]
  default := .record [("target_ratio", floatDatum 0.5), ("min_turns", unsignedDatum 6)]

/-- `RuntimeConfig`. `max_cost` is written also where it is `None`. -/
def runtimeConfig : ConfigType where
  schema := .struct false [
    defaultField "turn_timeout_secs" (unsignedDatum 60) (unsignedSchema 64),
    defaultField "max_turns" (unsignedDatum 100) (unsignedSchema 32),
    defaultField "max_cost" .absent (.optional floatSchema),
    sectionField "context_budget" contextBudgetConfig,
    sectionField "summarization" summarizationConfig]
  default := .record [("turn_timeout_secs", unsignedDatum 60), ("max_turns", unsignedDatum 100),
    ("max_cost", .absent), ("context_budget", contextBudgetConfig.default),
    ("summarization", summarizationConfig.default)]

/-- `GatewayConfig`. -/
def gatewayConfig : ConfigType where
  schema := .struct false [
    defaultField "max_sessions_per_user" (unsignedDatum 50) (unsignedSchema 64),
    defaultField "max_concurrent_turns_per_user" (unsignedDatum 10) (unsignedSchema 64),
    defaultField "session_idle_ttl_hours" (unsignedDatum 48) (unsignedSchema 64)]
  default := .record [("max_sessions_per_user", unsignedDatum 50),
    ("max_concurrent_turns_per_user", unsignedDatum 10),
    ("session_idle_ttl_hours", unsignedDatum 48)]

/-- `RetrievalConfig`. -/
def retrievalConfig : ConfigType where
  schema := .struct false [defaultField "top_k" (unsignedDatum 8) (unsignedSchema 64),
    defaultField "vector_weight" (floatDatum 0.7) floatSchema,
    defaultField "fts_weight" (floatDatum 0.3) floatSchema]
  default := .record [("top_k", unsignedDatum 8), ("vector_weight", floatDatum 0.7),
    ("fts_weight", floatDatum 0.3)]

/-- `MemoryConfig`. The default of `enabled` is `bool::default()`, and `Default` enables it. -/
def memoryConfig : ConfigType where
  schema := .struct false [defaultField "enabled" (booleanDatum false) booleanSchema,
    optionField "remote_url" stringSchema,
    optionField "auth_token" stringSchema,
    defaultField "embedding_backend" (stringDatum "model2vec")
      (.plain (.name ["model2vec", "deterministic"])),
    defaultField "model2vec_model" (stringDatum "potion_32m")
      (.plain (.name ["potion_8m", "potion_32m"])),
    sectionField "retrieval" retrievalConfig]
  default := .record [("enabled", booleanDatum true), ("remote_url", .absent),
    ("auth_token", .absent), ("embedding_backend", stringDatum "model2vec"),
    ("model2vec_model", stringDatum "potion_32m"), ("retrieval", retrievalConfig.default)]

/-- `ProviderSelection`. -/
def providerSelection : ConfigType where
  schema := .struct false [defaultField "provider" (stringDatum "openai") stringSchema,
    defaultField "model" (stringDatum "gpt-4o-mini") stringSchema]
  default := .record [("provider", stringDatum "openai"), ("model", stringDatum "gpt-4o-mini")]

/-- `ProviderRegistryEntry`. -/
def providerRegistryEntrySchema : Schema :=
  .struct false [
    requiredField "provider_type"
      (.plain (.name ["openai", "anthropic", "gemini", "openai_responses"])),
    optionField "base_url" stringSchema,
    optionField "api_key" stringSchema,
    optionField "api_key_env" stringSchema,
    optionField "extra_headers" (.map stringSchema),
    optionField "catalog_provider" stringSchema,
    optionField "attachment" booleanSchema,
    optionField "input_modalities" (.list stringSchema),
    optionField "reasoning" booleanSchema,
    optionField "max_input_tokens" (unsignedSchema 32),
    optionField "max_output_tokens" (unsignedSchema 32),
    optionField "max_context_tokens" (unsignedSchema 32)]

/-- An entry of `default_provider_registry`. -/
def defaultRegistryEntry (provider_type api_key_env : String) : Datum :=
  .record [("provider_type", stringDatum provider_type), ("base_url", .absent),
    ("api_key", .absent), ("api_key_env", stringDatum api_key_env), ("extra_headers", .absent),
    ("catalog_provider", .absent), ("attachment", .absent), ("input_modalities", .absent),
    ("reasoning", .absent), ("max_input_tokens", .absent), ("max_output_tokens", .absent),
    ("max_context_tokens", .absent)]

/-- `default_provider_registry`. -/
def defaultProviderRegistry : Datum :=
  .record [("anthropic", defaultRegistryEntry "anthropic" "ANTHROPIC_API_KEY"),
    ("openai", defaultRegistryEntry "openai" "OPENAI_API_KEY")]

/-- `ProviderConfigs`. -/
def providerConfigs : ConfigType where
  schema := .struct false [
    defaultField "registry" defaultProviderRegistry (.map providerRegistryEntrySchema)]
  default := .record [("registry", defaultProviderRegistry)]

/-- `AgentDefinition`. -/
def agentDefinitionSchema : Schema :=
  .struct false [optionField "system_prompt" stringSchema,
    optionField "system_prompt_file" stringSchema,
    optionField "selection" providerSelection.schema,
    optionField "tools" (.list stringSchema),
    optionField "max_turns" (unsignedSchema 32),
    optionField "max_cost" floatSchema]

/-- `ReliabilityConfig`. -/
def reliabilityConfig : ConfigType where
  schema := .struct false [defaultField "max_attempts" (unsignedDatum 3) (unsignedSchema 32),
    defaultField "backoff_base_ms" (unsignedDatum 250) (unsignedSchema 64),
    defaultField "backoff_max_ms" (unsignedDatum 2000) (unsignedSchema 64),
    defaultField "jitter" (booleanDatum false) booleanSchema]
  default := .record [("max_attempts", unsignedDatum 3), ("backoff_base_ms", unsignedDatum 250),
    ("backoff_max_ms", unsignedDatum 2000), ("jitter", booleanDatum false)]

/-- `CatalogConfig`. -/
def catalogConfig : ConfigType where
  schema := .struct false [
    defaultField "skip_catalog_validation" (booleanDatum false) booleanSchema,
    optionField "pinned_url" stringSchema]
  default := .record [("skip_catalog_validation", booleanDatum false), ("pinned_url", .absent)]

/-- `AttachmentSaveConfig`. -/
def attachmentSaveSchema : Schema :=
  .struct false [defaultField "timeout_secs" (unsignedDatum 60) (unsignedSchema 64)]

/-- `ShellConfig`. -/
def shellConfig : ConfigType where
  schema := .struct false [optionField "enabled" booleanSchema,
    optionField "allow" (.list stringSchema),
    optionField "deny" (.list stringSchema),
    optionField "replace_defaults" booleanSchema,
    optionField "allow_operators" booleanSchema,
    optionField "env_keys" (.list stringSchema),
    optionField "command_timeout_secs" (unsignedSchema 64)]
  default := .record [("enabled", booleanDatum true), ("allow", .list [stringDatum "*"]),
    ("deny", .absent), ("replace_defaults", booleanDatum false),
    ("allow_operators", booleanDatum true), ("env_keys", .absent),
    ("command_timeout_secs", .absent)]

/-- `BrowserConfig`. -/
def browserSchema : Schema :=
  .struct false [optionField "enabled" booleanSchema, optionField "cdp_url" stringSchema]

/-- `WebSearchConfig`. -/
def webSearchSchema : Schema :=
  .struct false [optionField "provider" stringSchema,
    optionField "base_url" stringSchema,
    optionField "base_urls" stringSchema,
    optionField "api_key_env" stringSchema,
    optionField "engine_id_env" stringSchema,
    optionField "query_params" stringSchema,
    optionField "engines" stringSchema,
    optionField "categories" stringSchema,
    optionField "safesearch" (unsignedSchema 8),
    optionField "egress_allowlist" (.list stringSchema)]

/-- `ToolsConfig`. `Default` has a shell, and the field itself has none. -/
def toolsConfig : ConfigType where
  schema := .struct false [optionField "web_search" webSearchSchema,
    optionField "shell" shellConfig.schema,
    optionField "browser" browserSchema,
    optionField "attachment_save" attachmentSaveSchema]
  default := .record [("web_search", .absent), ("shell", shellConfig.default),
    ("browser", .absent), ("attachment_save", .absent)]

/-- `SchedulerConfig`. `Default` enables it, and the field itself does not. -/
def schedulerConfig : ConfigType where
  schema := .struct false [defaultField "enabled" (booleanDatum false) booleanSchema,
    defaultField "poll_interval_secs" (unsignedDatum 15) (unsignedSchema 64),
    defaultField "max_concurrent" (unsignedDatum 2) (unsignedSchema 64),
    defaultField "max_schedules_per_user" (unsignedDatum 50) (unsignedSchema 64),
    defaultField "max_turns" (unsignedDatum 10) (unsignedSchema 64),
    defaultField "max_cost" (floatDatum 0.50) floatSchema,
    defaultField "max_run_history" (unsignedDatum 20) (unsignedSchema 64),
    defaultField "min_interval_secs" (unsignedDatum 60) (unsignedSchema 64),
    defaultField "default_timezone" (stringDatum "Asia/Kolkata") stringSchema,
    defaultField "auto_disable_after_failures" (unsignedDatum 5) (unsignedSchema 32),
    defaultField "notify_after_failures" (unsignedDatum 3) (unsignedSchema 32)]
  default := .record [("enabled", booleanDatum true), ("poll_interval_secs", unsignedDatum 15),
    ("max_concurrent", unsignedDatum 2), ("max_schedules_per_user", unsignedDatum 50),
    ("max_turns", unsignedDatum 10), ("max_cost", floatDatum 0.50),
    ("max_run_history", unsignedDatum 20), ("min_interval_secs", unsignedDatum 60),
    ("default_timezone", stringDatum "Asia/Kolkata"),
    ("auto_disable_after_failures", unsignedDatum 5), ("notify_after_failures", unsignedDatum 3)]

/-- `AgentConfig`. -/
def agentConfig : ConfigType where
  schema := .struct false [defaultField "config_version" (stringDatum "1.0.0") stringSchema,
    sectionField "runtime" runtimeConfig,
    sectionField "memory" memoryConfig,
    sectionField "selection" providerSelection,
    sectionField "providers" providerConfigs,
    sectionField "reliability" reliabilityConfig,
    sectionField "catalog" catalogConfig,
    sectionField "tools" toolsConfig,
    sectionField "scheduler" schedulerConfig,
    sectionField "gateway" gatewayConfig,
    defaultField "agents" (.record []) (.map agentDefinitionSchema)]
  default := .record [("config_version", stringDatum "1.0.0"), ("runtime", runtimeConfig.default),
    ("memory", memoryConfig.default), ("selection", providerSelection.default),
    ("providers", providerConfigs.default), ("reliability", reliabilityConfig.default),
    ("catalog", catalogConfig.default), ("tools", toolsConfig.default),
    ("scheduler", schedulerConfig.default), ("gateway", gatewayConfig.default),
    ("agents", .record [])]

/-! ## `runner.rs` -/

/-- The names of `SandboxTier`. -/
def sandboxTierSchema : Schema := .plain (.name ["micro_vm", "container", "process"])

/-- `RunnerGuestImages`. -/
def runnerGuestImages : ConfigType where
  schema := .struct false [defaultField "oxydra_vm" (stringDatum "oxydra-vm:latest") stringSchema,
    defaultField "shell_vm" (stringDatum "shell-vm:latest") stringSchema,
    optionField "firecracker_oxydra_vm_config" stringSchema,
    optionField "firecracker_shell_vm_config" stringSchema]
  default := .record [("oxydra_vm", stringDatum "oxydra-vm:latest"),
    ("shell_vm", stringDatum "shell-vm:latest"), ("firecracker_oxydra_vm_config", .absent),
    ("firecracker_shell_vm_config", .absent)]

/-- `WebConfig`. -/
def webConfig : ConfigType where
  schema := .struct false [defaultField "enabled" (booleanDatum true) booleanSchema,
    defaultField "bind" (stringDatum "127.0.0.1:9400") stringSchema,
    defaultField "auth_mode" (stringDatum "disabled") (.plain (.name ["disabled", "token"])),
    optionField "auth_token_env" stringSchema,
    optionField "auth_token" stringSchema]
  default := .record [("enabled", booleanDatum true), ("bind", stringDatum "127.0.0.1:9400"),
    ("auth_mode", stringDatum "disabled"), ("auth_token_env", .absent), ("auth_token", .absent)]

/-- `RunnerGlobalConfig`. -/
def runnerGlobalConfig : ConfigType where
  schema := .struct false [defaultField "config_version" (stringDatum "1.0.1") stringSchema,
    defaultField "workspace_root" (stringDatum "workspaces") stringSchema,
    defaultField "users" (.record [])
      (.map (.struct false [requiredField "config_path" stringSchema])),
    defaultField "default_tier" (stringDatum "micro_vm") sandboxTierSchema,
    sectionField "guest_images" runnerGuestImages,
    sectionField "web" webConfig]
  default := .record [("config_version", stringDatum "1.0.1"),
    ("workspace_root", stringDatum "workspaces"), ("users", .record []),
    ("default_tier", stringDatum "micro_vm"), ("guest_images", runnerGuestImages.default),
    ("web", webConfig.default)]

/-- `RunnerMountPaths`. -/
def runnerMountPaths : ConfigType where
  schema := .struct false [optionField "shared" stringSchema, optionField "tmp" stringSchema,
    optionField "vault" stringSchema]
  default := .record [("shared", .absent), ("tmp", .absent), ("vault", .absent)]

/-- `RunnerResourceLimits`. -/
def runnerResourceLimits : ConfigType where
  schema := .struct false [optionField "max_vcpus" (unsignedSchema 16),
    optionField "max_memory_mib" (unsignedSchema 64),
    optionField "max_processes" (unsignedSchema 32)]
  default := .record [("max_vcpus", .absent), ("max_memory_mib", .absent),
    ("max_processes", .absent)]

/-- `is_default_runner_timezone`. -/
def isDefaultRunnerTimezone : Datum → Bool
  | .plain (.string value) => value == "UTC"
  | _ => false

/-- `RunnerBehaviorOverrides`, which denies unknown fields. -/
def runnerBehaviorOverrides : ConfigType where
  schema := .struct true [optionField "sandbox_tier" sandboxTierSchema,
    optionField "shell_enabled" booleanSchema,
    optionField "browser_enabled" booleanSchema,
    ⟨"timezone", some (stringDatum "UTC"), isDefaultRunnerTimezone, stringSchema⟩]
  default := .record [("sandbox_tier", .absent), ("shell_enabled", .absent),
    ("browser_enabled", .absent), ("timezone", stringDatum "UTC")]

/-- `SenderBinding`. -/
def senderBindingSchema : Schema :=
  .struct false [requiredField "platform_ids" (.list stringSchema),
    optionField "display_name" stringSchema]

/-- `TelegramChannelConfig`. -/
def telegramChannelSchema : Schema :=
  .struct false [defaultField "enabled" (booleanDatum false) booleanSchema,
    optionField "bot_token_env" stringSchema,
    defaultField "polling_timeout_secs" (unsignedDatum 30) (unsignedSchema 64),
    defaultField "senders" (.list []) (.list senderBindingSchema),
    defaultField "max_message_length" (unsignedDatum 4096) (unsignedSchema 64)]

/-- `ChannelsConfig`. -/
def channelsConfig : ConfigType where
  schema := .struct false [optionField "telegram" telegramChannelSchema]
  default := .record [("telegram", .absent)]

/-- `RunnerUserConfig`. -/
def runnerUserConfig : ConfigType where
  schema := .struct false [defaultField "config_version" (stringDatum "1.0.1") stringSchema,
    sectionField "mounts" runnerMountPaths,
    sectionField "resources" runnerResourceLimits,
    defaultField "credential_refs" (.record []) (.map stringSchema),
    sectionField "behavior" runnerBehaviorOverrides,
    sectionField "channels" channelsConfig]
  default := .record [("config_version", stringDatum "1.0.1"), ("mounts", runnerMountPaths.default),
    ("resources", runnerResourceLimits.default), ("credential_refs", .record []),
    ("behavior", runnerBehaviorOverrides.default), ("channels", channelsConfig.default)]

end Oxydra
