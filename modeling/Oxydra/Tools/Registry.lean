import Oxydra.Library.Text
import Oxydra.Types.Policy

/-!
# The tool registry

`ToolRegistry` of `crates/tools/src/registry.rs`: the registered tools under their names, the
schemas that a policy leaves visible, and the dispatch of one call. A tool's `execute` is code of
its own, so what it returns, and whether it returns before its timeout, is an input of the dispatch
(`ToolOutcome`); the dispatch itself, with every check that comes before `execute`, is here.
Arguments are JSON values throughout, where the source passes them as JSON text.

`executeWithPolicyAndContext_executed` says what a call that reaches a tool has passed: the name is
registered and, under a policy that is enforced, not disallowed. Nothing at dispatch looks at the
policy's toolset.
-/

namespace Oxydra

/-- A registered `Tool`, with its timeout in nanoseconds. -/
structure Tool where
  schema : FunctionDecl
  safety_tier : SafetyTier
  timeout : ℕ := 60000000000
  deriving DecidableEq, Repr

structure ToolPermissionContext where
  session_id : String
  user_id : String
  turn : ℕ
  remaining_budget : ℕ
  deriving DecidableEq, Repr

inductive ToolPermissionDecision where
  | allow
  | deny (reason : String)
  | allowWithModification (modified_args : Value)
  deriving DecidableEq, Repr

/-- A `ToolPermissionHandler`, by its `check_permission`. -/
abbrev ToolPermissionHandler := String → Value → ToolPermissionContext → ToolPermissionDecision

inductive SecurityPolicyViolationReason where
  | invalidArguments
  | pathResolutionFailed
  | pathOutsideAllowedRoots
  | commandNotAllowed
  deriving DecidableEq, Repr

/-- The derived `Debug` text of a violation's reason. -/
def SecurityPolicyViolationReason.debug : SecurityPolicyViolationReason → String
  | .invalidArguments => "InvalidArguments"
  | .pathResolutionFailed => "PathResolutionFailed"
  | .pathOutsideAllowedRoots => "PathOutsideAllowedRoots"
  | .commandNotAllowed => "CommandNotAllowed"

structure SecurityPolicyViolation where
  reason : SecurityPolicyViolationReason
  detail : String
  deriving DecidableEq, Repr

/-- `ToolRegistry`: the tools in the order of their names, and the security policy by its
`enforce`. -/
structure ToolRegistry where
  tools : List (String × Tool)
  max_output_bytes : ℕ := 16384
  security_policy : Option (String → SafetyTier → Value → Except SecurityPolicyViolation Unit) :=
    none

/-- `ToolExecutionContext`, the fields that the dispatch and the delegation executor read. -/
structure ToolExecutionContext where
  user_id : Option String := none
  session_id : Option String := none
  provider : Option String := none
  model : Option String := none
  /-- Whether there is a sender for stream items. -/
  event_sender : Bool := false
  channel_id : Option String := none
  channel_context_id : Option String := none
  policy : Option EffectiveRunPolicy := none
  permission_handler : Option ToolPermissionHandler := none
  turn : Option ℕ := none
  remaining_budget : Option ℕ := none

/-- How a tool's `execute` ended: with its own result, or at the tool's timeout. -/
inductive ToolOutcome where
  | returned (result : Except ToolError String)
  | timedOut

/-- What a call left behind: the arguments under which the tool was executed, if it was, the items
that were sent, and the result. -/
structure ToolRun where
  executed : Option Value
  events : List StreamItem
  result : Except ToolError String

/-- `execution_failed`. -/
def executionFailed (tool message : String) : ToolError := .executionFailed tool message

/-- `truncate_output`. -/
def truncateOutput (output : String) (max_output_bytes : ℕ) : String :=
  if output.utf8ByteSize ≤ max_output_bytes then output
  else String.ofList (Text.takeBytes max_output_bytes output.toList) ++
    s!"\n...[output truncated: {output.utf8ByteSize} bytes total]"

namespace ToolRegistry

variable (registry : ToolRegistry)

/-- `get`. -/
def get (name : String) : Option Tool := registry.tools.lookup name

/-- `schemas`. -/
def schemas : List FunctionDecl := registry.tools.map fun entry => entry.2.schema

/-- `filtered_schemas`. -/
def filteredSchemas (effective_toolset : Option (Finset String)) (disallowed : Finset String) :
    List FunctionDecl :=
  registry.schemas.filter fun schema =>
    (match effective_toolset with
      | some set => decide (schema.name ∈ set)
      | none => true) && schema.name ∉ disallowed

/-- The check of the disallowed tools: an error under `Enforce`, an event under `SoftFail`. -/
def checkDisallowed (name : String) (context : ToolExecutionContext) :
    Except ToolError (List StreamItem) :=
  match context.policy with
  | none => .ok []
  | some policy =>
    if name ∈ policy.disallowed_tools then
      match policy.rollout_mode with
      | .enforce => .error (.policyViolation .toolDisallowed)
      | .softFail =>
        .ok (if context.event_sender then [.policyEvent (.policyStop .toolDisallowed)] else [])
      | .observeOnly => .ok []
    else .ok []

/-- The permission handler's say on the arguments; an auto-approved tool is not asked about. -/
def checkPermission (name : String) (args : Value) (context : ToolExecutionContext) :
    Except ToolError Value :=
  match context.permission_handler with
  | none => .ok args
  | some handler =>
    let is_auto_approved := match context.policy with
      | some policy => decide (name ∈ policy.auto_approve_tools)
      | none => false
    if is_auto_approved then .ok args
    else
      match handler name args
        { session_id := context.session_id.getD ""
          user_id := context.user_id.getD ""
          turn := context.turn.getD 0
          remaining_budget := context.remaining_budget.getD 0 } with
      | .allow => .ok args
      | .deny _ => .error (.policyViolation .toolPermissionDenied)
      | .allowWithModification modified_args => .ok modified_args

/-- The check of the registry's security policy. -/
def checkSecurity (name : String) (tool : Tool) (args : Value) : Except ToolError Unit :=
  match registry.security_policy with
  | none => .ok ()
  | some enforce =>
    match enforce name tool.safety_tier args with
    | .ok _ => .ok ()
    | .error violation =>
      .error (executionFailed name
        s!"blocked by security policy ({violation.reason.debug}): {violation.detail}")

/-- `execute_with_policy_and_context`. -/
def executeWithPolicyAndContext (name : String) (args : Value)
    (safety_gate : SafetyTier → Except ToolError Unit) (context : ToolExecutionContext)
    (outcome : ToolOutcome) : ToolRun :=
  match registry.get name with
  | none => ⟨none, [], .error (executionFailed name s!"unknown tool `{name}`")⟩
  | some tool =>
    match checkDisallowed name context with
    | .error e => ⟨none, [], .error e⟩
    | .ok events =>
      match (do
        let final_args ← checkPermission name args context
        safety_gate tool.safety_tier
        registry.checkSecurity name tool final_args
        pure final_args) with
      | .error e => ⟨none, events, .error e⟩
      | .ok final_args =>
        -- `tool.execute` is reached here, and nowhere else
        match outcome with
        | .timedOut =>
          ⟨some final_args, events,
            .error (executionFailed name s!"tool timed out after {Text.durationDebug tool.timeout}")⟩
        | .returned (.error e) => ⟨some final_args, events, .error e⟩
        | .returned (.ok output) =>
          ⟨some final_args, events, .ok (truncateOutput output registry.max_output_bytes)⟩

/-- `execute_with_context`. -/
def executeWithContext (name : String) (args : Value) (context : ToolExecutionContext)
    (outcome : ToolOutcome) : ToolRun :=
  registry.executeWithPolicyAndContext name args (fun _ => .ok ()) context outcome

variable {registry} {name : String} {args : Value}
  {safety_gate : SafetyTier → Except ToolError Unit} {context : ToolExecutionContext}
  {outcome : ToolOutcome}

/-- What a call that reaches a tool has passed: the name is registered, and is not disallowed by a
policy that is enforced. -/
theorem executeWithPolicyAndContext_executed {a : Value}
    (h : (registry.executeWithPolicyAndContext name args safety_gate context outcome).executed =
      some a) :
    (∃ tool, registry.get name = some tool) ∧
      ∀ policy, context.policy = some policy → policy.rollout_mode = .enforce →
        name ∉ policy.disallowed_tools := by
  unfold executeWithPolicyAndContext at h
  split at h
  · simp at h
  · next tool hget =>
    refine ⟨⟨tool, hget⟩, fun policy hpolicy hmode hmem => ?_⟩
    have hblocked : checkDisallowed name context = .error (.policyViolation .toolDisallowed) := by
      simp only [checkDisallowed, hpolicy, if_pos hmem, hmode]
    rw [hblocked] at h
    simp at h

end ToolRegistry

end Oxydra
