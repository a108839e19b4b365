import Oxydra.Gateway.Sessions
import Oxydra.Library.Occurrences
import Oxydra.Runtime.Delegation

/-!
# The depth of a chain of delegations

`calculate_delegation_depth` (`crates/runtime/src/delegation.rs`) counts a marker in a session id.
`delegate` puts one marker before the id of the parent session, and a fresh UUID after it; the first
id of a chain is the gateway's (`crates/gateway/src/lib.rs`): a UUID, or `default_session_id` of the
user. `depth_exact_iff` says for which first ids the count is the depth: the id must not have the
marker, and must not end in the marker's name, which the colon that is put after it completes.
-/

namespace Oxydra

open List

/-- The characters of a hyphenated UUID. -/
def isUuidChar (c : Char) : Bool := c.isDigit || ('a' ≤ c && c ≤ 'f') || c == '-'

/-- A UUID as `to_string` writes it. -/
structure Uuid where
  text : String
  chars : text.toList.all isUuidChar
  length : text.toList.length = 36

/-- The session id of a delegated run. -/
def subagentSessionId (parent_session_id : String) (uuid : Uuid) : String :=
  s!"subagent:{parent_session_id}:{uuid.text}"

/-- The session ids along a chain of delegations. -/
def delegationChain (root : String) (uuids : ℕ → Uuid) : ℕ → String
  | 0 => root
  | n + 1 => subagentSessionId (delegationChain root uuids n) (uuids n)

/-! ## Counting -/

/-- The marker without its colon. -/
def subagentName : List Char := ['s', 'u', 'b', 'a', 'g', 'e', 'n', 't']

theorem subagent_name : "subagent".toList = subagentName := by decide

theorem subagent_marker : "subagent:".toList = subagentName ++ [':'] := by decide

theorem colon_not_mem_subagentName : ':' ∉ subagentName := by decide

/-- A UUID and a colon have no `s`, so the marker is not among them. -/
theorem countFrom_uuid (uuid : Uuid) (rest : List Char) (hrest : 's' ∉ rest) :
    Text.countFrom (subagentName ++ [':']) 0 (uuid.text.toList ++ rest) = 0 := by
  have hmem : 's' ∈ subagentName ++ [':'] := by decide
  refine Text.countFrom_eq_zero_of_not_mem hmem fun h => ?_
  obtain h | h := mem_append.mp h
  · have hchar := all_eq_true.mp uuid.chars 's' h
    exact absurd hchar (by decide)
  · exact hrest h

/-- The markers of a text when a colon is put after it. -/
def markersBeforeColon (text : String) : ℕ :=
  Text.countFrom (subagentName ++ [':']) 0 (text.toList ++ [':'])

theorem toList_subagentSessionId (parent_session_id : String) (uuid : Uuid) :
    (subagentSessionId parent_session_id uuid).toList =
      [] ++ subagentName ++ [':'] ++ (parent_session_id.toList ++ [':'] ++ uuid.text.toList) := by
  have htext : (subagentSessionId parent_session_id uuid).toList =
      "subagent:".toList ++ parent_session_id.toList ++ ":".toList ++ uuid.text.toList := by
    simp only [subagentSessionId, toString, String.toList_append]
  rw [htext, subagent_marker]
  simp only [append_assoc, nil_append]
  rfl

/-- A delegation adds one marker, and completes one that ends the parent's id. -/
theorem countFrom_subagentSessionId (parent_session_id : String) (uuid : Uuid) (rest : List Char)
    (hrest : 's' ∉ rest) :
    Text.countFrom (subagentName ++ [':']) 0
        ((subagentSessionId parent_session_id uuid).toList ++ rest) =
      1 + markersBeforeColon parent_session_id := by
  have hone : Text.countFrom (subagentName ++ [':']) 0 (subagentName ++ [':']) = 1 := by decide
  rw [toList_subagentSessionId, nil_append, append_assoc _ _ rest,
    Text.countFrom_append colon_not_mem_subagentName _ _ _ (Nat.zero_le _), hone,
    append_assoc _ _ rest,
    Text.countFrom_append colon_not_mem_subagentName _ _ _ (Nat.zero_le _),
    countFrom_uuid uuid rest hrest, markersBeforeColon, Nat.add_zero]

/-- Along a chain every delegation adds one. -/
theorem markersBeforeColon_delegationChain (root : String) (uuids : ℕ → Uuid) (n : ℕ) :
    markersBeforeColon (delegationChain root uuids n) = n + markersBeforeColon root := by
  induction n with
  | zero => rw [Nat.zero_add]; rfl
  | succ n ih =>
    have hstep := countFrom_subagentSessionId (delegationChain root uuids n) (uuids n) [':']
      (by decide)
    calc markersBeforeColon (delegationChain root uuids (n + 1))
        = 1 + markersBeforeColon (delegationChain root uuids n) := hstep
      _ = n + 1 + markersBeforeColon root := by omega

/-- The depth that is counted below the first session of a chain. -/
theorem calculateDelegationDepth_delegationChain (root : String) (uuids : ℕ → Uuid) (n : ℕ) :
    calculateDelegationDepth (delegationChain root uuids (n + 1)) =
      n + 1 + markersBeforeColon root := by
  have hstep := countFrom_subagentSessionId (delegationChain root uuids n) (uuids n) [] (by simp)
  rw [append_nil, markersBeforeColon_delegationChain] at hstep
  unfold calculateDelegationDepth Text.countMatches
  rw [subagent_marker]
  exact hstep.trans (by omega)

/-- There is none exactly where the text has no marker and does not end in its name. -/
theorem markersBeforeColon_eq_zero_iff (text : String) : markersBeforeColon text = 0 ↔
    ¬"subagent:".toList <:+: text.toList ∧ ¬"subagent".toList <:+ text.toList := by
  unfold markersBeforeColon
  have hsuffix : subagentName ++ [':'] <:+ text.toList ++ [':'] ↔ subagentName <:+ text.toList := by
    rw [suffix_concat_iff]
    simp
  rw [Text.countFrom_eq_zero_iff (by simp), infix_concat_iff, not_or, and_comm, hsuffix,
    subagent_marker, subagent_name]

/-! ## The depth -/

/-- Below a first session the depth is counted as it is, and an enforced limit refuses exactly the
delegations past the deepest level. -/
structure DepthExact (root : String) : Prop where
  depth : ∀ (uuids : ℕ → Uuid) (n : ℕ),
    calculateDelegationDepth (delegationChain root uuids n) = n
  limit : ∀ (uuids : ℕ → Uuid) (n : ℕ) (request : DelegationRequest),
    request.parent_session_id = delegationChain root uuids n →
    (∀ p, request.parent_policy = some p → p.rollout_mode = .enforce) →
    (depthBlocks request = true ↔ maxDelegationDepth ≤ n)

/-- The limit compares the depth that is counted. -/
theorem depthBlocks_iff {request : DelegationRequest}
    (henforce : ∀ p, request.parent_policy = some p → p.rollout_mode = .enforce) :
    depthBlocks request = true ↔
      maxDelegationDepth ≤ calculateDelegationDepth request.parent_session_id := by
  unfold depthBlocks
  cases hp : request.parent_policy with
  | none => simp
  | some p => simp [henforce p hp]

/-- A UUID of zeros. -/
def zeroUuid : Uuid where
  text := "00000000-0000-0000-0000-000000000000"
  chars := by decide
  length := by decide

/-- The depth is exact exactly where no marker is there before the first delegation. -/
theorem depthExact_iff_markers (root : String) :
    DepthExact root ↔ markersBeforeColon root = 0 := by
  constructor
  · intro h
    have hone := h.depth (fun _ => zeroUuid) 1
    rw [calculateDelegationDepth_delegationChain] at hone
    omega
  · intro hzero
    have hdepth : ∀ (uuids : ℕ → Uuid) (n : ℕ),
        calculateDelegationDepth (delegationChain root uuids n) = n := by
      intro uuids n
      cases n with
      | zero =>
        have hroot := ((markersBeforeColon_eq_zero_iff root).mp hzero).1
        exact (Text.countFrom_eq_zero_iff (by simp) _).mpr hroot
      | succ n => rw [calculateDelegationDepth_delegationChain, hzero]
    refine ⟨hdepth, fun uuids n request hid henforce => ?_⟩
    rw [depthBlocks_iff henforce, hid, hdepth]

/-- The depth is exact exactly below a session id that has no marker and does not end in the
marker's name. -/
theorem depth_exact_iff (root : String) : DepthExact root ↔
    ¬"subagent:".toList <:+: root.toList ∧ ¬"subagent".toList <:+ root.toList := by
  rw [depthExact_iff_markers, markersBeforeColon_eq_zero_iff]

/-- Below the default session of the user `subagent` the first delegation is counted as two, and the
fifth is refused, which is the deepest that the limit is to allow. -/
theorem fused_marker_counted :
    ¬DepthExact (defaultSessionId "subagent") ∧
      calculateDelegationDepth
        (delegationChain (defaultSessionId "subagent") (fun _ => zeroUuid) 1) = 2 ∧
      depthBlocks
        { parent_session_id :=
            delegationChain (defaultSessionId "subagent") (fun _ => zeroUuid) 4
          parent_user_id := "subagent"
          agent_name := "researcher"
          goal := "look it up" } = true := by
  have hmarkers : markersBeforeColon (defaultSessionId "subagent") = 1 := by decide
  refine ⟨fun h => ?_, ?_, ?_⟩
  · have hzero := (depthExact_iff_markers _).mp h
    omega
  · rw [calculateDelegationDepth_delegationChain, hmarkers]
  · rw [depthBlocks_iff (by simp), calculateDelegationDepth_delegationChain, hmarkers]
    decide

end Oxydra
