import Mathlib.Algebra.Order.BigOperators.Group.List
import Oxydra.Runtime.ContextBudget

/-!
# The fast path of the context budget

`is_obviously_within_budget` (`crates/runtime/src/budget.rs`) passes a context on whole when the
contents of its messages and its tool schemas take at most three bytes for each token. The slow path
counts the tokens of every message as it is serialised, with its role, its tool calls and their
arguments.

What the fast path accepts is within the limit, for every tokenizer that makes at most one token of
three bytes, exactly where the serialised texts are short enough (`fast_path_sound_iff`).
-/

namespace Oxydra

open List

namespace AgentRuntime

variable (rt : AgentRuntime) (context : Context) (max_context_tokens safety_buffer_tokens : ℕ)

/-- The accounting of the slow path for the whole context: the messages, the tool schemas, and the
safety buffer. -/
def exactTokens : Except RuntimeError ℕ := do
  let message_tokens ← rt.estimateMessagesTokens context.messages
  let tool_schema_tokens ← rt.estimateToolSchemaTokens context
  pure (U64.saturatingAdd (U64.saturatingAdd message_tokens tool_schema_tokens)
    safety_buffer_tokens)

/-- The runtime with another tokenizer. -/
def withTokenizer (count : String → ℕ) : AgentRuntime := { rt with count_tokens := some count }

/-- With every tokenizer that makes at most one token of three bytes, what the fast path accepts is
within the limit by the accounting of the slow path. -/
def FastPathSound : Prop :=
  ∀ count : String → ℕ, (∀ text, 3 * count text ≤ text.utf8ByteSize) →
    (rt.withTokenizer count).isObviouslyWithinBudget context max_context_tokens
      safety_buffer_tokens = true →
    ∃ total, (rt.withTokenizer count).exactTokens context safety_buffer_tokens = .ok total ∧
      total ≤ max_context_tokens

/-! ## The bytes -/

/-- The bytes that the fast path looks at. -/
def weighedBytes : ℕ :=
  U64.saturatingAdd (context.messages.map fun m => (m.content.getD "").utf8ByteSize).sum
    (rt.tools_json context.tools).utf8ByteSize

/-- The most tokens that the serialised texts can make. -/
def mostTokens : ℕ :=
  (context.messages.map fun m => (rt.message_json m).utf8ByteSize / 3).sum +
    (rt.tools_json context.tools).utf8ByteSize / 3

variable {rt context max_context_tokens safety_buffer_tokens}

/-- What the fast path accepts. -/
theorem isObviouslyWithinBudget_iff :
    rt.isObviouslyWithinBudget context max_context_tokens safety_buffer_tokens = true ↔
      (∀ m ∈ context.messages, m.attachments = []) ∧ safety_buffer_tokens < max_context_tokens ∧
        rt.weighedBytes context ≤
          min ((max_context_tokens - safety_buffer_tokens) * 3) U64.max := by
  simp only [isObviouslyWithinBudget, weighedBytes, Bool.and_eq_true, decide_eq_true_eq,
    all_eq_true, and_assoc, ne_eq, Nat.sub_eq_zero_iff_le, not_le]

/-! ## The accounting -/

/-- Saturating sums of the tokens of messages. -/
theorem foldlM_estimateMessageTokens {count : String → ℕ} :
    ∀ (messages : List Message) {accumulator : ℕ}, accumulator ≤ U64.max →
      messages.foldlM (fun accumulator message => do
          let tokens ← (rt.withTokenizer count).estimateMessageTokens message
          pure (U64.saturatingAdd accumulator tokens)) accumulator =
        (.ok (min (accumulator + (messages.map fun m => count (rt.message_json m)).sum) U64.max) :
          Except RuntimeError ℕ)
  | [], accumulator, hle => by
    rw [map_nil, sum_nil, Nat.add_zero, min_eq_left hle]
    rfl
  | m :: ms, accumulator, hle => by
    have hone : (do
        let tokens ← (rt.withTokenizer count).estimateMessageTokens m
        pure (U64.saturatingAdd accumulator tokens) : Except RuntimeError ℕ) =
        .ok (U64.saturatingAdd accumulator (count (rt.message_json m))) := rfl
    have hsat : U64.saturatingAdd accumulator (count (rt.message_json m)) ≤ U64.max :=
      min_le_right _ _
    rw [foldlM_cons, hone]
    refine (foldlM_estimateMessageTokens ms hsat).trans ?_
    rw [map_cons, sum_cons]
    unfold U64.saturatingAdd
    congr 1
    omega

/-- The accounting of the slow path is the sum of the tokens of the texts, as far as a word goes. -/
theorem exactTokens_eq (count : String → ℕ) :
    (rt.withTokenizer count).exactTokens context safety_buffer_tokens =
      .ok (U64.saturatingAdd ((context.messages.map fun m => count (rt.message_json m)).sum +
        count (rt.tools_json context.tools)) safety_buffer_tokens) := by
  have hmessages : (rt.withTokenizer count).estimateMessagesTokens context.messages =
      .ok (min (0 + (context.messages.map fun m => count (rt.message_json m)).sum) U64.max) :=
    foldlM_estimateMessageTokens context.messages (Nat.zero_le _)
  have htools : (rt.withTokenizer count).estimateToolSchemaTokens context =
      .ok (count (rt.tools_json context.tools)) := rfl
  unfold exactTokens
  rw [hmessages, htools]
  refine congrArg Except.ok ?_
  unfold U64.saturatingAdd
  omega

/-- A tokenizer makes the most tokens when it makes one of every three bytes. -/
theorem exactTokens_le_mostTokens {count : String → ℕ}
    (hratio : ∀ text, 3 * count text ≤ text.utf8ByteSize) :
    (context.messages.map fun m => count (rt.message_json m)).sum +
      count (rt.tools_json context.tools) ≤ rt.mostTokens context := by
  have hthird : ∀ text, count text ≤ text.utf8ByteSize / 3 := fun text => by
    have hle := hratio text
    omega
  unfold mostTokens
  exact Nat.add_le_add (sum_le_sum fun m _ => hthird _) (hthird _)

/-- The fast path is sound exactly where it must decline, for attachments, for the buffer, or for
the bytes that it looks at, or where the serialised texts at three bytes a token are within the
limit with the buffer. -/
theorem fast_path_sound_iff :
    FastPathSound rt context max_context_tokens safety_buffer_tokens ↔
      (∃ m ∈ context.messages, m.attachments ≠ []) ∨ max_context_tokens ≤ safety_buffer_tokens ∨
        min ((max_context_tokens - safety_buffer_tokens) * 3) U64.max < rt.weighedBytes context ∨
        U64.saturatingAdd (rt.mostTokens context) safety_buffer_tokens ≤ max_context_tokens := by
  constructor
  · intro hsound
    by_contra! hnone
    obtain ⟨hattached, hbuffer, hbytes, hover⟩ := hnone
    -- the tokenizer that makes the most of the texts
    obtain ⟨total, htotal, hle⟩ := hsound (fun text => text.utf8ByteSize / 3)
      (fun text => Nat.mul_div_le _ _)
      (isObviouslyWithinBudget_iff.mpr ⟨hattached, hbuffer, hbytes⟩)
    rw [exactTokens_eq] at htotal
    exact absurd (Except.ok.inj htotal ▸ hle) (not_le.mpr hover)
  · intro hcases count hratio hfast
    obtain ⟨hattached, hbuffer, hbytes⟩ := isObviouslyWithinBudget_iff.mp hfast
    refine ⟨_, exactTokens_eq count, ?_⟩
    obtain ⟨m, hm, hne⟩ | hle | hlt | hfits := hcases
    · exact absurd (hattached m hm) hne
    · exact absurd hle (not_le.mpr hbuffer)
    · exact absurd hbytes (not_le.mpr hlt)
    · refine le_trans ?_ hfits
      unfold U64.saturatingAdd
      exact min_le_min_right _ (Nat.add_le_add_right (exactTokens_le_mostTokens hratio) _)

/-- A question, and a reply that is a call with a long argument. -/
def longCall : Context where
  provider := "openai"
  model := "gpt-4o"
  messages :=
    [{ role := .user, content := some "write it down" },
      { role := .assistant
        tool_calls := [⟨"c1", "file_write", .object [("content",
          .string (String.join (List.replicate 80 "data ")))], none⟩] }]

/-- The fast path accepts it for a limit of 60 tokens; at four bytes a token it takes more than
100. -/
theorem longCall_accepted : ¬FastPathSound (smallRuntime 60 false) longCall 60 0 ∧
    (smallRuntime 60 false).isObviouslyWithinBudget longCall 60 0 = true := by
  have hfast : (smallRuntime 60 false).isObviouslyWithinBudget longCall 60 0 = true := by
    decide
  refine ⟨fun hsound => ?_, hfast⟩
  obtain ⟨total, htotal, hle⟩ := hsound (fun text => text.utf8ByteSize / 4)
    (fun text => by omega) hfast
  have hover : ((smallRuntime 60 false).withTokenizer fun text => text.utf8ByteSize / 4).exactTokens
      longCall 0 = .ok 133 := by
    decide +kernel
  rw [hover] at htotal
  cases htotal
  omega

end AgentRuntime

end Oxydra
