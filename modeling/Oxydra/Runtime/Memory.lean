import Oxydra.Runtime.ContextBudget
import Oxydra.Library.Effect

/-!
# The memory of a session

What the runtime uses of a session's memory: the conversation events, stored under growing sequence
numbers, and the summary state, which is replaced by compare-and-set on its epoch (`store`,
`recall`, `read_summary_state`, and `write_summary_state` of `crates/memory/src/lib.rs`). An
operation may also fail for reasons of its own, such as the database; `faults` lists how the next
operations fare.
-/

namespace Oxydra

/-- The stored state of one session. -/
structure SessionMemory where
  /-- The conversation events, with their sequence numbers. -/
  records : List (ℕ × Message) := []
  summary_state : Option MemorySummaryState := none
  /-- Whether the next operations fail, and how; those beyond the list do not. -/
  faults : List (Option MemoryError) := []
  deriving DecidableEq

/-- An operation on a session's memory. -/
abbrev MemoryM := EStateM MemoryError SessionMemory

namespace SessionMemory

/-- The failure, if any, that the next operation meets. -/
def nextFault : MemoryM Unit := do
  let memory ← get
  match memory.faults with
  | [] => pure ()
  | fault :: faults =>
    set { memory with faults := faults }
    match fault with
    | some e => throw e
    | none => pure ()

/-- `store`: sequence numbers fit in an `i64` and grow. -/
def store (session_id : String) (sequence : ℕ) (payload : Message) : MemoryM Unit := do
  nextFault
  let memory ← get
  if 2^63 ≤ sequence then throw (.query "store sequence exceeds sqlite integer range")
  else
    match memory.records.getLast? with
    | some (max_sequence, _) =>
      if sequence ≤ max_sequence then
        throw (.query (s!"store sequence {sequence} must be greater than existing max sequence " ++
          s!"{max_sequence} for session `{session_id}`"))
      else set { memory with records := memory.records ++ [(sequence, payload)] }
    | none => set { memory with records := memory.records ++ [(sequence, payload)] }

/-- `recall` of the last event. -/
def recallLast (session_id : String) : MemoryM (ℕ × Message) := do
  nextFault
  let memory ← get
  match memory.records.getLast? with
  | some record => pure record
  | none => throw (.notFound session_id)

/-- `read_summary_state`. -/
def readSummaryState : MemoryM (Option MemorySummaryState) := do
  nextFault
  let memory ← get
  pure memory.summary_state

/-- `write_summary_state`: whether it was applied. -/
def writeSummaryState (expected_epoch : ℕ) (state : MemorySummaryState) : MemoryM Bool := do
  if state.epoch ≤ expected_epoch then
    throw (.query ("summary write next_epoch must be greater than expected_epoch; got " ++
      s!"expected_epoch={expected_epoch} next_epoch={state.epoch}"))
  else
    nextFault
    let memory ← get
    match memory.summary_state with
    | none =>
      if expected_epoch = 0 then
        set { memory with summary_state := some state }
        pure true
      else pure false
    | some existing =>
      if existing.epoch ≠ expected_epoch then pure false
      else if state.upper_sequence < existing.upper_sequence then
        throw (.query (s!"summary write upper_sequence must be monotonic; got " ++
          s!"{state.upper_sequence} but existing upper_sequence is {existing.upper_sequence}"))
      else
        set { memory with summary_state := some state }
        pure true

end SessionMemory

end Oxydra
