import Mathlib.Data.List.Basic

/-!
# Lines that come in chunks

A reader keeps the part of a line that no separator has ended yet, and hands each whole line to a
state machine. The rest counts as a line at the end, if there is one.

However a stream is cut into chunks, the machine sees the lines of the whole (`run_eq`). Where lines
are collected into groups that blank lines end, the run is that of the groups (`feed_groups`).
-/

namespace LineStream

open List

variable {α σ ε error : Type} [DecidableEq α]

/-! ## Lines -/

/-- The lines of a stream: each part that a separator ends, and the rest if it is not empty. -/
def linesOf (sep : α) (stream : List α) : List (List α) :=
  let parts := stream.splitOn sep
  if parts.getLast? = some [] then parts.dropLast else parts

/-- A stream without a separator is one line. -/
theorem linesOf_of_not_mem {sep : α} {stream : List α} (h : sep ∉ stream) :
    linesOf sep stream = if stream = [] then [] else [stream] := by
  unfold linesOf
  rw [splitOn_eq_singleton h]
  simp

/-- The part before a separator is a line. -/
theorem linesOf_append_cons {sep : α} {line : List α} (h : sep ∉ line) (stream : List α) :
    linesOf sep (line ++ sep :: stream) = line :: linesOf sep stream := by
  unfold linesOf
  rw [splitOn_append_cons_self_of_not_mem h]
  obtain ⟨part, parts, hparts⟩ := exists_cons_of_ne_nil (splitOn_ne_nil sep stream)
  rw [hparts]
  dsimp only
  rw [List.getLast?_cons_cons, dropLast_cons_cons]
  split_ifs <;> rfl

/-! ## Readers -/

/-- The part of a line that is not ended, and the state behind the lines before it. -/
structure Reader (α σ : Type) where
  line_buffer : List α
  state : σ

variable (sep : α) (processLine : σ → List α → Except error (σ × List ε)) (flush : σ → List ε)

/-- A chunk, element by element. -/
def pushChunk : Reader α σ → List α → Except error (Reader α σ × List ε)
  | reader, [] => return (reader, [])
  | reader, x :: xs =>
    if x = sep then do
      let (state, events) ← processLine reader.state reader.line_buffer
      let (reader, more) ← pushChunk ⟨[], state⟩ xs
      return (reader, events ++ more)
    else pushChunk ⟨reader.line_buffer ++ [x], reader.state⟩ xs

/-- The end of the stream. -/
def finish (reader : Reader α σ) : Except error (List ε) :=
  if reader.line_buffer = [] then return flush reader.state
  else do
    let (state, events) ← processLine reader.state reader.line_buffer
    return events ++ flush state

/-- The chunks of a stream and its end, as far as no line fails. -/
def run : Reader α σ → List (List α) → Except error (List ε)
  | reader, [] => finish processLine flush reader
  | reader, chunk :: chunks => do
    let (reader, events) ← pushChunk sep processLine reader chunk
    let more ← run reader chunks
    return events ++ more

/-- Whole lines and the end. -/
def feed : σ → List (List α) → Except error (List ε)
  | state, [] => return flush state
  | state, line :: lines => do
    let (state, events) ← processLine state line
    let more ← feed state lines
    return events ++ more

/-! ## Chunks -/

theorem ok_bind {β γ : Type} (b : β) (f : β → Except error γ) : (.ok b >>= f) = f b := rfl

section

variable (reader : Reader α σ)

/-- The rest of a line that is never ended. -/
theorem finish_eq (h : sep ∉ reader.line_buffer) :
    finish processLine flush reader =
      feed processLine flush reader.state (linesOf sep reader.line_buffer) := by
  rw [linesOf_of_not_mem h, finish]
  split_ifs
  · rfl
  · rw [feed]
    simp only [feed, pure_bind]

/-- A chunk in two parts. -/
theorem pushChunk_append (xs ys : List α) :
    pushChunk sep processLine reader (xs ++ ys) = (do
      let (reader, events) ← pushChunk sep processLine reader xs
      let (reader, more) ← pushChunk sep processLine reader ys
      return (reader, events ++ more)) := by
  induction xs generalizing reader with
  | nil =>
    simp only [nil_append, pushChunk, pure_bind]
    exact (bind_pure _).symm
  | cons x xs ih =>
    rw [cons_append, pushChunk, pushChunk]
    split_ifs
    · cases processLine reader.state reader.line_buffer with
      | error e => rfl
      | ok result =>
        obtain ⟨state, events⟩ := result
        simp only [ih, bind_assoc, pure_bind, append_assoc]
    · rw [ih]

/-- The chunks of a stream give what the whole stream gives in one. -/
theorem run_flatten (chunks : List (List α)) :
    run sep processLine flush reader chunks = run sep processLine flush reader [chunks.flatten] := by
  induction chunks generalizing reader with
  | nil =>
    simp only [run, flatten_nil, pushChunk, pure_bind, nil_append, bind_pure]
  | cons chunk chunks ih =>
    simp only [run, flatten_cons, pushChunk_append, bind_assoc, pure_bind, append_assoc]
    simp only [ih, run, bind_assoc, pure_bind]

/-- However a stream is cut into chunks, the machine sees the lines of the whole. -/
theorem run_eq (h : sep ∉ reader.line_buffer) (chunks : List (List α)) :
    run sep processLine flush reader chunks =
      feed processLine flush reader.state
        (linesOf sep (reader.line_buffer ++ chunks.flatten)) := by
  rw [run_flatten]
  generalize chunks.flatten = stream
  simp only [run]
  induction stream generalizing reader with
  | nil =>
    rw [append_nil, ← finish_eq sep processLine flush reader h]
    simp only [pushChunk, pure_bind, nil_append, bind_pure]
  | cons x xs ih =>
    rw [pushChunk]
    split_ifs with hx
    · -- the line ends here
      subst hx
      rw [linesOf_append_cons h, feed]
      cases processLine reader.state reader.line_buffer with
      | error e => rfl
      | ok result =>
        obtain ⟨state, events⟩ := result
        have hrest := ih ⟨[], state⟩ not_mem_nil
        rw [nil_append] at hrest
        simp only [ok_bind, ← hrest, bind_assoc, pure_bind, append_assoc]
    · have hmore : sep ∉ reader.line_buffer ++ [x] := by
        rw [mem_append, mem_singleton]
        exact not_or.mpr ⟨h, Ne.symm hx⟩
      rw [ih _ hmore, append_assoc]
      rfl

end

/-! ## Groups -/

/-- The parts of a list that blank elements end, each with what comes of it. -/
def groups {κ : Type} (blank : κ → Bool) (out : List κ → Option ε) (lines : List κ) : List ε :=
  (lines.splitOnP blank).filterMap out

variable {κ : Type} {processLine flush} {kind : List α → κ} {blank : κ → Bool}
  {out : List κ → Option ε} {summary : List κ → σ}

omit [DecidableEq α] in
/-- A machine whose state sums up the group that it is in gives what comes of the groups. -/
theorem feed_groups (hflush : ∀ group, flush (summary group) = (out group).toList)
    {lines : List (List α)}
    (hblank : ∀ group, ∀ line ∈ lines, blank (kind line) = true →
      processLine (summary group) line = .ok (summary [], (out group).toList))
    (hmore : ∀ group, ∀ line ∈ lines, blank (kind line) = false →
      processLine (summary group) line = .ok (summary (group ++ [kind line]), []))
    {group : List κ} (hgroup : ∀ line ∈ group, blank line = false) :
    feed processLine flush (summary group) lines =
      .ok (groups blank out (group ++ lines.map kind)) := by
  induction lines generalizing group with
  | nil =>
    rw [feed, map_nil, append_nil, groups, splitOnP_eq_singleton hgroup, hflush]
    cases hout : out group <;> simp [hout] <;> rfl
  | cons line lines ih =>
    have hrest {group : List κ} := @ih
      (fun group other hother => hblank group other (mem_cons_of_mem _ hother))
      (fun group other hother => hmore group other (mem_cons_of_mem _ hother)) group
    rw [feed, map_cons]
    cases hkind : blank (kind line) with
    | true =>
      have hsplit : groups blank out (group ++ kind line :: lines.map kind) =
          (out group).toList ++ groups blank out (lines.map kind) := by
        unfold groups
        rw [splitOnP_append_cons_of_forall_mem hgroup _ hkind, filterMap_cons]
        cases out group <;> rfl
      rw [hblank group line mem_cons_self hkind, hsplit]
      have hnil := @hrest [] nofun
      rw [nil_append] at hnil
      simp only [ok_bind, hnil]
      rfl
    | false =>
      rw [hmore group line mem_cons_self hkind]
      have hnext := @hrest (group ++ [kind line]) fun other hother => by
        rcases mem_append.mp hother with hold | hnew
        · exact hgroup other hold
        · rwa [mem_singleton.mp hnew]
      rw [append_assoc, singleton_append] at hnext
      simp only [ok_bind, hnext]
      rfl

variable (kind blank out summary)

/-- Such a machine gives the groups of the lines of a stream, however it is cut. -/
theorem run_groups (sep : α) (chunks : List (List α))
    (hflush : ∀ group, flush (summary group) = (out group).toList)
    (hblank : ∀ group, ∀ line ∈ linesOf sep chunks.flatten, blank (kind line) = true →
      processLine (summary group) line = .ok (summary [], (out group).toList))
    (hmore : ∀ group, ∀ line ∈ linesOf sep chunks.flatten, blank (kind line) = false →
      processLine (summary group) line = .ok (summary (group ++ [kind line]), [])) :
    run sep processLine flush ⟨[], summary []⟩ chunks =
      .ok (groups blank out ((linesOf sep chunks.flatten).map kind)) := by
  rw [run_eq _ _ _ _ not_mem_nil]
  exact feed_groups hflush hblank hmore nofun

end LineStream
