import Oxydra.Runtime.ProviderResponse

/-!
# Tool calls of an Anthropic stream

`AnthropicToolCallAccumulator` of `crates/provider/src/anthropic.rs` maps the content blocks of a
stream to the ordinals of its tool calls. `start_tool` gives the block the next ordinal, and
`append_json` gives it one where it has none, for a fragment that comes before the start of its
block.

`run_iff`: the ordinals follow the order in which the blocks are first seen, and the runtime
assembles for each block its id, its name and its fragments, exactly where no block is started after
another event of it. A block that is started late gets a second ordinal, and becomes two calls.
-/

namespace Oxydra

open List

/-! ## The accumulator -/

structure AnthropicToolCallEntry where
  id : Option String := none
  name : Option String := none
  arguments : String := ""
  deriving DecidableEq, Repr

structure AnthropicToolCallAccumulator where
  by_block_index : List (ℕ × AnthropicToolCallEntry) := []
  block_to_ordinal : List (ℕ × ℕ) := []
  next_ordinal : ℕ := 0
  deriving DecidableEq, Repr

namespace AnthropicToolCallAccumulator

/-- `start_tool`. -/
def startTool (acc : AnthropicToolCallAccumulator) (block_index : ℕ) (id name : Option String) :
    ToolCallDelta × AnthropicToolCallAccumulator :=
  let ordinal := acc.next_ordinal
  ({ index := ordinal, id, name },
    { by_block_index := Fields.insert block_index { id, name } acc.by_block_index
      block_to_ordinal := Fields.insert block_index ordinal acc.block_to_ordinal
      next_ordinal := acc.next_ordinal + 1 })

/-- `append_json`. -/
def appendJson (acc : AnthropicToolCallAccumulator) (block_index : ℕ) (partial_json : String) :
    ToolCallDelta × AnthropicToolCallAccumulator :=
  let (ordinal, acc) :=
    match acc.block_to_ordinal.lookup block_index with
    | some ordinal => (ordinal, acc)
    | none =>
      (acc.next_ordinal,
        { acc with
          block_to_ordinal := Fields.insert block_index acc.next_ordinal acc.block_to_ordinal
          next_ordinal := acc.next_ordinal + 1 })
  let entry := (acc.by_block_index.lookup block_index).getD {}
  let entry := { entry with arguments := entry.arguments ++ partial_json }
  ({ index := ordinal
     id := entry.id
     name := entry.name
     arguments := if partial_json = "" then none else some partial_json },
    { acc with by_block_index := Fields.insert block_index entry acc.by_block_index })

end AnthropicToolCallAccumulator

/-- The calls of the accumulator. -/
inductive ToolBlockEvent where
  | startTool (block_index : ℕ) (id name : Option String)
  | appendJson (block_index : ℕ) (partial_json : String)
  deriving DecidableEq, Repr

namespace ToolBlockEvent

def block : ToolBlockEvent → ℕ
  | startTool block_index _ _ => block_index
  | appendJson block_index _ => block_index

@[simp] theorem block_startTool (b : ℕ) (id name : Option String) :
    (startTool b id name).block = b := rfl

@[simp] theorem block_appendJson (b : ℕ) (partial_json : String) :
    (appendJson b partial_json).block = b := rfl

/-- One call. -/
def call (acc : AnthropicToolCallAccumulator) :
    ToolBlockEvent → ToolCallDelta × AnthropicToolCallAccumulator
  | startTool block_index id name => acc.startTool block_index id name
  | appendJson block_index partial_json => acc.appendJson block_index partial_json

/-- Calls one after the other, with their deltas. -/
def run (events : List ToolBlockEvent) : List ToolCallDelta × AnthropicToolCallAccumulator :=
  events.foldl (fun done event =>
    let (delta, acc) := event.call done.2
    (done.1 ++ [delta], acc)) ([], {})

/-- One more event. -/
theorem run_concat (events : List ToolBlockEvent) (event : ToolBlockEvent) :
    run (events ++ [event]) =
      ((run events).1 ++ [(event.call (run events).2).1], (event.call (run events).2).2) := by
  unfold run
  rw [foldl_append, foldl_cons, foldl_nil]

/-! ## Blocks -/

section

variable (events : List ToolBlockEvent)

/-- The blocks of a stream, in the order in which they are first seen. -/
def blocks : List ℕ := (events.map block).eraseDups

/-- What the start of a block says of its id and its name, in the first one if there are several. -/
def started (b : ℕ) : Option (Option String × Option String) :=
  events.findSome? fun
    | startTool block_index id name => if block_index = b then some (id, name) else none
    | appendJson _ _ => none

/-- The fragments of a block, one after the other. -/
def fragments (b : ℕ) : String :=
  String.join (events.map fun
    | startTool _ _ _ => ""
    | appendJson block_index partial_json => if block_index = b then partial_json else "")

/-- The entry of a block: its id, its name and its fragments. -/
def assembled (b : ℕ) : ToolCallAccumulatorEntry where
  id := (started events b).bind Prod.fst
  name := (started events b).bind Prod.snd
  arguments := fragments events b

end

/-- The ordinals are 0, 1, 2 and so on in the order in which the blocks are first seen, each delta
has the ordinal of its block, and under each ordinal the runtime assembles its block and nothing
else. -/
structure FollowsBlocks (events : List ToolBlockEvent) (deltas : List ToolCallDelta) : Prop where
  ordinals : deltas.map ToolCallDelta.index =
    events.map fun event => (blocks events).idxOf event.block
  assembles : ∀ ordinal, (accumulate deltas).lookup ordinal =
    (blocks events)[ordinal]?.map (assembled events)

/-- No block is started after another event of it. -/
def StartsFirst (events : List ToolBlockEvent) : Prop :=
  ∀ before b id name after, events = before ++ startTool b id name :: after →
    b ∉ before.map block

/-! ## One more event -/

section

variable {events : List ToolBlockEvent} {event : ToolBlockEvent} {b : ℕ}

/-- The blocks that events are about. -/
theorem mem_blocks : b ∈ blocks events ↔ ∃ event ∈ events, event.block = b := by
  unfold blocks
  rw [mem_eraseDups, mem_map]

/-- A new block comes behind the others. -/
theorem blocks_concat (events : List ToolBlockEvent) (event : ToolBlockEvent) :
    blocks (events ++ [event]) =
      if event.block ∈ blocks events then blocks events else blocks events ++ [event.block] := by
  unfold blocks
  rw [map_append, eraseDups_append]
  by_cases hseen : event.block ∈ events.map block
  · rw [if_pos (mem_eraseDups.mpr hseen)]
    simp [List.removeAll, mem_map.mp hseen]
  · rw [if_neg (mt mem_eraseDups.mp hseen)]
    simp [List.removeAll, mt mem_map.mpr hseen, eraseDups_cons]

/-- No block is there twice. -/
theorem nodup_blocks (events : List ToolBlockEvent) : (blocks events).Nodup := by
  induction events using List.reverseRecOn with
  | nil => exact nodup_nil
  | append_singleton events event ih =>
    rw [blocks_concat]
    split_ifs with hseen
    · exact ih
    · exact concat_eq_append ▸ ih.concat hseen

/-- The ordinal of a block stays. -/
theorem idxOf_blocks_concat (hseen : b ∈ blocks events) :
    (blocks (events ++ [event])).idxOf b = (blocks events).idxOf b := by
  rw [blocks_concat]
  split_ifs
  · rfl
  · exact idxOf_append_of_mem hseen

/-- A block that is first seen gets the next ordinal. -/
theorem idxOf_blocks_new (hnew : event.block ∉ blocks events) :
    (blocks (events ++ [event])).idxOf event.block = (blocks events).length := by
  rw [blocks_concat, if_neg hnew, idxOf_append, if_neg hnew]
  simp

/-- A block starts once. -/
theorem started_concat :
    started (events ++ [event]) b = (started events b).or (started [event] b) := by
  unfold started
  rw [List.findSome?_append]

/-- A fragment comes behind the others. -/
theorem fragments_concat :
    fragments (events ++ [event]) b = fragments events b ++ fragments [event] b := by
  unfold fragments
  rw [map_append, String.join_append]

/-- The fragment of an event. -/
theorem fragments_singleton : fragments [event] b =
    match event with
    | startTool _ _ _ => ""
    | appendJson block_index partial_json => if block_index = b then partial_json else "" := by
  cases event <;> simp [fragments, String.join]

/-- An event of one block changes no other. -/
theorem assembled_concat_of_ne (hne : event.block ≠ b) :
    assembled (events ++ [event]) b = assembled events b := by
  have hstarted : started [event] b = none := by
    cases event with
    | startTool block_index id name => simpa [started] using hne
    | appendJson block_index partial_json => rfl
  have hfragments : fragments [event] b = "" := by
    rw [fragments_singleton]
    cases event with
    | startTool block_index id name => rfl
    | appendJson block_index partial_json => exact if_neg hne
  unfold assembled
  rw [started_concat, fragments_concat, hstarted, hfragments, Option.or_none, String.append_empty]

/-- Nothing is known of a block that has not been seen. -/
theorem assembled_of_not_mem (hnew : b ∉ blocks events) : assembled events b = {} := by
  induction events using List.reverseRecOn with
  | nil => rfl
  | append_singleton events event ih =>
    have hevents : b ∉ blocks events := fun hmem => by
      obtain ⟨event', hmem, hblock⟩ := mem_blocks.mp hmem
      exact hnew (mem_blocks.mpr ⟨event', mem_append_left _ hmem, hblock⟩)
    have hevent : event.block ≠ b := fun hblock =>
      hnew (mem_blocks.mpr ⟨event, by simp, hblock⟩)
    rw [assembled_concat_of_ne hevent, ih hevents]

/-- The start of a block that is new says all that is known of it. -/
theorem assembled_start (id name : Option String) (hnew : b ∉ blocks events) :
    assembled (events ++ [startTool b id name]) b = { id, name } := by
  have hnone := assembled_of_not_mem hnew
  have hstarted : started events b = none := by
    refine List.findSome?_eq_none_iff.mpr fun event hmem => ?_
    have hblock : event.block ≠ b := fun hblock => hnew (mem_blocks.mpr ⟨event, hmem, hblock⟩)
    cases event with
    | startTool block_index id name => exact if_neg hblock
    | appendJson block_index partial_json => rfl
  have hfragments : fragments events b = "" := congrArg ToolCallAccumulatorEntry.arguments hnone
  unfold assembled
  rw [started_concat, fragments_concat, hstarted, hfragments, fragments_singleton]
  simp [started]

/-- A fragment is put behind the others of its block. -/
theorem assembled_append (events : List ToolBlockEvent) (b : ℕ) (partial_json : String) :
    assembled (events ++ [appendJson b partial_json]) b =
      { assembled events b with arguments := (assembled events b).arguments ++ partial_json } := by
  unfold assembled
  rw [started_concat, fragments_concat, fragments_singleton]
  simp [started]

end

/-! ## Runs -/

/-- An accumulator knows the ordinals and the entries of the blocks that it has seen. -/
structure Records (events : List ToolBlockEvent) (acc : AnthropicToolCallAccumulator) : Prop where
  next : acc.next_ordinal = (blocks events).length
  ordinal : ∀ b, acc.block_to_ordinal.lookup b =
    if b ∈ blocks events then some ((blocks events).idxOf b) else none
  entry : ∀ b, (acc.by_block_index.lookup b).getD {} =
    ⟨(assembled events b).id, (assembled events b).name, (assembled events b).arguments⟩

section

variable {events : List ToolBlockEvent} {acc : AnthropicToolCallAccumulator}

/-- The blocks with one more event. -/
theorem mem_blocks_concat {event : ToolBlockEvent} {b : ℕ} :
    b ∈ blocks (events ++ [event]) ↔ b = event.block ∨ b ∈ blocks events := by
  rw [blocks_concat]
  split_ifs with hseen
  · exact ⟨.inr, fun h => h.elim (fun h => h ▸ hseen) id⟩
  · rw [mem_append, mem_singleton, or_comm]

/-- The table of ordinals with the next one for a new block is that of one more event. -/
theorem Records.ordinal_insert (h : Records events acc) {event : ToolBlockEvent}
    (hnew : event.block ∉ blocks events) (b : ℕ) :
    (Fields.insert event.block acc.next_ordinal acc.block_to_ordinal).lookup b =
      if b ∈ blocks (events ++ [event]) then some ((blocks (events ++ [event])).idxOf b)
      else none := by
  rw [Fields.lookup_insert]
  by_cases hb : b = event.block
  · rw [if_pos hb, if_pos (mem_blocks_concat.mpr (.inl hb)), hb, idxOf_blocks_new hnew, h.next]
  · rw [if_neg hb, h.ordinal]
    by_cases hseen : b ∈ blocks events
    · rw [if_pos hseen, if_pos (mem_blocks_concat.mpr (.inr hseen)), idxOf_blocks_concat hseen]
    · rw [if_neg hseen, if_neg (mt mem_blocks_concat.mp (not_or.mpr ⟨hb, hseen⟩))]

/-- The entry of an event's block is replaced, the others stay. -/
theorem Records.entry_insert (h : Records events acc) (event : ToolBlockEvent)
    (entry : AnthropicToolCallEntry)
    (hentry : entry = ⟨(assembled (events ++ [event]) event.block).id,
      (assembled (events ++ [event]) event.block).name,
      (assembled (events ++ [event]) event.block).arguments⟩) (b : ℕ) :
    ((Fields.insert event.block entry acc.by_block_index).lookup b).getD {} =
      ⟨(assembled (events ++ [event]) b).id, (assembled (events ++ [event]) b).name,
        (assembled (events ++ [event]) b).arguments⟩ := by
  rw [Fields.lookup_insert]
  by_cases hb : b = event.block
  · rw [if_pos hb, Option.getD_some, hentry, hb]
  · rw [if_neg hb, h.entry, assembled_concat_of_ne (Ne.symm hb)]

/-- A call whose event is no late start gives its delta the ordinal of its block, and the runtime
makes of the delta what is assembled of one more event. -/
theorem Records.call (h : Records events acc) (event : ToolBlockEvent)
    (hfirst : ∀ b id name, event = startTool b id name → b ∉ blocks events) :
    (event.call acc).1.index = (blocks (events ++ [event])).idxOf event.block ∧
      (assembled events event.block).merge (event.call acc).1 =
        assembled (events ++ [event]) event.block ∧
      Records (events ++ [event]) (event.call acc).2 := by
  have hlength : event.block ∉ blocks events →
      acc.next_ordinal + 1 = (blocks (events ++ [event])).length := by
    intro hnew
    rw [blocks_concat, if_neg hnew, length_append, h.next]
    rfl
  cases event with
  | startTool b id name =>
    have hnew : (startTool b id name).block ∉ blocks events := hfirst b id name rfl
    have hassembled : assembled (events ++ [startTool b id name]) (startTool b id name).block =
        { id, name } := assembled_start id name hnew
    have hentry := h.entry_insert (startTool b id name) { id, name } (by rw [hassembled])
    refine ⟨h.next.trans (idxOf_blocks_new hnew).symm, ?_, hlength hnew, h.ordinal_insert hnew,
      hentry⟩
    rw [assembled_of_not_mem hnew, hassembled]
    simp [ToolBlockEvent.call, AnthropicToolCallAccumulator.startTool,
      ToolCallAccumulatorEntry.merge]
  | appendJson b partial_json =>
    have hassembled := assembled_append events b partial_json
    have hknown := h.entry b
    have hentry := h.entry_insert (appendJson b partial_json)
      { (acc.by_block_index.lookup b).getD {} with
        arguments := ((acc.by_block_index.lookup b).getD {}).arguments ++ partial_json }
      (by rw [block_appendJson, hassembled, hknown])
    have hmerge (ordinal : ℕ) : (assembled events b).merge ⟨ordinal, (assembled events b).id,
        (assembled events b).name, if partial_json = "" then none else some partial_json, none⟩ =
          assembled (events ++ [appendJson b partial_json]) b := by
      rw [hassembled]
      unfold ToolCallAccumulatorEntry.merge
      split_ifs with hempty
      · simp [hempty]
      · simp
    have hordinal := h.ordinal b
    unfold ToolBlockEvent.call AnthropicToolCallAccumulator.appendJson
    dsimp only [block_appendJson]
    split_ifs at hordinal with hseen
    · -- the block has its ordinal
      have hblocks : blocks (events ++ [appendJson b partial_json]) = blocks events := by
        rw [blocks_concat, block_appendJson, if_pos hseen]
      rw [hordinal]
      rw [hknown] at hentry ⊢
      refine ⟨(idxOf_blocks_concat hseen).symm, hmerge _, by rw [hblocks]; exact h.next,
        fun b' => ?_, hentry⟩
      rw [hblocks]
      exact h.ordinal b'
    · -- a fragment before the start of its block
      have hnew : (appendJson b partial_json).block ∉ blocks events := hseen
      rw [hordinal]
      rw [hknown] at hentry ⊢
      exact ⟨h.next.trans (idxOf_blocks_new hnew).symm, hmerge _, hlength hnew,
        h.ordinal_insert hnew, hentry⟩

end

section

variable (events : List ToolBlockEvent) (event : ToolBlockEvent)

/-- What stands at the ordinal of an event's block. -/
theorem getElem?_idxOf_blocks :
    (blocks (events ++ [event]))[(blocks (events ++ [event])).idxOf event.block]? =
      some event.block :=
  List.getElem?_idxOf (mem_blocks.mpr ⟨event, by simp, rfl⟩)

/-- What the runtime has assembled at that ordinal before the event. -/
theorem assembled_before :
    ((blocks events)[(blocks (events ++ [event])).idxOf event.block]?.map (assembled events)).getD
      {} = assembled events event.block := by
  by_cases hseen : event.block ∈ blocks events
  · rw [idxOf_blocks_concat hseen, List.getElem?_idxOf hseen]
    rfl
  · rw [idxOf_blocks_new hseen, List.getElem?_eq_none (le_refl _), assembled_of_not_mem hseen]
    rfl

/-- Elsewhere nothing changes. -/
theorem assembled_elsewhere {ordinal : ℕ}
    (hne : ordinal ≠ (blocks (events ++ [event])).idxOf event.block) :
    (blocks (events ++ [event]))[ordinal]?.map (assembled (events ++ [event])) =
      (blocks events)[ordinal]?.map (assembled events) := by
  have hsame : (blocks (events ++ [event]))[ordinal]? = (blocks events)[ordinal]? := by
    rw [blocks_concat]
    split_ifs with hseen
    · rfl
    · rw [idxOf_blocks_new hseen] at hne
      rw [List.getElem?_append]
      split_ifs with hlt
      · rfl
      · rw [List.getElem?_eq_none (by simp; omega), List.getElem?_eq_none (by omega)]
  rw [hsame]
  cases hb : (blocks events)[ordinal]? with
  | none => rfl
  | some b =>
    have hother : event.block ≠ b := by
      rintro rfl
      rw [hb] at hsame
      obtain ⟨hlt, hget⟩ := List.getElem?_eq_some_iff.mp hsame
      exact hne (((nodup_blocks _).idxOf_getElem ordinal hlt).symm.trans (by rw [hget]))
    rw [Option.map_some, Option.map_some, assembled_concat_of_ne hother]

end

/-- What is known after all calls, and what the runtime makes of their deltas, where no block is
started late. -/
theorem run_records {events : List ToolBlockEvent} (h : StartsFirst events) :
    Records events (run events).2 ∧ FollowsBlocks events (run events).1 := by
  induction events using List.reverseRecOn with
  | nil => exact ⟨⟨rfl, fun _ => rfl, fun _ => rfl⟩, rfl, fun _ => rfl⟩
  | append_singleton events event ih =>
    obtain ⟨hrecords, hfollows⟩ := ih fun before b id name after heq => h before b id name
      (after ++ [event]) (by rw [heq, append_assoc, cons_append])
    obtain ⟨hindex, hmerge, hcall⟩ := hrecords.call event fun b id name heq hseen => by
      obtain ⟨event', hmem, hblock⟩ := mem_blocks.mp hseen
      exact h events b id name [] (by rw [heq]) (mem_map.mpr ⟨event', hmem, hblock⟩)
    rw [run_concat]
    refine ⟨hcall, ?_, fun ordinal => ?_⟩
    · rw [map_append, map_append, hfollows.ordinals, map_singleton, hindex,
        map_singleton]
      congr 1
      refine map_congr_left fun event' hmem => ?_
      exact (idxOf_blocks_concat (mem_blocks.mpr ⟨event', hmem, rfl⟩)).symm
    · rw [accumulate_concat, ToolCallAccumulator.merge, Fields.lookup_insert, hfollows.assembles,
        hfollows.assembles, hindex, assembled_before, hmerge]
      by_cases hown : ordinal = (blocks (events ++ [event])).idxOf event.block
      · rw [if_pos hown, hown, getElem?_idxOf_blocks, Option.map_some]
      · rw [if_neg hown, assembled_elsewhere events event hown]

/-- The ordinals that are given are below the next one. -/
structure Bounded (deltas : List ToolCallDelta) (acc : AnthropicToolCallAccumulator) : Prop where
  deltas : ∀ delta ∈ deltas, delta.index < acc.next_ordinal
  blocks : ∀ b, ∀ ordinal ∈ acc.block_to_ordinal.lookup b, ordinal < acc.next_ordinal

/-- One more event keeps the bound. -/
theorem Bounded.call {deltas : List ToolCallDelta} {acc : AnthropicToolCallAccumulator}
    (h : Bounded deltas acc) (event : ToolBlockEvent) :
    Bounded (deltas ++ [(event.call acc).1]) (event.call acc).2 := by
  have hkept : acc.next_ordinal ≤ (event.call acc).2.next_ordinal ∧
      (event.call acc).1.index < (event.call acc).2.next_ordinal ∧
      ∀ b, ∀ ordinal ∈ (event.call acc).2.block_to_ordinal.lookup b,
        ordinal < (event.call acc).2.next_ordinal := by
    have hinsert (b b' : ℕ) : ∀ ordinal ∈
        (Fields.insert b acc.next_ordinal acc.block_to_ordinal).lookup b',
        ordinal < acc.next_ordinal + 1 := by
      intro ordinal hordinal
      rw [Fields.lookup_insert] at hordinal
      split_ifs at hordinal
      · rw [← Option.some.inj hordinal]
        exact Nat.lt_succ_self _
      · exact Nat.lt_succ_of_lt (h.blocks b' ordinal hordinal)
    cases event with
    | startTool b id name => exact ⟨Nat.le_succ _, Nat.lt_succ_self _, hinsert b⟩
    | appendJson b partial_json =>
      have hbound := h.blocks b
      unfold ToolBlockEvent.call AnthropicToolCallAccumulator.appendJson
      dsimp only
      cases hordinal : acc.block_to_ordinal.lookup b with
      | some ordinal => exact ⟨le_refl _, hbound ordinal hordinal, h.blocks⟩
      | none => exact ⟨Nat.le_succ _, Nat.lt_succ_self _, hinsert b⟩
  obtain ⟨hnext, hindex, hblocks⟩ := hkept
  refine ⟨fun delta hdelta => ?_, hblocks⟩
  rcases mem_append.mp hdelta with hdelta | hdelta
  · exact Nat.lt_of_lt_of_le (h.deltas delta hdelta) hnext
  · rw [mem_singleton.mp hdelta]
    exact hindex

/-- The bound holds of every run. -/
theorem run_bounded (events : List ToolBlockEvent) : Bounded (run events).1 (run events).2 := by
  induction events using List.reverseRecOn with
  | nil => exact ⟨nofun, nofun⟩
  | append_singleton events event ih =>
    rw [run_concat]
    exact ih.call event

/-- The deltas of the first calls are the first deltas, one for each call. -/
theorem run_append (events more : List ToolBlockEvent) :
    (run events).1.length = events.length ∧
      ∃ rest, (run (events ++ more)).1 = (run events).1 ++ rest := by
  have hlength : (run events).1.length = events.length := by
    induction events using List.reverseRecOn with
    | nil => rfl
    | append_singleton events event ih =>
      rw [run_concat, length_append, length_append, ih]
      rfl
  refine ⟨hlength, ?_⟩
  induction more using List.reverseRecOn with
  | nil => exact ⟨[], by rw [append_nil, append_nil]⟩
  | append_singleton more event ih =>
    obtain ⟨rest, hrest⟩ := ih
    refine ⟨rest ++ [(event.call (run (events ++ more)).2).1], ?_⟩
    rw [← append_assoc, run_concat, hrest, append_assoc]

/-- The ordinals follow the blocks, and each block is assembled for itself, exactly where no block
is started after another event of it. -/
theorem run_iff (events : List ToolBlockEvent) :
    FollowsBlocks events (run events).1 ↔ StartsFirst events := by
  refine ⟨fun h before b id name after hevents hseen => ?_, fun h => (run_records h).2⟩
  obtain ⟨earlier, hearlier, hblock⟩ := mem_map.mp hseen
  -- the delta of the start has an ordinal that no delta before it has
  obtain ⟨hlength, -⟩ := run_append before []
  obtain ⟨rest, hrest⟩ := (run_append (before ++ [startTool b id name]) after).2
  have hdeltas : (run events).1 = (run before).1 ++
      ((startTool b id name).call (run before).2).1 :: rest := by
    rw [hevents, ← singleton_append, ← append_assoc, hrest, run_concat, append_assoc]
    rfl
  have hordinals := h.ordinals
  generalize blocks events = seen at hordinals
  rw [hdeltas, hevents, map_append, map_append] at hordinals
  obtain ⟨hbefore, hstart⟩ := append_inj hordinals (by simp [hlength])
  have hordinal : seen.idxOf earlier.block ∈ (run before).1.map ToolCallDelta.index := by
    rw [hbefore]
    exact mem_map.mpr ⟨earlier, hearlier, rfl⟩
  obtain ⟨delta, hdelta, hindex⟩ := mem_map.mp hordinal
  have hnext : (run before).2.next_ordinal = seen.idxOf b := (List.cons.inj hstart).1
  have hlt := (run_bounded before).deltas delta hdelta
  rw [hindex, hblock, hnext] at hlt
  exact absurd hlt (lt_irrefl _)

/-- A fragment that comes before the start of its block is given to another call. -/
theorem lateStart_not_followed :
    let events := [appendJson 5 "\x7b", startTool 5 (some "id") (some "name"), appendJson 5 "\x7d"]
    ¬FollowsBlocks events (run events).1 := by
  intro events h
  exact absurd h.ordinals (by decide)

end ToolBlockEvent

end Oxydra
