import Oxydra.Tui.ViewModel

/-!
# The reply that the terminal interface shows

`TurnCompleted` writes the final content only where no text of the turn stands in the last entry.
`showsReply_iff`: the texts of the assistant that a turn adds end with the final content exactly
where no delta with text came after the last frame that pushes an entry, or where the deltas that
were received end with it, of which those count whose entry is among the newest 1000.

The history is that of the same frames without a limit, cut to its newest entries
(`message_history_run`).
-/

namespace Oxydra

open Option

open List (rtake)

variable {frame : GatewayServerFrame} {entries : List ChatMessage}
  {frames : List GatewayServerFrame} {m m' : TuiViewModel} {n : ℕ}

/-! ## The newest entries -/

section Newest

variable {α : Type*}

/-- To cut in between changes nothing. -/
theorem rtake_append_rtake (n : ℕ) (l l' : List α) :
    (l.rtake n ++ l').rtake n = (l ++ l').rtake n := by
  simp only [List.rtake_eq_reverse_take_reverse, List.reverse_append, List.reverse_reverse,
    List.take_append, List.take_take]
  rw [Nat.min_eq_left (Nat.sub_le ..)]

/-- The end of two lists. -/
theorem rtake_append (n : ℕ) (l l' : List α) :
    (l ++ l').rtake n = l.rtake (n - l'.length) ++ l'.rtake n := by
  simp only [List.rtake_eq_reverse_take_reverse, List.reverse_append, List.take_append,
    List.length_reverse]

/-- A short list is all kept. -/
theorem rtake_of_length_le {l : List α} (h : l.length ≤ n) : l.rtake n = l := by
  rw [List.rtake, Nat.sub_eq_zero_of_le h, List.drop_zero]

/-- What is kept is the end. -/
theorem rtake_suffix (n : ℕ) (l : List α) : l.rtake n <:+ l := List.drop_suffix _ _

/-- The last entry is kept. -/
theorem getLast?_rtake (hn : 0 < n) (l : List α) : (l.rtake n).getLast? = l.getLast? := by
  obtain ⟨k, rfl⟩ : ∃ k, n = k + 1 := ⟨n - 1, by omega⟩
  rcases List.eq_nil_or_concat' l with rfl | ⟨l, x, rfl⟩
  · rw [List.rtake_nil]
  · rw [List.rtake_concat_succ, List.getLast?_concat, List.getLast?_concat]

/-- The last entry may be changed before the cut or after it. -/
theorem dropLast_rtake_concat (hn : 0 < n) {l : List α} (hl : l ≠ []) (x : α) :
    (l.rtake n).dropLast ++ [x] = (l.dropLast ++ [x]).rtake n := by
  obtain ⟨k, rfl⟩ : ∃ k, n = k + 1 := ⟨n - 1, by omega⟩
  rcases List.eq_nil_or_concat' l with rfl | ⟨l, y, rfl⟩
  · exact absurd rfl hl
  · rw [List.rtake_concat_succ, List.dropLast_concat, List.dropLast_concat, List.rtake_concat_succ]

end Newest

/-! ## Entries without a limit -/

/-- A text that is added to the last entry, or in a new one. -/
def appendText (entries : List ChatMessage) (text : String) : List ChatMessage :=
  match entries.getLast? with
  | some (.assistant buf) => entries.dropLast ++ [.assistant (buf ++ text)]
  | _ => entries ++ [.assistant text]

/-- The final content, where no text stands in the last entry. -/
def fillIn (entries : List ChatMessage) (content : String) : List ChatMessage :=
  match entries.getLast? with
  | some (.assistant buf) =>
    if buf = "" then entries.dropLast ++ [.assistant content] else entries
  | _ => if content ≠ "" then entries ++ [.assistant content] else entries

/-- The entries after a frame, if none is ever dropped. -/
def grow (entries : List ChatMessage) : GatewayServerFrame → List ChatMessage
  | .assistantDelta delta => appendText entries delta
  | .turnCompleted response => fillIn entries (response.message.content.getD "")
  | frame => entries ++ frame.messages.getD []

namespace TuiViewModel

/-- The history keeps the last entries. -/
theorem message_history_pushMessage (m : TuiViewModel) (message : ChatMessage) :
    (m.pushMessage message).message_history =
      (m.message_history ++ [message]).rtake maxHistoryMessages := by
  unfold pushMessage enforceHistoryCap
  split_ifs with h
  · rw [List.rtake]
  · exact (rtake_of_length_le (not_lt.mp h)).symm

/-- Messages that are pushed one after the other. -/
theorem message_history_foldl (m : TuiViewModel)
    (h : m.message_history = entries.rtake maxHistoryMessages) (messages : List ChatMessage) :
    (messages.foldl pushMessage m).message_history =
      (entries ++ messages).rtake maxHistoryMessages := by
  induction messages generalizing m entries with
  | nil => rw [List.append_nil]; exact h
  | cons message messages ih =>
    rw [List.append_cons]
    refine ih _ ?_
    rw [message_history_pushMessage, h, rtake_append_rtake]

/-- Messages after whatever was there. -/
theorem message_history_foldl_of_ne_nil (m : TuiViewModel) {messages : List ChatMessage}
    (h : messages ≠ []) : (messages.foldl pushMessage m).message_history =
      (m.message_history ++ messages).rtake maxHistoryMessages := by
  cases messages with
  | nil => exact absurd rfl h
  | cons message messages =>
    rw [List.append_cons]
    exact message_history_foldl _ (message_history_pushMessage m message) messages

/-- There is room for an entry. -/
theorem history_pos : 0 < maxHistoryMessages := by
  unfold maxHistoryMessages
  decide

/-- A delta does to the newest entries what it does to all. -/
theorem message_history_appendToLastAssistant
    (h : m.message_history = entries.rtake maxHistoryMessages) (text : String) :
    (m.appendToLastAssistant text).message_history =
      (appendText entries text).rtake maxHistoryMessages := by
  have hpush : (m.pushMessage (.assistant text)).message_history =
      (entries ++ [ChatMessage.assistant text]).rtake maxHistoryMessages := by
    rw [message_history_pushMessage, h, rtake_append_rtake]
  unfold appendToLastAssistant appendText
  rw [h, getLast?_rtake history_pos]
  rcases List.eq_nil_or_concat' entries with rfl | ⟨before, last, rfl⟩
  · exact hpush
  · rw [List.getLast?_concat]
    cases last with
    | assistant buf => exact dropLast_rtake_concat history_pos (by simp) _
    | user _ | error _ | system _ => exact hpush

/-- And so does `TurnCompleted`. -/
theorem message_history_completeTurn (h : m.message_history = entries.rtake maxHistoryMessages)
    (response : Response) :
    (m.completeTurn response).message_history =
      (fillIn entries (response.message.content.getD "")).rtake maxHistoryMessages := by
  unfold completeTurn
  generalize response.message.content.getD "" = content
  have hpush : (if content ≠ "" then m.pushMessage (.assistant content) else m).message_history =
      (if content ≠ "" then entries ++ [.assistant content] else entries).rtake
        maxHistoryMessages := by
    split_ifs
    · rw [message_history_pushMessage, h, rtake_append_rtake]
    · exact h
  unfold fillIn
  rw [h, getLast?_rtake history_pos]
  rcases List.eq_nil_or_concat' entries with rfl | ⟨before, last, rfl⟩
  · exact hpush
  · rw [List.getLast?_concat]
    cases last with
    | assistant buf =>
      dsimp only
      split_ifs
      · exact dropLast_rtake_concat history_pos (by simp) _
      · exact h
    | user _ | error _ | system _ => exact hpush

/-- A frame does to the newest entries what it does to all. -/
theorem message_history_applyServerFrame (h : m.message_history = entries.rtake maxHistoryMessages)
    (happly : m.applyServerFrame frame = some m') :
    m'.message_history = (grow entries frame).rtake maxHistoryMessages := by
  unfold applyServerFrame at happly
  split at happly
  · cases happly
    exact message_history_appendToLastAssistant h _
  · cases happly
    exact message_history_completeTurn h _
  · next hdelta hcompleted =>
    obtain ⟨messages, hmessages, rfl⟩ := map_eq_some_iff.mp happly
    have hgrow : grow entries frame = entries ++ messages := by
      unfold grow
      split
      · exact absurd rfl (hdelta _)
      · exact absurd rfl (hcompleted _)
      · rw [hmessages, getD_some]
    rw [hgrow]
    exact message_history_foldl m h messages

/-- A frame panics exactly where its messages do. -/
theorem isSome_applyServerFrame (m : TuiViewModel) (frame : GatewayServerFrame) :
    (m.applyServerFrame frame).isSome = frame.messages.isSome := by
  unfold applyServerFrame
  split
  · rfl
  · rfl
  · rw [isSome_map]

/-- No frame panics. -/
theorem isSome_run_iff (m : TuiViewModel) (frames : List GatewayServerFrame) :
    (m.run frames).isSome ↔ ∀ frame ∈ frames, frame.messages.isSome := by
  induction frames generalizing m with
  | nil => simp [run]
  | cons frame frames ih =>
    have happly := m.isSome_applyServerFrame frame
    rw [run, List.foldlM_cons, List.forall_mem_cons]
    cases hm : m.applyServerFrame frame with
    | none =>
      rw [hm] at happly
      simp [← happly]
    | some m' =>
      rw [hm] at happly
      rw [← happly]
      exact (ih m').trans (by simp)

/-- The history after some frames is the newest entries of all. -/
theorem message_history_run (h : m.message_history = entries.rtake maxHistoryMessages)
    (hrun : m.run frames = some m') :
    m'.message_history = (frames.foldl grow entries).rtake maxHistoryMessages := by
  induction frames generalizing m entries with
  | nil =>
    cases hrun
    exact h
  | cons frame frames ih =>
    obtain ⟨m'', hm'', hrest⟩ := bind_eq_some_iff.mp hrun
    exact ih (message_history_applyServerFrame h hm'') hrest

end TuiViewModel

/-! ## Turns -/

namespace GatewayServerFrame

/-- The messages that a frame pushes, if it does not panic. -/
def pushed (frame : GatewayServerFrame) : List ChatMessage := frame.messages.getD []

/-- The text of a delta. -/
def delta : GatewayServerFrame → Option String
  | .assistantDelta delta => some delta
  | _ => none

/-- Whether a frame tells a client of a running turn. -/
def opensTurn : GatewayServerFrame → Bool
  | .turnStarted => true
  | .helloAck active_turn | .sessionSwitched _ active_turn => isRunning active_turn
  | _ => false

/-- Whether a frame is `TurnCompleted`. -/
def completesTurn : GatewayServerFrame → Bool
  | .turnCompleted _ => true
  | _ => false

end GatewayServerFrame

/-- The frames that a client receives during a turn: the first one tells it of the turn, and the
last one is `TurnCompleted`. In between are any deltas and other frames. -/
structure TurnFrames where
  opening : GatewayServerFrame
  frames : List GatewayServerFrame
  response : Response
  opens : opening.opensTurn = true
  not_completed : ∀ frame ∈ frames, frame.completesTurn = false

/-- The text of the assistant in some entries. -/
def assistantText (entries : List ChatMessage) : List Char :=
  entries.flatMap fun
    | .assistant text => text.toList
    | _ => []

namespace TurnFrames

variable (turn : TurnFrames)

/-- All frames of a turn. -/
def all : List GatewayServerFrame :=
  turn.opening :: (turn.frames ++ [.turnCompleted turn.response])

/-- The final content of the response. -/
def content : String := turn.response.message.content.getD ""

/-- The entries that the frames of a turn add to a history. -/
def added : Option (List ChatMessage) :=
  (TuiViewModel.run {} turn.all).map TuiViewModel.message_history

/-- Behind what is left of the older entries stand those that the turn added, and the texts of the
assistant in them end with the final content. -/
def ShowsReply (m : TuiViewModel) : Prop :=
  ∃ m' older added, m.run turn.all = some m' ∧ turn.added = some added ∧
    older <:+ m.message_history ∧ m'.message_history = older ++ added ∧
      turn.content.toList <:+ assistantText added

end TurnFrames

/-! ## Which deltas are shown -/

/-- Whether the last entry is of the assistant. -/
def endsWithAssistant (entries : List ChatMessage) : Bool :=
  match entries.getLast? with
  | some (.assistant _) => true
  | _ => false

/-- The text of the deltas after the last frame that pushes an entry. -/
def textSincePush : List Char → List GatewayServerFrame → List Char
  | text, [] => text
  | text, frame :: rest =>
    match frame.delta with
    | some delta => textSincePush (text ++ delta.toList) rest
    | none => textSincePush (if frame.pushed = [] then text else []) rest

/-- How many entries frames push; a delta pushes one where the last entry is not of the
assistant. -/
def entriesPushed : Bool → List GatewayServerFrame → ℕ
  | _, [] => 0
  | isOpen, frame :: rest =>
    match frame.delta with
    | some _ => (if isOpen then 0 else 1) + entriesPushed true rest
    | none => frame.pushed.length +
      entriesPushed (if frame.pushed = [] then isOpen else endsWithAssistant frame.pushed) rest

/-- The text of the deltas after which fewer than `n` entries are pushed. -/
def keptText (n : ℕ) : List GatewayServerFrame → List Char
  | [] => []
  | frame :: rest =>
    match frame.delta with
    | some delta => (if entriesPushed true rest < n then delta.toList else []) ++ keptText n rest
    | none => keptText n rest

/-- Entry after entry. -/
theorem assistantText_append (entries entries' : List ChatMessage) :
    assistantText (entries ++ entries') = assistantText entries ++ assistantText entries' :=
  List.flatMap_append

/-- The only message of the assistant that a frame pushes is empty. -/
theorem pushed_assistant {text : String} (h : .assistant text ∈ frame.pushed) : text = "" := by
  unfold GatewayServerFrame.pushed at h
  cases frame with
  | sessionList sessions =>
    simp only [GatewayServerFrame.messages] at h
    split_ifs at h
    · simp at h
    · cases hlines : sessions.mapM GatewaySessionSummary.line with
      | none => simp [hlines] at h
      | some lines => simp [hlines] at h
  | helloAck active_turn | sessionSwitched _ active_turn =>
    cases hrunning : isRunning active_turn with
    | false => simp [GatewayServerFrame.messages, hrunning] at h
    | true => simpa [GatewayServerFrame.messages, hrunning] using h
  | error message turn =>
    cases turn with
    | none => simp [GatewayServerFrame.messages] at h
    | some turn =>
      simp only [GatewayServerFrame.messages] at h
      split_ifs at h <;> simp at h
  | turnStarted => simpa [GatewayServerFrame.messages] using h
  | _ => simp [GatewayServerFrame.messages] at h

/-- No frame pushes a reply. -/
theorem assistantText_pushed (frame : GatewayServerFrame) : assistantText frame.pushed = [] := by
  refine List.flatMap_eq_nil_iff.mpr fun message hmessage => ?_
  cases message with
  | assistant text => rw [pushed_assistant hmessage]; rfl
  | user _ | error _ | system _ => rfl

/-- Without `TurnCompleted`, a frame that is no delta pushes its messages. -/
theorem grow_eq (h : frame.completesTurn = false) (entries : List ChatMessage) :
    grow entries frame =
      match frame.delta with
      | some delta => appendText entries delta
      | none => entries ++ frame.pushed := by
  cases frame with
  | turnCompleted response => exact absurd h nofun
  | _ => rfl

/-- Only the last entries count. -/
theorem endsWithAssistant_append (entries : List ChatMessage) {messages : List ChatMessage}
    (h : messages ≠ []) : endsWithAssistant (entries ++ messages) = endsWithAssistant messages := by
  unfold endsWithAssistant
  rw [List.getLast?_append_of_ne_nil _ h]

/-- A delta goes to the last entry, or to a new one. -/
theorem appendText_cases (entries : List ChatMessage) (text : String) :
    endsWithAssistant (appendText entries text) = true ∧
    ((∃ before buf, entries = before ++ [.assistant buf] ∧
      appendText entries text = before ++ [.assistant (buf ++ text)] ∧
        endsWithAssistant entries = true) ∨
      appendText entries text = entries ++ [.assistant text] ∧
        endsWithAssistant entries = false) := by
  rcases List.eq_nil_or_concat' entries with rfl | ⟨before, last, rfl⟩
  · exact ⟨rfl, .inr ⟨rfl, rfl⟩⟩
  · unfold appendText endsWithAssistant
    rw [List.getLast?_concat]
    cases last with
    | assistant buf =>
      rw [List.dropLast_concat, List.getLast?_concat]
      exact ⟨rfl, .inl ⟨before, buf, rfl, rfl, rfl⟩⟩
    | user _ | error _ | system _ =>
      rw [List.getLast?_concat]
      exact ⟨rfl, .inr ⟨rfl, rfl⟩⟩

/-- A reply at the end. -/
theorem assistantText_concat (entries : List ChatMessage) (text : String) :
    assistantText (entries ++ [.assistant text]) = assistantText entries ++ text.toList := by
  rw [assistantText_append]
  exact congrArg (_ ++ ·) (List.append_nil _)

/-- Nor a part of one. -/
theorem assistantText_rtake_pushed (frame : GatewayServerFrame) (n : ℕ) :
    assistantText (frame.pushed.rtake n) = [] := by
  obtain ⟨before, hbefore⟩ := rtake_suffix n frame.pushed
  have htext := assistantText_pushed frame
  rw [← hbefore, assistantText_append] at htext
  exact (List.append_eq_nil_iff.mp htext).2

/-- Of the texts of the newest entries, the deltas are those that are kept. -/
theorem assistantText_grow (n : ℕ) (entries : List ChatMessage)
    (h : ∀ frame ∈ frames, frame.completesTurn = false) :
    assistantText ((frames.foldl grow entries).rtake n) =
      assistantText (entries.rtake (n - entriesPushed (endsWithAssistant entries) frames)) ++
        keptText n frames := by
  induction frames generalizing entries with
  | nil => rw [entriesPushed, keptText, List.append_nil]; rfl
  | cons frame frames ih =>
    obtain ⟨hframe, hframes⟩ := List.forall_mem_cons.mp h
    rw [List.foldl_cons, ih _ hframes, grow_eq hframe, entriesPushed, keptText]
    cases hdelta : frame.delta with
    | none =>
      by_cases hpushed : frame.pushed = []
      · rw [if_pos hpushed, hpushed, List.append_nil, List.length_nil, Nat.zero_add]
      · rw [if_neg hpushed, endsWithAssistant_append entries hpushed, rtake_append,
          assistantText_append, assistantText_rtake_pushed, List.append_nil, Nat.sub_sub,
          Nat.add_comm]
    | some delta =>
      dsimp only
      obtain ⟨hopen, hcases⟩ := appendText_cases entries delta
      rw [hopen]
      generalize entriesPushed true frames = p
      rcases hcases with ⟨before, buf, rfl, happend, hends⟩ | ⟨happend, hends⟩
      · rw [happend, hends, if_pos rfl, Nat.zero_add]
        by_cases hp : p < n
        · obtain ⟨k, hk⟩ : ∃ k, n - p = k + 1 := ⟨n - p - 1, by omega⟩
          rw [if_pos hp, hk, List.rtake_concat_succ, List.rtake_concat_succ, assistantText_concat,
            assistantText_concat, String.toList_append]
          simp only [List.append_assoc]
        · rw [if_neg hp, Nat.sub_eq_zero_of_le (not_lt.mp hp), List.rtake_zero, List.rtake_zero]
          rfl
      · rw [happend, hends, if_neg Bool.false_ne_true]
        by_cases hp : p < n
        · obtain ⟨k, hk⟩ : ∃ k, n - p = k + 1 := ⟨n - p - 1, by omega⟩
          have hk' : n - (1 + p) = k := by omega
          rw [if_pos hp, hk, hk', List.rtake_concat_succ, assistantText_concat, List.append_assoc]
        · rw [if_neg hp, Nat.sub_eq_zero_of_le (not_lt.mp hp), Nat.sub_eq_zero_of_le (by omega),
            List.rtake_zero, List.rtake_zero]
          rfl

/-! ## The last entry -/

/-- The text that stands in the last entry, if that is of the assistant. -/
def lastText (entries : List ChatMessage) : List Char :=
  match entries.getLast? with
  | some (.assistant text) => text.toList
  | _ => []

/-- Behind another entry a reply begins anew. -/
theorem lastText_of_not (h : endsWithAssistant entries = false) :
    lastText entries = [] := by
  unfold endsWithAssistant at h
  unfold lastText
  split at h
  · exact absurd h nofun
  · rfl

section

variable (entries : List ChatMessage)

/-- The reply at the end. -/
theorem lastText_concat (text : String) :
    lastText (entries ++ [.assistant text]) = text.toList := by
  unfold lastText
  rw [List.getLast?_concat]

/-- An entry of another kind ends a reply. -/
theorem lastText_pushed (h : frame.pushed ≠ []) :
    lastText (entries ++ frame.pushed) = [] := by
  unfold lastText
  rw [List.getLast?_append_of_ne_nil _ h]
  split
  · next text hlast => rw [pushed_assistant (List.mem_of_getLast? hlast)]; rfl
  · rfl

/-- A delta is appended to the reply. -/
theorem lastText_appendText (text : String) :
    lastText (appendText entries text) = lastText entries ++ text.toList := by
  obtain ⟨-, ⟨before, buf, rfl, happend, -⟩ | ⟨happend, hends⟩⟩ := appendText_cases entries text
  · rw [happend, lastText_concat, lastText_concat, String.toList_append]
  · rw [happend, lastText_concat, lastText_of_not hends, List.nil_append]

/-- In the last entry stands the text since the last push. -/
theorem lastText_grow (h : ∀ frame ∈ frames, frame.completesTurn = false) :
    lastText (frames.foldl grow entries) = textSincePush (lastText entries) frames := by
  induction frames generalizing entries with
  | nil => rfl
  | cons frame frames ih =>
    obtain ⟨hframe, hframes⟩ := List.forall_mem_cons.mp h
    rw [List.foldl_cons, ih _ hframes, grow_eq hframe, textSincePush]
    cases hdelta : frame.delta with
    | none =>
      split_ifs with hpushed
      · rw [hpushed, List.append_nil]
      · rw [lastText_pushed entries hpushed]
    | some delta => 
      rw [lastText_appendText]

end

/-- Where a text stands in the last entry, `TurnCompleted` changes nothing. -/
theorem fillIn_of_text (h : lastText entries ≠ []) (content : String) :
    fillIn entries content = entries := by
  unfold lastText at h
  unfold fillIn
  split at h
  · exact if_neg fun hempty => h (by rw [hempty]; rfl)
  · exact absurd rfl h

/-- And where none stands there, the final content is in the newest entries. -/
theorem fillIn_of_no_text (h : lastText entries = []) (content : String) (hn : 0 < n) :
    content.toList <:+ assistantText ((fillIn entries content).rtake n) := by
  obtain ⟨k, rfl⟩ : ∃ k, n = k + 1 := ⟨n - 1, by omega⟩
  have hpush : ∀ before : List ChatMessage, content.toList <:+
      assistantText ((before ++ [ChatMessage.assistant content]).rtake (k + 1)) := by
    intro before
    rw [List.rtake_concat_succ, assistantText_concat]
    exact List.suffix_append _ _
  have hother : content.toList <:+ assistantText
      ((if content ≠ "" then entries ++ [.assistant content] else entries).rtake (k + 1)) := by
    split_ifs with hcontent
    · exact hpush entries
    · rw [not_not.mp hcontent]
      exact List.nil_suffix
  unfold lastText at h
  unfold fillIn
  split at h
  · rw [if_pos (String.toList_eq_nil_iff.mp h)]
    exact hpush _
  · exact hother

/-! ## Frames that panic -/

/-- All of them give a value. -/
theorem isSome_mapM {α β : Type} (f : α → Option β) (l : List α) :
    (l.mapM f).isSome ↔ ∀ x ∈ l, (f x).isSome := by
  induction l with
  | nil => simp
  | cons x l ih =>
    rw [List.mapM_cons, List.forall_mem_cons, ← ih]
    cases f x <;> cases l.mapM f <;> simp

/-- Only a listing panics, where the start of an id ends inside a character. -/
theorem isSome_messages_iff (frame : GatewayServerFrame) : frame.messages.isSome ↔
    ∀ sessions, frame = .sessionList sessions → ∀ s ∈ sessions,
      13 < s.session_id.utf8ByteSize → Text.IsCharBoundary 13 s.session_id := by
  cases frame with
  | sessionList sessions =>
    have hline : ∀ s : GatewaySessionSummary, s.line.isSome ↔
        (13 < s.session_id.utf8ByteSize → Text.IsCharBoundary 13 s.session_id) := by
      intro s
      rw [← Text.isSome_sliceTo_iff]
      unfold GatewaySessionSummary.line
      by_cases hlong : 13 < s.session_id.utf8ByteSize
      · cases hcut : Text.sliceTo 13 s.session_id <;> simp [hlong]
      · simp [hlong]
    have hlines := isSome_mapM GatewaySessionSummary.line sessions
    simp only [hline] at hlines
    simp only [GatewayServerFrame.messages, GatewayServerFrame.sessionList.injEq, forall_eq']
    rw [← hlines]
    split_ifs with hempty
    · rw [List.isEmpty_iff] at hempty
      subst hempty
      simp
    · cases sessions.mapM GatewaySessionSummary.line <;> simp
  | _ => exact iff_of_true rfl nofun

/-! ## A whole turn -/

/-- What stands before the entries of a turn does not change. -/
theorem grow_append (older : List ChatMessage) (h : entries ≠ []) (frame : GatewayServerFrame) :
    grow (older ++ entries) frame = older ++ grow entries frame ∧ grow entries frame ≠ [] := by
  have hlast : (older ++ entries).getLast? = entries.getLast? :=
    List.getLast?_append_of_ne_nil _ h
  have hdrop : (older ++ entries).dropLast = older ++ entries.dropLast :=
    List.dropLast_append_of_ne_nil h
  unfold grow
  split
  · unfold appendText
    rw [hlast]
    split
    · rw [hdrop, List.append_assoc]
      exact ⟨rfl, by simp⟩
    · rw [List.append_assoc]
      exact ⟨rfl, by simp⟩
  · unfold fillIn
    rw [hlast]
    split
    · split_ifs
      · rw [hdrop, List.append_assoc]
        exact ⟨rfl, by simp⟩
      · exact ⟨rfl, h⟩
    · split_ifs
      · rw [List.append_assoc]
        exact ⟨rfl, by simp⟩
      · exact ⟨rfl, h⟩
  · rw [List.append_assoc]
    exact ⟨rfl, by simp [h]⟩

/-- Older entries stay as they are. -/
theorem foldl_grow_append (older : List ChatMessage) (h : entries ≠ [])
    (frames : List GatewayServerFrame) :
    frames.foldl grow (older ++ entries) = older ++ frames.foldl grow entries := by
  induction frames generalizing entries with
  | nil => rfl
  | cons frame frames ih =>
    obtain ⟨happend, hne⟩ := grow_append older h frame
    rw [List.foldl_cons, List.foldl_cons, happend, ih hne]

/-- The frame that tells of a turn ends with an empty entry of the assistant. -/
theorem pushed_of_opensTurn (h : frame.opensTurn = true) :
    ∃ before, frame.messages = some (before ++ [.assistant ""]) ∧ frame.delta = none ∧
      frame.completesTurn = false := by
  cases frame with
  | turnStarted => exact ⟨[], rfl, rfl, rfl⟩
  | helloAck active_turn =>
    have hrunning : isRunning active_turn = true := h
    exact ⟨[.system "Reconnected — resuming active stream"],
      by simp [GatewayServerFrame.messages, hrunning], rfl, rfl⟩
  | sessionSwitched session_id active_turn =>
    have hrunning : isRunning active_turn = true := h
    exact ⟨[.system ("Switched to session: " ++ session_id),
      .system "Active turn in progress — resuming stream."],
      by simp [GatewayServerFrame.messages, hrunning], rfl, rfl⟩
  | _ => exact absurd h nofun

namespace TurnFrames

variable (turn : TurnFrames)

/-- All entries that a turn adds, with those that are dropped. -/
def allEntries : List ChatMessage :=
  fillIn (turn.frames.foldl grow turn.opening.pushed) turn.content

/-- The history after a turn is the newest of the older entries and of those it adds. -/
theorem message_history_turn (h : m.run turn.all = some m') :
    m'.message_history = (m.message_history ++ turn.allEntries).rtake maxHistoryMessages := by
  obtain ⟨before, hmessages, hdelta, hcompletes⟩ := pushed_of_opensTurn turn.opens
  have hpushed : turn.opening.pushed ≠ [] := by
    rw [GatewayServerFrame.pushed, hmessages, getD_some]
    simp
  obtain ⟨m'', hm'', hrest⟩ := bind_eq_some_iff.mp h
  have hopened : m''.message_history =
      (m.message_history ++ turn.opening.pushed).rtake maxHistoryMessages := by
    have happly : m.applyServerFrame turn.opening =
        some (turn.opening.pushed.foldl TuiViewModel.pushMessage m) := by
      rw [GatewayServerFrame.pushed, hmessages, getD_some]
      unfold TuiViewModel.applyServerFrame
      split
      · next hopening => rw [hopening] at hdelta; exact absurd hdelta nofun
      · next hopening => rw [hopening] at hcompletes; exact absurd hcompletes nofun
      · rw [hmessages, map_some]
    obtain rfl := some.inj (happly.symm.trans hm'')
    exact TuiViewModel.message_history_foldl_of_ne_nil m hpushed
  rw [TuiViewModel.message_history_run hopened hrest, foldl_grow_append _ hpushed,
    List.foldl_concat]
  rfl

/-- What a turn adds, if no frame panics. -/
theorem added_eq (h : ∀ frame ∈ turn.all, frame.messages.isSome) :
    turn.added = some (turn.allEntries.rtake maxHistoryMessages) := by
  obtain ⟨m', hm'⟩ := isSome_iff_exists.mp ((TuiViewModel.isSome_run_iff {} _).mpr h)
  rw [added, hm', map_some, turn.message_history_turn hm']
  rfl

/-- The id of each session that is listed can be cut, so no frame panics. -/
def NoPanic : Prop := ∀ sessions, .sessionList sessions ∈ turn.frames → ∀ s ∈ sessions,
  13 < s.session_id.utf8ByteSize → Text.IsCharBoundary 13 s.session_id

/-- The frames of a turn are those of its parts. -/
theorem noPanic_iff : (∀ frame ∈ turn.all, frame.messages.isSome) ↔ turn.NoPanic := by
  obtain ⟨before, hmessages, -, -⟩ := pushed_of_opensTurn turn.opens
  have hopening : turn.opening.messages.isSome := by
    rw [hmessages]
    rfl
  have hcompleted : (GatewayServerFrame.turnCompleted turn.response).messages.isSome := rfl
  rw [all, List.forall_mem_cons, List.forall_mem_append, List.forall_mem_singleton]
  simp only [hopening, hcompleted, true_and, and_true]
  constructor
  · intro h sessions hsessions
    exact (isSome_messages_iff _).mp (h _ hsessions) sessions rfl
  · intro h frame hframe
    exact (isSome_messages_iff _).mpr fun sessions hsessions => h sessions (hsessions ▸ hframe)

/-- The reply is shown exactly where no frame panics, and where no text of a delta came after the
last frame that pushes an entry, or the deltas whose entries are kept end with the final content. -/
theorem showsReply_iff (m : TuiViewModel) : turn.ShowsReply m ↔ turn.NoPanic ∧
    (textSincePush [] turn.frames = [] ∨
      turn.content.toList <:+ keptText maxHistoryMessages turn.frames) := by
  obtain ⟨before, hmessages, -, -⟩ := pushed_of_opensTurn turn.opens
  have hpushed : turn.opening.pushed = before ++ [ChatMessage.assistant ""] := by
    rw [GatewayServerFrame.pushed, hmessages, getD_some]
  have hlast : lastText (turn.frames.foldl grow turn.opening.pushed) =
      textSincePush [] turn.frames := by
    rw [lastText_grow _ turn.not_completed, hpushed, lastText_concat]
    rfl
  have hshown : turn.content.toList <:+
      assistantText (turn.allEntries.rtake maxHistoryMessages) ↔
        (textSincePush [] turn.frames = [] ∨
          turn.content.toList <:+ keptText maxHistoryMessages turn.frames) := by
    rw [← hlast, allEntries]
    by_cases htext : lastText (turn.frames.foldl grow turn.opening.pushed) = []
    · exact iff_of_true (fillIn_of_no_text htext _ TuiViewModel.history_pos) (.inl htext)
    · rw [fillIn_of_text htext, assistantText_grow _ _ turn.not_completed,
        assistantText_rtake_pushed, List.nil_append, or_iff_right htext]
  rw [← turn.noPanic_iff, ← hshown]
  constructor
  · rintro ⟨m', older, added, hrun, hadded, -, -, hsuffix⟩
    have hsome := (m.isSome_run_iff turn.all).mp (isSome_iff_exists.mpr ⟨m', hrun⟩)
    obtain rfl := some.inj ((turn.added_eq hsome).symm.trans hadded)
    exact ⟨hsome, hsuffix⟩
  · rintro ⟨hsome, hsuffix⟩
    obtain ⟨m', hrun⟩ := isSome_iff_exists.mp ((m.isSome_run_iff turn.all).mpr hsome)
    have hhistory := turn.message_history_turn hrun
    rw [rtake_append] at hhistory
    exact ⟨m', _, _, hrun, turn.added_eq hsome, rtake_suffix _ _, hhistory, hsuffix⟩

end TurnFrames

/-- A client that was told of the turn and missed the first of the deltas `hel` and `lo`. -/
def lostDelta : TurnFrames where
  opening := .turnStarted
  frames := [.assistantDelta "lo"]
  response := { message := { role := .assistant, content := some "hello" } }
  opens := rfl
  not_completed := by simp [GatewayServerFrame.completesTurn]

/-- A lost delta is missing in the history. -/
theorem lostDelta_not_shown : ¬lostDelta.ShowsReply {} := by
  rintro ⟨m', older, added, -, hadded, -, -, hsuffix⟩
  have hentries : lostDelta.added = some [.assistant "lo"] := by decide +kernel
  obtain rfl := some.inj (hentries.symm.trans hadded)
  revert hsuffix
  decide +kernel

end Oxydra
