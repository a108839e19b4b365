import Mathlib.Data.List.Induction
import Oxydra.Library.TextEditing

/-!
# The input line of the terminal interface

`crates/tui/src/ui_model.rs` keeps the line that is typed as a `String` with a cursor that counts
bytes, and `handle_action` of `crates/tui/src/app.rs` applies the editing actions to it.

`editsLikeLine_iff`: the two are those of a line of characters, after every action, exactly where
Delete is never pressed at the end of a line that is not empty. It is a move to the right and a
Backspace, so there it removes the character before the cursor. The cursor is on a character
boundary and no action panics in any case (`InputFields.run_shows`).
-/

namespace Oxydra

open String Option List Text

/-! ## The fields and the actions -/

/-- `input_buffer` and `input_cursor_position` of `TuiViewModel`. -/
structure InputFields where
  input_buffer : String
  input_cursor_position : ℕ
  deriving DecidableEq, Repr

/-- The actions that edit the line; `take_input` is done when it is sent. -/
inductive EditAction where
  | char (c : Char)
  | backspace
  | delete
  | cursorLeft
  | cursorRight
  | home
  | «end»
  | takeInput
  deriving DecidableEq, Repr

namespace InputFields

/-- `TuiViewModel::new`. -/
def new : InputFields := ⟨"", 0⟩

section

variable (m : InputFields)

/-- `insert_char`. -/
def insertChar (c : Char) : Option InputFields := do
  let buffer ← Text.insertChar m.input_cursor_position c m.input_buffer
  return ⟨buffer, m.input_cursor_position + c.utf8Size⟩

/-- The character boundary before the cursor. -/
def previous : Option ℕ := do
  let head ← sliceTo m.input_cursor_position m.input_buffer
  return ((charIndices head).getLast?.map Prod.fst).getD 0

/-- `delete_char`. -/
def deleteChar : Option InputFields :=
  if 0 < m.input_cursor_position then do
    let prev ← m.previous
    let buffer ← drain prev m.input_cursor_position m.input_buffer
    return ⟨buffer, prev⟩
  else some m

/-- `move_cursor_left`. -/
def moveCursorLeft : Option InputFields :=
  if 0 < m.input_cursor_position then do
    let prev ← m.previous
    return { m with input_cursor_position := prev }
  else some m

/-- `move_cursor_right`. -/
def moveCursorRight : Option InputFields :=
  if m.input_cursor_position < m.input_buffer.utf8ByteSize then do
    let tail ← sliceFrom m.input_cursor_position m.input_buffer
    let next := (charIndices tail)[1]?.map fun (idx, _) => m.input_cursor_position + idx
    return { m with input_cursor_position := next.getD m.input_buffer.utf8ByteSize }
  else some m

end

/-- `take_input`. -/
def takeInput (_ : InputFields) : InputFields := ⟨"", 0⟩

/-- What `handle_action` does for an action that edits the line, or `none` where it panics. -/
def handleAction (m : InputFields) : EditAction → Option InputFields
  | .char c => m.insertChar c
  | .backspace => m.deleteChar
  | .delete => do (← m.moveCursorRight).deleteChar
  | .cursorLeft => m.moveCursorLeft
  | .cursorRight => m.moveCursorRight
  | .home => some { m with input_cursor_position := 0 }
  | .end => some { m with input_cursor_position := m.input_buffer.utf8ByteSize }
  | .takeInput => some m.takeInput

/-- The fields after some actions. -/
def run (m : InputFields) (actions : List EditAction) : Option InputFields :=
  actions.foldlM handleAction m

end InputFields

/-! ## A line of characters -/

/-- A line of characters with a cursor: those before it and those after it. -/
structure Line where
  before : List Char
  after : List Char
  deriving DecidableEq, Repr

namespace Line

/-- An empty line. -/
def empty : Line := ⟨[], []⟩

/-- The characters of a line. -/
def chars (line : Line) : List Char := line.before ++ line.after

/-- What an action does to a line. -/
def edit (line : Line) : EditAction → Line
  | .char c => { line with before := line.before ++ [c] }
  | .backspace => { line with before := line.before.dropLast }
  | .delete => { line with after := line.after.tail }
  | .cursorLeft =>
    { before := line.before.dropLast, after := line.before.getLast?.toList ++ line.after }
  | .cursorRight =>
    { before := line.before ++ line.after.head?.toList, after := line.after.tail }
  | .home => { before := [], after := line.chars }
  | .end => { before := line.chars, after := [] }
  | .takeInput => empty

/-- The line after some actions. -/
def run (line : Line) (actions : List EditAction) : Line := actions.foldl edit line

/-- One more action. -/
theorem run_concat (line : Line) (done : List EditAction) (action : EditAction) :
    line.run (done ++ [action]) = (line.run done).edit action :=
  foldl_concat ..

end Line

/-- The fields that show a line: its characters, and the bytes before its cursor. -/
def Line.fields (line : Line) : InputFields where
  input_buffer := String.ofList line.before ++ String.ofList line.after
  input_cursor_position := (String.ofList line.before).utf8ByteSize

/-- The cursor is on a boundary of the buffer. -/
theorem Line.isCharBoundary_fields (line : Line) :
    IsCharBoundary line.fields.input_cursor_position line.fields.input_buffer :=
  ⟨_, _, rfl, rfl⟩

/-! ## One action -/

/-- A character at the end. -/
theorem ofList_snoc (cs : List Char) (c : Char) :
    String.ofList (cs ++ [c]) = String.ofList cs ++ String.singleton c := by
  rw [ofList_append, singleton_eq_ofList]

namespace InputFields

variable (cs after : List Char) (c : Char)

/-- The cursor is behind a character. -/
theorem cursor_pos : 0 < (Line.fields ⟨cs ++ [c], after⟩).input_cursor_position := by
  have hpos := c.utf8Size_pos
  dsimp only [Line.fields]
  rw [ofList_snoc, utf8ByteSize_append, utf8ByteSize_singleton]
  omega

/-- The boundary before the cursor is where the last character before it begins. -/
theorem previous_fields :
    (Line.fields ⟨cs ++ [c], after⟩).previous = some (String.ofList cs).utf8ByteSize := by
  unfold previous
  dsimp only [Line.fields]
  rw [sliceTo_append, ofList_snoc, bind_eq_bind, bind_some, getLast?_charIndices]
  rfl

section

variable (line : Line)

/-- A character is typed. -/
theorem insertChar_fields :
    line.fields.insertChar c = some (line.edit (.char c)).fields := by
  unfold insertChar
  dsimp only [Line.fields, Line.edit]
  rw [insertChar_append, ofList_snoc, utf8ByteSize_append, utf8ByteSize_singleton]
  rfl

/-- The character before the cursor goes. -/
theorem deleteChar_fields :
    line.fields.deleteChar = some (line.edit .backspace).fields := by
  obtain ⟨before, after⟩ := line
  rcases eq_nil_or_concat' before with rfl | ⟨cs, c, rfl⟩
  · rfl
  · rw [deleteChar, if_pos (cursor_pos cs after c), previous_fields, bind_eq_bind,
      bind_some]
    dsimp only [Line.fields, Line.edit]
    rw [ofList_snoc, drain_append, dropLast_concat]
    rfl

/-- The cursor goes left. -/
theorem moveCursorLeft_fields :
    line.fields.moveCursorLeft = some (line.edit .cursorLeft).fields := by
  obtain ⟨before, after⟩ := line
  rcases eq_nil_or_concat' before with rfl | ⟨cs, c, rfl⟩
  · rfl
  · rw [moveCursorLeft, if_pos (cursor_pos cs after c), previous_fields]
    dsimp only [Line.fields, Line.edit]
    rw [dropLast_concat, List.getLast?_concat, ofList_snoc, String.append_assoc,
      ← String.ofList_cons]
    rfl

/-- The cursor goes right. -/
theorem moveCursorRight_fields :
    line.fields.moveCursorRight = some (line.edit .cursorRight).fields := by
  obtain ⟨before, after⟩ := line
  cases after with
  | nil =>
    have hend : ¬(Line.fields ⟨before, []⟩).input_cursor_position <
        (Line.fields ⟨before, []⟩).input_buffer.utf8ByteSize := by
      dsimp only [Line.fields]
      rw [ofList_nil, append_empty]
      exact lt_irrefl _
    rw [moveCursorRight, if_neg hend, Line.edit, List.head?_nil, toList_none,
      append_nil]
    rfl
  | cons c after =>
    have hpos := c.utf8Size_pos
    have hinside : (Line.fields ⟨before, c :: after⟩).input_cursor_position <
        (Line.fields ⟨before, c :: after⟩).input_buffer.utf8ByteSize := by
      dsimp only [Line.fields]
      rw [utf8ByteSize_append, utf8ByteSize_cons]
      omega
    rw [moveCursorRight, if_pos hinside]
    dsimp only [Line.fields, Line.edit, List.head?_cons, toList_some, tail_cons]
    rw [sliceFrom_append, bind_eq_bind, bind_some, ofList_cons, ofList_snoc,
      getD_next_charIndices, String.append_assoc, String.utf8ByteSize_append,
      String.utf8ByteSize_singleton]
    rfl

/-- Delete is a move to the right and a Backspace. -/
theorem delete_fields :
    line.fields.handleAction .delete =
      some ((line.edit .cursorRight).edit .backspace).fields := by
  rw [handleAction, moveCursorRight_fields, bind_eq_bind, bind_some,
    deleteChar_fields]

/-- An action other than Delete does what it does to the line. -/
theorem handleAction_fields {action : EditAction} (h : action ≠ .delete) :
    line.fields.handleAction action = some (line.edit action).fields := by
  cases action with
  | char c => exact insertChar_fields c line
  | backspace => exact deleteChar_fields line
  | delete => exact absurd rfl h
  | cursorLeft => exact moveCursorLeft_fields line
  | cursorRight => exact moveCursorRight_fields line
  | home =>
    dsimp only [handleAction, Line.fields, Line.edit, Line.chars]
    rw [ofList_append, ofList_nil, empty_append]
    rfl
  | «end» =>
    dsimp only [handleAction, Line.fields, Line.edit, Line.chars]
    rw [ofList_append, ofList_nil, append_empty]
  | takeInput => rfl

end

/-- The cursor is at the end of a buffer that is not empty. -/
def AtEndOfText (m : InputFields) : Prop :=
  m.input_buffer ≠ "" ∧ m.input_cursor_position = m.input_buffer.utf8ByteSize

/-- Where the cursor is at the end. -/
theorem atEndOfText_fields (line : Line) :
    line.fields.AtEndOfText ↔ line.before ≠ [] ∧ line.after = [] := by
  obtain ⟨before, after⟩ := line
  dsimp only [AtEndOfText, Line.fields]
  rw [utf8ByteSize_append, left_eq_add, utf8ByteSize_eq_zero_iff,
    ofList_eq_empty_iff]
  refine and_congr_left fun hafter => ?_
  rw [hafter, ofList_nil, append_empty, Ne, ofList_eq_empty_iff]

/-- Delete does what it does to the line exactly where it is not pressed at the end of a text. -/
theorem delete_fields_iff (line : Line) :
    line.fields.handleAction .delete = some (line.edit .delete).fields ↔
      ¬line.fields.AtEndOfText := by
  rw [delete_fields, atEndOfText_fields]
  obtain ⟨before, after⟩ := line
  cases after with
  | nil =>
    dsimp only [Line.edit, List.head?_nil, toList_none, tail_nil]
    rw [append_nil]
    constructor
    · rintro h ⟨hne, -⟩
      have hbuffer := congrArg input_buffer (some.inj h)
      dsimp only [Line.fields] at hbuffer
      rw [← ofList_append, ← ofList_append, ofList_inj, append_nil,
        append_nil] at hbuffer
      have hlength := congrArg List.length hbuffer
      have hpos := length_pos_iff.mpr hne
      rw [length_dropLast] at hlength
      omega
    · intro h
      obtain rfl : before = [] := not_not.mp fun hne => h ⟨hne, rfl⟩
      rfl
  | cons c after =>
    dsimp only [Line.edit, List.head?_cons, toList_some, tail_cons]
    rw [dropLast_concat]
    simp

/-! ## Any actions -/

/-- One more action. -/
theorem run_concat (m : InputFields) (done : List EditAction) (action : EditAction) :
    m.run (done ++ [action]) = (m.run done).bind fun m' => m'.handleAction action := by
  unfold run
  rw [foldlM_append]
  simp only [foldlM_cons, foldlM_nil, bind_pure]
  rfl

/-- No action panics, and the fields always show a line. -/
theorem run_shows (actions : List EditAction) :
    ∃ line : Line, new.run actions = some line.fields := by
  induction actions using List.reverseRecOn with
  | nil => exact ⟨.empty, rfl⟩
  | append_singleton done action ih =>
    obtain ⟨line, hline⟩ := ih
    rw [run_concat, hline, bind_some]
    by_cases h : action = .delete
    · exact ⟨_, h ▸ delete_fields line⟩
    · exact ⟨_, handleAction_fields line h⟩

/-- After each action the cursor is on a boundary of the buffer, and the two are those of the line
that the actions make. -/
def EditsLikeLine (actions : List EditAction) : Prop :=
  ∀ done, done <+: actions → ∃ m, new.run done = some m ∧
    IsCharBoundary m.input_cursor_position m.input_buffer ∧ m = (Line.empty.run done).fields

/-- Delete is not pressed at the end of a text. -/
def NoDeleteAtEnd (actions : List EditAction) : Prop :=
  ∀ done, done ++ [.delete] <+: actions → ∀ m, new.run done = some m → ¬m.AtEndOfText

end InputFields

open InputFields

/-- The fields are those of the line exactly where Delete is not pressed at the end of a text. In
any case no action panics, and the cursor is on a boundary of the buffer. -/
theorem editsLikeLine_iff (actions : List EditAction) :
    (∃ m, InputFields.new.run actions = some m ∧
      IsCharBoundary m.input_cursor_position m.input_buffer) ∧
    (EditsLikeLine actions ↔ NoDeleteAtEnd actions) := by
  refine ⟨?_, fun h done hdone m hm => ?_, fun h done => ?_⟩
  · obtain ⟨line, hline⟩ := run_shows actions
    exact ⟨_, hline, line.isCharBoundary_fields⟩
  · obtain ⟨m', hm', -, rfl⟩ := h done ((prefix_append done _).trans hdone)
    obtain ⟨m'', hm'', -, rfl⟩ := h _ hdone
    obtain rfl := some.inj (hm.symm.trans hm')
    rw [run_concat, hm, bind_some, Line.run_concat] at hm''
    exact (delete_fields_iff _).mp hm''
  · induction done using List.reverseRecOn with
    | nil => exact fun _ => ⟨_, rfl, Line.isCharBoundary_fields .empty, rfl⟩
    | append_singleton done action ih =>
      intro hdone
      obtain ⟨m, hm, -, rfl⟩ := ih ((prefix_append done _).trans hdone)
      refine ⟨_, ?_, Line.isCharBoundary_fields _, rfl⟩
      rw [run_concat, hm, bind_some, Line.run_concat]
      by_cases hdelete : action = .delete
      · subst hdelete
        exact (delete_fields_iff _).mpr (h done hdone _ hm)
      · exact handleAction_fields _ hdelete

/-- One character is typed, and Delete is pressed after it. -/
theorem deleteAtEnd_differs : ¬EditsLikeLine [.char 'a', .delete] := by
  intro h
  obtain ⟨m, hm, -, rfl⟩ := h _ (prefix_refl _)
  revert hm
  decide

end Oxydra
