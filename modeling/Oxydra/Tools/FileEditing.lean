import Oxydra.Library.Effect
import Oxydra.Library.Occurrences
import Oxydra.Types.Model

/-!
# Editing a file

`file_edit` of `crates/tools/src/sandbox/wasm_runner.rs` and of `crates/wasm-guest/src/main.rs`,
which replaces a snippet of a file. The snippet must stand in one place of the file, and both count
those of its occurrences that do not overlap.
-/

namespace Oxydra

open Effect Text

/-- The programs that edit files. -/
inductive FileRunner where
  | host
  | guest
  deriving DecidableEq

/-- `required_string`. The two programs differ in the text of the error. -/
def FileRunner.requiredString (runner : FileRunner) (arguments : Value) (field tool_name : String) :
    Except String String :=
  match (arguments.get? field).bind Value.asStr with
  | some value => .ok value
  | none => .error <|
    match runner with
    | .host => s!"tool `{tool_name}` requires string argument `{field}`"
    | .guest => s!"operation `{tool_name}` requires string argument `{field}`"

/-- The files of a system, as `fs::read_to_string` and `fs::write` find and leave them. -/
structure FileSystem (σ : Type) where
  readToString : String → σ → Except String String
  write : String → String → EStateM String σ Unit

variable {σ : Type}

/-- `file_edit`. -/
def fileEdit (runner : FileRunner) (files : FileSystem σ) (arguments : Value) :
    EStateM String σ String := do
  let path ← Effect.ofExcept (runner.requiredString arguments "path" "file_edit")
  let old_text ← Effect.ofExcept (runner.requiredString arguments "old_text" "file_edit")
  let new_text ← Effect.ofExcept (runner.requiredString arguments "new_text" "file_edit")
  if old_text = "" then throw "old_text must not be empty"
  else
    let found := files.readToString path (← get)
    let content ← Effect.ofExcept (found.mapError fun error => s!"failed to read `{path}`: {error}")
    let occurrences := countMatches old_text content
    if occurrences = 0 then throw "old_text was not found in target file"
    else if 1 < occurrences then
      throw s!"old_text matched {occurrences} locations; provide a more specific snippet"
    else
      let updated := String.ofList (replaceFirst old_text.toList new_text.toList content.toList)
      (files.write path updated).adaptExcept fun error => s!"failed to write `{path}`: {error}"
      return s!"updated {path}"

/-- The strings of the arguments. -/
structure Edits (runner : FileRunner) (arguments : Value) (path old_text new_text : String) :
    Prop where
  path : runner.requiredString arguments "path" "file_edit" = .ok path
  old_text : runner.requiredString arguments "old_text" "file_edit" = .ok old_text
  new_text : runner.requiredString arguments "new_text" "file_edit" = .ok new_text

/-- `file_edit` ends well only if the snippet stands in one place of the content that was found, and
then the file is written with that occurrence replaced; where it fails, the file stays as it is, or
it was the writing that failed. -/
def EditsOnePlace (runner : FileRunner) (arguments : Value) (found : Except String String) : Prop :=
  ∀ (σ : Type) (files : FileSystem σ) (s : σ),
    (∀ path, runner.requiredString arguments "path" "file_edit" = .ok path →
      files.readToString path s = found) →
    wp (fileEdit runner files arguments)
      (fun _ s' => ∃ path old_text new_text content before after,
        Edits runner arguments path old_text new_text ∧ found = .ok content ∧
        content.toList = before ++ old_text.toList ++ after ∧
        (∀ i, OccursAt old_text.toList content.toList i → i = before.length) ∧
        files.write path (String.ofList (before ++ new_text.toList ++ after)) s = .ok () s')
      (fun _ s' => s' = s ∨ ∃ path updated error, files.write path updated s = .error error s')
      s

/-- What an edit does with a content that it finds. -/
theorem fileEdit_run {runner : FileRunner} {files : FileSystem σ} {arguments : Value} {s : σ}
    {path old_text new_text content : String}
    (h : Edits runner arguments path old_text new_text) (hne : old_text ≠ "")
    (hread : files.readToString path s = .ok content)
    (hcount : countMatches old_text content = 1) :
    fileEdit runner files arguments s =
      ((do
        (files.write path (String.ofList
          (replaceFirst old_text.toList new_text.toList content.toList))).adaptExcept fun error =>
            s!"failed to write `{path}`: {error}"
        return s!"updated {path}") : EStateM String σ String) s := by
  unfold fileEdit
  rw [h.path, h.old_text, h.new_text]
  show (if old_text = "" then _ else _ : EStateM String σ String) s = _
  rw [if_neg hne]
  show ((Effect.ofExcept ((files.readToString path s).mapError _) >>= _ :
    EStateM String σ String)) s = _
  rw [hread]
  show (if countMatches old_text content = 0 then _ else _ : EStateM String σ String) s = _
  rw [if_neg (by omega), if_neg (by omega)]

/-- An edit ends well only where the snippet is counted once, and the occurrence is replaced. -/
theorem wp_fileEdit (runner : FileRunner) (files : FileSystem σ) (arguments : Value) (s : σ) :
    wp (fileEdit runner files arguments)
      (fun _ s' => ∃ path old_text new_text content, Edits runner arguments path old_text new_text ∧
        old_text ≠ "" ∧ files.readToString path s = .ok content ∧
        countMatches old_text content = 1 ∧
        files.write path (String.ofList
          (replaceFirst old_text.toList new_text.toList content.toList)) s = .ok () s')
      (fun _ s' => s' = s ∨ ∃ path updated error, files.write path updated s = .error error s')
      s := by
  unfold fileEdit
  -- the failures before the writing leave the state
  simp only [wp_bind, wp_ofExcept, wp_ite, wp_throw, wp_get, wp_adaptExcept, wp_pure, true_or,
    implies_true, and_true, true_and]
  intro path hpath old_text hold new_text hnew hne content hcontent hzero hone
  have hread := mapError_eq_ok.mp hcontent
  refine (wp_run _ s).mono (fun _ s' hwrite => ?_) (fun error s' hwrite => ?_)
  · exact ⟨path, old_text, new_text, content, ⟨hpath, hold, hnew⟩, hne, hread, by omega, hwrite⟩
  · exact .inr ⟨path, _, error, hwrite⟩

/-- The occurrences of the snippet, where an edit keeps to one place. -/
theorem EditsOnePlace.occurrences {runner : FileRunner} {arguments : Value}
    {path old_text new_text content : String} (h : EditsOnePlace runner arguments (.ok content))
    (hedits : Edits runner arguments path old_text new_text) (hne : old_text ≠ "") :
    (∀ i j, OccursAt old_text.toList content.toList i →
      OccursAt old_text.toList content.toList j → i = j) ∨
    ∃ i j, OccursAt old_text.toList content.toList i ∧
      OccursAt old_text.toList content.toList j ∧ i + old_text.toList.length ≤ j := by
  have hpattern : old_text.toList ≠ [] := fun hnil => hne (String.toList_eq_nil_iff.mp hnil)
  by_contra hnot
  obtain ⟨hsome, hoverlap⟩ := not_or.mp hnot
  push Not at hsome hoverlap
  obtain ⟨i, j, hi, hj, hij⟩ := hsome
  have hcount : countMatches old_text content = 1 :=
    (countFrom_eq_one_iff hpattern _).mpr ⟨hi.infix_of, hoverlap⟩
  -- a file that is always written
  have hwp := h Unit ⟨fun _ _ => .ok content, fun _ _ => pure ()⟩ () fun _ _ => rfl
  obtain ⟨path', old_text', new_text', content', before, after, hedits', hfound', -, hone, -⟩ :=
    hwp.ok (fileEdit_run hedits hne rfl hcount)
  obtain rfl : old_text = old_text' := Except.ok.inj (hedits.old_text.symm.trans hedits'.old_text)
  obtain rfl : content = content' := Except.ok.inj hfound'
  exact hij ((hone i hi).trans (hone j hj).symm)

/-- An edit keeps to one place if the snippet stands in no two places of the content, or in two that
do not overlap. -/
theorem editsOnePlace_iff (runner : FileRunner) (arguments : Value)
    (found : Except String String) :
    EditsOnePlace runner arguments found ↔
      ∀ path old_text new_text content, Edits runner arguments path old_text new_text →
        old_text ≠ "" → found = .ok content →
        (∀ i j, OccursAt old_text.toList content.toList i →
          OccursAt old_text.toList content.toList j → i = j) ∨
        ∃ i j, OccursAt old_text.toList content.toList i ∧
          OccursAt old_text.toList content.toList j ∧ i + old_text.toList.length ≤ j := by
  constructor
  · rintro h path old_text new_text content hedits hne rfl
    exact h.occurrences hedits hne
  · intro h σ files s hfiles
    refine (wp_fileEdit runner files arguments s).mono (fun _ s' hok => ?_) fun _ _ herror => herror
    obtain ⟨path, old_text, new_text, content, hedits, hne, hread, hcount, hwrite⟩ := hok
    have hpattern : old_text.toList ≠ [] := fun hnil => hne (String.toList_eq_nil_iff.mp hnil)
    obtain ⟨hin, hoverlap⟩ := (countFrom_eq_one_iff hpattern _).mp hcount
    have hfound : found = .ok content := (hfiles path hedits.path).symm.trans hread
    obtain ⟨before, after, hcontent, -, -, hreplaced⟩ :=
      exists_first hpattern new_text.toList hin
    rw [hreplaced] at hwrite
    have hfirst : OccursAt old_text.toList content.toList before.length := by
      rw [hcontent, OccursAt, List.append_assoc, List.drop_left]
      exact List.prefix_append _ _
    refine ⟨path, old_text, new_text, content, before, after, hedits, hfound, hcontent,
      fun i hi => ?_, hwrite⟩
    obtain hsame | ⟨i', j', hi', hj', hle⟩ := h path old_text new_text content hedits hne hfound
    · exact hsame i _ hi hfirst
    · have hlt := hoverlap i' j' hi' hj'
      omega

/-- An edit of `aa` in `aaa`, where it stands in two places. -/
theorem fileEdit_overlapping :
    ¬EditsOnePlace .host (.object [("new_text", .string "b"), ("old_text", .string "aa"),
      ("path", .string "/shared/notes.txt")]) (.ok "aaa") := by
  intro h
  obtain hsame | ⟨i, j, -, hj, hle⟩ := h.occurrences ⟨rfl, rfl, rfl⟩ (by decide)
  · exact absurd (hsame 0 1 (by decide) (by decide)) (by decide)
  · have hlen := hj.length_le
    rw [List.length_drop] at hlen
    have hroom : 2 ≤ 3 - j := hlen
    have hbehind : i + 2 ≤ j := hle
    omega

end Oxydra
