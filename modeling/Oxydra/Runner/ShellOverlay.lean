import Oxydra.Library.TextLines
import Oxydra.Library.TomlLayout
import Oxydra.Runner.WrittenConfigs
import Oxydra.Tools.ShellPolicy

/-!
# The shell overlay

`copy_agent_config_to_workspace_with_paths` of `crates/runner/src/lib.rs` prints the agent's
configuration into the workspace, and `write_shell_overlay` replaces the `[tools.shell]` section in
the text: it cuts out what stands from the header to the next line with a bracket, and appends the
section anew. What is searched are lines, those of the values included, so the section is replaced
where no line above it looks like its header and none of its own like a header
(`overlaid_text`).
-/

namespace Oxydra

open List Toml Text

/-! ## The overlay -/

/-- `ShellConfig`, with the fields that the policy does not read. -/
structure FullShellConfig extends ShellConfig where
  enabled : Option Bool := none
  env_keys : Option (List String) := none
  command_timeout_secs : Option UInt64 := none

/-- An `Option` as a datum. -/
def optionDatum {α : Type} (datum : α → Datum) : Option α → Datum
  | some a => datum a
  | none => .absent

def stringsDatum (strings : List String) : Datum := .list (strings.map stringDatum)

/-- The configuration as a value of its type. -/
def FullShellConfig.datum (config : FullShellConfig) : Datum :=
  .record [("enabled", optionDatum booleanDatum config.enabled),
    ("allow", optionDatum stringsDatum config.allow),
    ("deny", optionDatum stringsDatum config.deny),
    ("replace_defaults", optionDatum booleanDatum config.replace_defaults),
    ("allow_operators", optionDatum booleanDatum config.allow_operators),
    ("env_keys", optionDatum stringsDatum config.env_keys),
    ("command_timeout_secs",
      optionDatum (fun secs : UInt64 => unsignedDatum secs.toNat) config.command_timeout_secs)]

/-- `apply_browser_shell_overlay`. -/
def applyBrowserShellOverlay (shell_config : FullShellConfig) : FullShellConfig :=
  { shell_config with
    allow := some (["curl", "jq", "sleep"].foldl
      (fun allow cmd => if cmd ∈ allow then allow else allow ++ [cmd])
      (shell_config.allow.getD []))
    allow_operators := some true }

/-- The document of a configuration. -/
def agentTable (config : Datum) : Table := nestedTable (agentConfig.schema.write config)

def shellTable (shell_config : FullShellConfig) : Table :=
  nestedTable (shellConfig.schema.write shell_config.datum)

/-- The section that is appended. -/
def overlayToml (toml : TomlCrate) (shell_config : FullShellConfig) : String :=
  "\n[tools.shell]\n" ++ ((toml.pretty (shellTable shell_config)).toOption.getD "")

/-- The contents with the section replaced. -/
def overlaid (toml : TomlCrate) (shell_config : FullShellConfig) (contents : String) : String :=
  String.ofList (cutOut "\n[tools.shell]".toList "\n[".toList contents.toList) ++
    overlayToml toml shell_config

/-! ## The files -/

/-- The files of a workspace's internal directory. -/
def agentConfigPath (internal : String) : FilePath := ⟨internal, "agent.toml"⟩
def providersConfigPath (internal : String) : FilePath := ⟨internal, "providers.toml"⟩

/-- `copy_agent_config_to_workspace_with_paths`, of a configuration that is loaded. -/
def copyAgentConfigToWorkspace (toml : TomlCrate) (merged : Datum) (internal : String)
    (files : ConfigFiles) : Except String ConfigFiles := do
  let serialized ← toml.pretty (agentTable merged)
  return (files.insert (agentConfigPath internal) (serialized ++ "\n").toUTF8).erase
    (providersConfigPath internal)

/-- `write_shell_overlay`. -/
def writeShellOverlay (toml : TomlCrate) (shell_config : FullShellConfig)
    (apply : FullShellConfig → FullShellConfig) (internal : String) (files : ConfigFiles) :
    ConfigFiles :=
  match textOf files (agentConfigPath internal) with
  | some contents =>
    files.insert (agentConfigPath internal) (overlaid toml (apply shell_config) contents).toUTF8
  | none => files

/-! ## The text -/

def shellPath : List String := ["tools", "shell"]

def shellHeader : List Char := "[tools.shell]".toList

/-- The crate prints a document as header lines followed by key lines. A header is the line of its
path, in brackets. -/
structure PrintedAs (toml : TomlCrate) (f : LineFormat) (t : Table) (L : Layout) : Prop where
  describes : L.Describes t
  pretty : toml.pretty t = .ok (L.text f)
  lines : ∀ line ∈ L.lines f, '\n' ∉ line
  keyLines : ∀ field ∈ L.root, f.keyLines field ≠ []
  shell : f.header shellPath = shellHeader
  headers : ∀ path ∈ L.paths,
    ['['] <+: f.header path ∧ (shellHeader <+: f.header path → path = shellPath)

/-- The sections above the one of the shell, or all of them. -/
def aboveShell (sections : List Toml.Section) : List Toml.Section :=
  sections.takeWhile fun s => s.path ≠ shellPath

/-- No line of a value above the section looks like its header, and no line of its own values like a
header. -/
structure SectionApart (f : LineFormat) (L : Layout) : Prop where
  above : ∀ keys ∈ L.root :: (aboveShell L.sections).map Section.keys,
    ∀ line ∈ f.lines keys, ¬shellHeader <+: line
  own : ∀ s ∈ L.sections, s.path = shellPath → ∀ line ∈ f.lines s.keys, ¬['['] <+: line

/-- The sections below the one of the shell, which come to stand in its place, and the new one. -/
def movedUp (gap : ℕ) (keys : Table) : List Toml.Section → List Toml.Section
  | [] => [⟨gap, shellPath, keys⟩]
  | s :: sections => ⟨gap, s.path, s.keys⟩ :: (sections ++ [⟨2, shellPath, keys⟩])

/-- The sections with the one of the shell at the end. -/
def shellLast (keys : Table) : List Toml.Section → List Toml.Section
  | [] => [⟨2, shellPath, keys⟩]
  | s :: sections =>
    if s.path = shellPath then movedUp s.gap keys sections else s :: shellLast keys sections

/-- The layout with the section of the shell at the end. -/
def overlaidLayout (L : Layout) (keys : Table) : Layout := ⟨L.root, shellLast keys L.sections⟩

/-- There is no section of the shell, or it stands between others. -/
theorem shellLast_eq (keys : Table) (sections : List Toml.Section) :
    (shellPath ∉ sections.map Section.path ∧ aboveShell sections = sections ∧
      shellLast keys sections = sections ++ [⟨2, shellPath, keys⟩]) ∨
    ∃ before s after, sections = before ++ s :: after ∧ s.path = shellPath ∧
      shellPath ∉ before.map Section.path ∧ aboveShell sections = before ∧
      shellLast keys sections = before ++ movedUp s.gap keys after := by
  induction sections with
  | nil => exact .inl ⟨not_mem_nil, rfl, rfl⟩
  | cons s sections ih =>
    by_cases hs : s.path = shellPath
    · refine .inr ⟨[], s, sections, rfl, hs, not_mem_nil, ?_, ?_⟩
      · exact takeWhile_cons_of_neg (by simp [hs])
      · rw [shellLast, if_pos hs]
        rfl
    · have habove : aboveShell (s :: sections) = s :: aboveShell sections :=
        takeWhile_cons_of_pos (by simp [hs])
      rw [habove, shellLast, if_neg hs]
      obtain ⟨hnot, hall, hlast⟩ | ⟨before, sh, after, rfl, hsh, hbefore, hall, hlast⟩ := ih
      · refine .inl ⟨?_, by rw [hall], by rw [hlast]; rfl⟩
        rw [map_cons, mem_cons, not_or]
        exact ⟨Ne.symm hs, hnot⟩
      · refine .inr ⟨s :: before, sh, after, rfl, hsh, ?_, by rw [hall], by rw [hlast]; rfl⟩
        rw [map_cons, mem_cons, not_or]
        exact ⟨Ne.symm hs, hbefore⟩

/-- Lines that each end in a newline. -/
theorem toList_textOfLines (line : List Char) (lines : List (List Char)) :
    (textOfLines (line :: lines)).toList = line ++ below '\n' (lines ++ [[]]) := by
  rw [textOfLines, String.toList_ofList]
  induction lines generalizing line with
  | nil => simp [below]
  | cons next lines ih =>
    rw [flatMap_cons, ih, append_assoc]
    rfl

theorem below_eq (lines : List (List Char)) :
    below '\n' (lines ++ [[]]) = '\n' :: (textOfLines lines).toList := by
  cases lines with
  | nil => simp [below, textOfLines]
  | cons line lines => rw [toList_textOfLines, cons_append, below_cons]

/-- What is left of lines from the next one with a bracket on. -/
theorem fromStop_append {stop : List Char} {own : List (List Char)} (lines : List (List Char))
    (h : ∀ line ∈ own, ¬stop <+: line) : fromStop stop (own ++ lines) = fromStop stop lines := by
  refine dropWhile_append_of_pos fun line hline => ?_
  have hnot : stop.isPrefixOf line = false :=
    Bool.eq_false_iff.mpr (mt isPrefixOf_iff_prefix.mp (h line hline))
  rw [hnot]
  rfl

theorem fromStop_cons {stop line : List Char} (h : stop <+: line) (lines : List (List Char)) :
    fromStop stop (line :: lines) = line :: lines :=
  dropWhile_cons_of_neg (by simp [List.isPrefixOf_iff_prefix.mpr h])

theorem not_bracket_blank {gap : ℕ} {line : List Char} (h : line ∈ List.replicate gap []) :
    ¬['['] <+: line := by
  rw [eq_of_mem_replicate h]
  decide

/-- The lines of the sections that have moved up. -/
theorem lines_movedUp (f : LineFormat) (gap : ℕ) (keys : Table) (sections : List Toml.Section)
    (hheaders : ∀ s ∈ sections, ['['] <+: f.header s.path) {own : List (List Char)}
    (hown : ∀ line ∈ own, ¬['['] <+: line) :
    List.replicate gap [] ++
        fromStop ['['] (own ++ (sections.flatMap (Section.lines f) ++ [[], []])) ++
          f.header shellPath :: f.lines keys =
      (movedUp gap keys sections).flatMap (Section.lines f) := by
  rw [fromStop_append _ hown]
  cases sections with
  | nil =>
    have hnil : fromStop ['['] ([[], []] : List (List Char)) = [] := by decide
    rw [flatMap_nil, nil_append, hnil, append_nil]
    simp [movedUp, Section.lines]
  | cons s sections =>
    have hnext : fromStop ['['] ((s :: sections).flatMap (Section.lines f) ++ [[], []]) =
        f.header s.path :: (f.lines s.keys ++
          (sections.flatMap (Section.lines f) ++ [[], []])) := by
      rw [flatMap_cons, Section.lines, append_assoc, append_assoc,
        fromStop_append _ fun _ => not_bracket_blank, cons_append,
        fromStop_cons (hheaders s mem_cons_self)]
    rw [hnext]
    simp [movedUp, Section.lines, replicate_succ]

/-- No line of the sections above looks like the header. -/
theorem not_header_above {toml : TomlCrate} {f : LineFormat} {t : Table} {L : Layout}
    (hprinted : PrintedAs toml f t L) (hclear : SectionApart f L) {line : List Char}
    (h : line ∈ (aboveShell L.sections).flatMap (Section.lines f)) : ¬shellHeader <+: line := by
  obtain ⟨s, hs, hline⟩ := mem_flatMap.mp h
  have hmem : s ∈ L.sections := (takeWhile_sublist _).subset hs
  rw [Section.lines, mem_append, mem_cons] at hline
  obtain hblank | rfl | hkeys := hline
  · rw [eq_of_mem_replicate hblank]
    decide
  · intro hpre
    have hshell := (hprinted.headers s.path (mem_map_of_mem hmem)).2 hpre
    simpa [hshell] using mem_takeWhile_imp hs
  · exact hclear.above _ (mem_cons_of_mem _ (mem_map_of_mem hs)) line hkeys

/-- Where its lines are apart, the section is replaced in the text. -/
theorem overlaid_text {toml : TomlCrate} {f : LineFormat} {t : Table} {L Ls : Layout}
    {shell_config : FullShellConfig} (hprinted : PrintedAs toml f t L)
    (hshell : PrintedAs toml f (shellTable shell_config) Ls) (hsections : Ls.sections = [])
    (hroot : L.root ≠ []) (hclear : SectionApart f L) :
    overlaid toml shell_config (L.text f ++ "\n") = (overlaidLayout L Ls.root).text f := by
  obtain ⟨top, rest, htop⟩ : ∃ top rest, f.lines L.root = top :: rest := by
    obtain ⟨field, fields, hfields⟩ := exists_cons_of_ne_nil hroot
    obtain ⟨top, more, hmore⟩ := exists_cons_of_ne_nil
      (hprinted.keyLines field (hfields ▸ mem_cons_self))
    refine ⟨top, more ++ f.lines fields, ?_⟩
    rw [hfields, LineFormat.lines, flatMap_cons, hmore]
    rfl
  have hlines : L.lines f = top :: (rest ++ L.sections.flatMap (Section.lines f)) := by
    rw [Layout.lines, htop, cons_append]
  have hplain := hprinted.lines
  rw [hlines, forall_mem_cons] at hplain
  -- the contents, with the two newlines at their end
  have hcontents : (L.text f ++ "\n").toList =
      top ++ below '\n' (rest ++ L.sections.flatMap (Section.lines f) ++ [[], []]) := by
    rw [String.toList_append, Layout.text, hlines, toList_textOfLines]
    simp [below]
  have hoverlay : (overlayToml toml shell_config).toList =
      below '\n' (f.header shellPath :: f.lines Ls.root ++ [[]]) := by
    have htext : Ls.text f = textOfLines (f.lines Ls.root) := by
      rw [Layout.text, Layout.lines, hsections, flatMap_nil, append_nil]
    rw [overlayToml, hshell.pretty, htext, cons_append, below_cons, below_eq,
      hshell.shell, String.toList_append]
    rfl
  have hcut : cutOut "\n[tools.shell]".toList "\n[".toList (L.text f ++ "\n").toList ++
      below '\n' (f.header shellPath :: f.lines Ls.root ++ [[]]) =
        top ++ below '\n'
          (rest ++ (shellLast Ls.root L.sections).flatMap (Section.lines f) ++ [[]]) := by
    have hheader : '\n' ∉ shellHeader := by decide
    have hrest : ∀ line ∈ rest, ¬shellHeader <+: line := fun line hline =>
      hclear.above L.root mem_cons_self line (htop ▸ mem_cons_of_mem _ hline)
    have hsections : ∀ line ∈ (aboveShell L.sections).flatMap (Section.lines f),
        ¬shellHeader <+: line := fun _ => not_header_above hprinted hclear
    have hblank : ∀ line ∈ ([[], []] : List (List Char)), '\n' ∉ line ∧ ¬shellHeader <+: line := by
      decide
    have hplains : ∀ line ∈ rest ++ L.sections.flatMap (Section.lines f) ++ [[], []],
        '\n' ∉ line := fun line hline =>
      (mem_append.mp hline).elim (hplain.2 line) fun hline => (hblank line hline).1
    rw [hcontents]
    obtain ⟨-, hall, hlast⟩ | ⟨before, s, after, hbetween, hs, -, hall, hlast⟩ :=
      shellLast_eq Ls.root L.sections
    · rw [hall] at hsections
      have hnone : cutOut ('\n' :: shellHeader) "\n[".toList
          (top ++ below '\n' (rest ++ L.sections.flatMap (Section.lines f) ++ [[], []])) =
            top ++ below '\n' (rest ++ L.sections.flatMap (Section.lines f) ++ [[], []]) := by
        refine cutOut_of_none hheader _ hplain.1 hplains fun line hline => ?_
        obtain hline | hline := mem_append.mp hline
        · exact (mem_append.mp hline).elim (hrest line) (hsections line)
        · exact (hblank line hline).2
      rw [show "\n[tools.shell]".toList = '\n' :: shellHeader from rfl, hnone, hlast,
        append_assoc, ← below_append]
      simp [Section.lines, replicate_succ]
    · rw [hall] at hsections
      have hmem : s ∈ L.sections := hbetween ▸ mem_append_right _ mem_cons_self
      have hsplit : rest ++ L.sections.flatMap (Section.lines f) ++ [[], []] =
          (rest ++ before.flatMap (Section.lines f) ++ List.replicate s.gap []) ++
            f.header s.path :: (f.lines s.keys ++
              (after.flatMap (Section.lines f) ++ [[], []])) := by
        rw [hbetween]
        simp [Section.lines]
      have hcut := cutOut_section hheader (show '\n' ∉ ['['] by decide) hplain.1
        (hsplit ▸ hplains) (fun line hline => ?_)
        (show shellHeader <+: f.header s.path by rw [hs, hprinted.shell])
      · have hafter : ∀ s ∈ after, ['['] <+: f.header s.path := fun s hs =>
          (hprinted.headers s.path (mem_map_of_mem
            (hbetween ▸ mem_append_right _ (mem_cons_of_mem _ hs)))).1
        rw [show "\n[tools.shell]".toList = '\n' :: shellHeader from rfl,
          show "\n[".toList = ['\n', '['] from rfl, hsplit, hcut, hlast, flatMap_append,
          ← lines_movedUp f s.gap Ls.root after hafter (hclear.own s hmem hs), append_assoc,
          ← below_append]
        simp
      · obtain hline | hline := mem_append.mp hline
        · exact (mem_append.mp hline).elim (hrest line) (hsections line)
        · rw [eq_of_mem_replicate hline]
          decide
  refine String.toList_inj.mp ?_
  rw [overlaid, String.toList_append, String.toList_ofList, hoverlay, hcut, Layout.text,
    Layout.lines, overlaidLayout, htop, cons_append, toList_textOfLines]

end Oxydra
