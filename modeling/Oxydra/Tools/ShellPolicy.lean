import Mathlib.Data.Finset.Sort
import Oxydra.Library.TextSearch
import Oxydra.Library.UnixPath
import Oxydra.Tools.Registry

/-!
# Which shell commands are allowed

The part of `WorkspaceSecurityPolicy` (`crates/tools/src/sandbox/policy.rs`) that shell commands are
held to: a set of names, patterns for more names, and whether shell operators may be used.
`with_shell_config` edits them by the configuration, and `enforce_shell_command` looks at the first
word of a command.

A denied name is taken off the set, and a denied pattern takes off what it matches. A pattern that
allows names stays unless a denied pattern matches its text, so a name may be denied and allowed at
once: `deny_wins_iff` says exactly when.
-/

namespace Oxydra

open List

/-- `ShellConfig`, the fields that the policy reads. -/
structure ShellConfig where
  allow : Option (List String) := none
  deny : Option (List String) := none
  replace_defaults : Option Bool := none
  allow_operators : Option Bool := none
  deriving DecidableEq, Repr

/-- The fields of `WorkspaceSecurityPolicy` that shell commands are held to. -/
structure ShellRules where
  shell_command_allowlist : Finset String
  shell_command_allow_globs : List String
  allow_shell_operators : Bool
  deriving DecidableEq

/-! ## Patterns -/

/-- Whether an entry of the configuration is a pattern. -/
def isGlob (entry : String) : Bool := '*' ∈ entry.toList

/-- `glob_matches`: a `*` counts at the ends of a pattern. -/
def globMatches (pattern candidate : String) : Bool :=
  if pattern = "*" then true
  else
    let starts := pattern.toList.head? == some '*'
    let ends := pattern.toList.getLast? == some '*'
    match starts, ends with
    | true, true => decide (pattern.toList.tail.dropLast <:+: candidate.toList)
    | true, false => decide (pattern.toList.tail <:+ candidate.toList)
    | false, true => decide (pattern.toList.dropLast <+: candidate.toList)
    | false, false => candidate = pattern

/-! ## The configuration -/

/-- `default_shell_command_allowlist`. -/
def defaultShellCommandAllowlist : Finset String :=
  ["awk", "cat", "cargo", "cp", "curl", "cut", "echo", "env", "find", "git", "go", "grep", "head",
    "jq", "ls", "mkdir", "mv", "node", "printf", "pwd", "python", "python3", "rustc", "sed",
    "sleep", "sort", "stat", "tail", "touch", "tr", "uniq", "wc", "which"].toFinset

/-- The rules of a new policy. -/
def ShellRules.new : ShellRules where
  shell_command_allowlist := defaultShellCommandAllowlist
  shell_command_allow_globs := []
  allow_shell_operators := true

/-- One entry of the allow list. -/
def ShellRules.allowEntry (rules : ShellRules) (entry : String) : ShellRules :=
  if isGlob entry then
    { rules with
      shell_command_allow_globs := rules.shell_command_allow_globs ++ [Text.asciiLower entry] }
  else
    { rules with
      shell_command_allowlist := insert (Text.asciiLower entry) rules.shell_command_allowlist }

/-- One entry of the deny list. A pattern is not kept for later. -/
def ShellRules.denyEntry (rules : ShellRules) (entry : String) : ShellRules :=
  if isGlob entry then
    let pattern := Text.asciiLower entry
    { rules with
      shell_command_allowlist := rules.shell_command_allowlist.filter fun cmd =>
        !globMatches pattern cmd
      -- the pattern is matched against the text of a pattern that allows names
      shell_command_allow_globs := rules.shell_command_allow_globs.filter fun g =>
        !globMatches pattern (Text.trimStartMatches '!' g) }
  else
    { rules with
      shell_command_allowlist := rules.shell_command_allowlist.erase (Text.asciiLower entry) }

/-- `with_shell_config`. -/
def ShellRules.withShellConfig (rules : ShellRules) (config : Option ShellConfig) : ShellRules :=
  match config with
  | none => rules
  | some config =>
    let rules := if config.replace_defaults.getD false then
        { rules with shell_command_allowlist := ∅, shell_command_allow_globs := [] }
      else rules
    let rules := (config.allow.getD []).foldl ShellRules.allowEntry rules
    let rules := (config.deny.getD []).foldl ShellRules.denyEntry rules
    { rules with allow_shell_operators := config.allow_operators.getD true }

/-! ## Commands -/

/-- `contains_disallowed_shell_syntax`. -/
def containsDisallowedShellSyntax (command : String) : Bool :=
  Text.contains "&&" command || Text.contains "||" command || Text.contains ";" command ||
    Text.contains "|" command || Text.contains ">" command || Text.contains "<" command ||
    Text.contains "`" command || Text.contains "$(" command || Text.contains "\n" command ||
    Text.contains "\r" command

/-- The file name of a program in lower case, or the text itself where it names no file. -/
def executableName (text : String) : String :=
  Text.asciiLower ((UnixPath.parse text).fileName.getD text)

/-- `parse_command_name`. -/
def parseCommandName (command : String) (allow_operators : Bool) :
    Except SecurityPolicyViolation String :=
  let trimmed := Text.trim command
  if trimmed = "" then
    .error ⟨.invalidArguments, "command argument must not be empty"⟩
  else if !allow_operators && containsDisallowedShellSyntax trimmed then
    .error ⟨.commandNotAllowed, "command contains shell control operators; only a single " ++
      "allowlisted command is permitted"⟩
  else
    match Text.firstWord trimmed with
    | none => .error ⟨.invalidArguments, "command argument must include an executable name"⟩
    | some first_token =>
      let command_name := executableName first_token
      if command_name = "" then
        .error ⟨.invalidArguments, "command executable name must not be empty"⟩
      else .ok command_name

instance isTrans_string_le : IsTrans String fun a b : String => a ≤ b := inferInstance

instance antisymm_string_le : Std.Antisymm fun a b : String => a ≤ b := inferInstance

/-- `enforce_shell_command`. -/
def ShellRules.enforceShellCommand (rules : ShellRules) (command : String) :
    Except SecurityPolicyViolation Unit :=
  match parseCommandName command rules.allow_shell_operators with
  | .error violation => .error violation
  | .ok command_name =>
    if command_name ∈ rules.shell_command_allowlist then .ok ()
    else if rules.shell_command_allow_globs.any fun pattern => globMatches pattern command_name then
      .ok ()
    else
      let allowed := rules.shell_command_allowlist.sort ++ rules.shell_command_allow_globs
      .error ⟨.commandNotAllowed,
        "command `" ++ command_name ++ "` is not in shell allowlist [" ++
          String.intercalate ", " allowed ++ "]"⟩

/-! ## What a denied entry matches -/

/-- A pattern also matches when the letter case is lowered on both sides. -/
theorem globMatches_asciiLower {pattern candidate : String} (h : globMatches pattern candidate) :
    globMatches (Text.asciiLower pattern) (Text.asciiLower candidate) := by
  -- the letter case does not decide where the stars are
  have hstar : ∀ o : Option Char, (o.map Char.toLower == some '*') = (o == some '*') := by
    rintro (_ | c)
    · rfl
    · rw [Bool.eq_iff_iff, Option.map_some, beq_iff_eq, beq_iff_eq, Option.some_inj,
        Option.some_inj]
      exact Text.toLower_eq_iff (by decide) c
  unfold globMatches at h ⊢
  by_cases hall : pattern = "*"
  · have hlower : Text.asciiLower pattern = "*" := by
      rw [hall]
      decide
    rw [if_pos hlower]
  · rw [if_neg hall] at h
    split_ifs
    · rfl
    · simp only [Text.toList_asciiLower, List.head?_map, List.getLast?_map, hstar, ← map_tail,
        ← map_dropLast]
      cases hs : pattern.toList.head? == some '*' <;>
        cases he : pattern.toList.getLast? == some '*' <;>
        simp only [hs, he, decide_eq_true_eq] at h ⊢
      · rw [h]
      · exact h.map _
      · exact h.map _
      · exact h.map _

/-- A text with a star matches itself. -/
theorem globMatches_self (entry : String) : globMatches entry entry := by
  unfold globMatches
  split_ifs
  · rfl
  · cases entry.toList.head? == some '*' <;> cases entry.toList.getLast? == some '*' <;>
      simp only [decide_eq_true_eq]
    · exact dropLast_prefix _
    · exact tail_suffix _
    · exact (List.dropLast_prefix _).isInfix.trans (tail_suffix _).isInfix

/-- A text without a star matches nothing else. -/
theorem globMatches_of_not_isGlob {entry candidate : String} (hentry : isGlob entry = false)
    (h : globMatches entry candidate) : candidate = entry := by
  have hmem : '*' ∉ entry.toList := by simpa [isGlob] using hentry
  have hhead : (entry.toList.head? == some '*') = false := by
    rw [beq_eq_false_iff_ne]
    exact fun hstar => hmem (mem_of_mem_head? hstar)
  have hlast : (entry.toList.getLast? == some '*') = false := by
    rw [beq_eq_false_iff_ne]
    exact fun hstar => hmem (mem_of_getLast? hstar)
  unfold globMatches at h
  split_ifs at h with hall
  · exact absurd (by rw [hall]; decide) hmem
  · simpa only [hhead, hlast, decide_eq_true_eq] using h

/-! ## The edited rules -/

/-- What a deny entry takes off the set of names. -/
def takesName (entry name : String) : Bool :=
  if isGlob entry then globMatches (Text.asciiLower entry) name else Text.asciiLower entry = name

/-- What a deny entry takes off the patterns. -/
def takesGlob (entry glob : String) : Bool :=
  isGlob entry && globMatches (Text.asciiLower entry) (Text.trimStartMatches '!' glob)

/-- The rules after the allow list. -/
theorem mem_foldl_allowEntry (entries : List String) (rules : ShellRules) :
    (∀ name, name ∈ (entries.foldl ShellRules.allowEntry rules).shell_command_allowlist ↔
      name ∈ rules.shell_command_allowlist ∨
        ∃ entry ∈ entries, isGlob entry = false ∧ name = Text.asciiLower entry) ∧
    ∀ glob, glob ∈ (entries.foldl ShellRules.allowEntry rules).shell_command_allow_globs ↔
      glob ∈ rules.shell_command_allow_globs ∨
        ∃ entry ∈ entries, isGlob entry = true ∧ glob = Text.asciiLower entry := by
  induction entries generalizing rules with
  | nil => simp
  | cons entry entries ih =>
    rw [foldl_cons]
    obtain ⟨hnames, hglobs⟩ := ih (rules.allowEntry entry)
    cases hentry : isGlob entry
    · refine ⟨fun name => (hnames name).trans ?_, fun glob => (hglobs glob).trans ?_⟩ <;>
        simp [ShellRules.allowEntry, hentry, or_assoc, or_left_comm]
    · refine ⟨fun name => (hnames name).trans ?_, fun glob => (hglobs glob).trans ?_⟩ <;>
        simp [ShellRules.allowEntry, hentry, or_assoc]

/-- The rules after the deny list. -/
theorem mem_foldl_denyEntry (entries : List String) (rules : ShellRules) :
    (∀ name, name ∈ (entries.foldl ShellRules.denyEntry rules).shell_command_allowlist ↔
      name ∈ rules.shell_command_allowlist ∧ ∀ entry ∈ entries, takesName entry name = false) ∧
    ∀ glob, glob ∈ (entries.foldl ShellRules.denyEntry rules).shell_command_allow_globs ↔
      glob ∈ rules.shell_command_allow_globs ∧
        ∀ entry ∈ entries, takesGlob entry glob = false := by
  induction entries generalizing rules with
  | nil => simp
  | cons entry entries ih =>
    rw [foldl_cons]
    obtain ⟨hnames, hglobs⟩ := ih (rules.denyEntry entry)
    refine ⟨fun name => (hnames name).trans ?_, fun glob => (hglobs glob).trans ?_⟩
    · cases hentry : isGlob entry
      · simp [ShellRules.denyEntry, takesName, hentry, and_assoc, and_left_comm,
          eq_comm (a := name)]
      · simp [ShellRules.denyEntry, takesName, hentry, and_assoc]
    · cases hentry : isGlob entry <;>
        simp [ShellRules.denyEntry, takesGlob, hentry, and_assoc]

/-! ## Denied commands -/

/-- The rules of a policy under a configuration. -/
def configuredRules (config : ShellConfig) : ShellRules :=
  ShellRules.new.withShellConfig (some config)

section

variable {config : ShellConfig} {command name : String}

/-- The names that a policy allows were allowed, and no deny entry takes them off. -/
theorem mem_configuredRules_allowlist
    (h : name ∈ (configuredRules config).shell_command_allowlist) :
    ∀ entry ∈ config.deny.getD [], takesName entry name = false :=
  ((mem_foldl_denyEntry _ _).1 name).mp h |>.2

/-- The patterns that a policy allows names by are entries of the allow list that no deny entry takes
off. -/
theorem mem_configuredRules_globs {glob : String} :
    glob ∈ (configuredRules config).shell_command_allow_globs ↔
      (∃ entry ∈ config.allow.getD [], isGlob entry = true ∧ glob = Text.asciiLower entry) ∧
        ∀ entry ∈ config.deny.getD [], takesGlob entry glob = false := by
  refine ((mem_foldl_denyEntry _ _).2 glob).trans (and_congr_left fun _ => ?_)
  refine ((mem_foldl_allowEntry _ _).2 glob).trans (or_iff_right ?_)
  split_ifs <;> exact not_mem_nil

/-- The name that a command is judged by has no upper case. -/
theorem asciiLower_of_parseCommandName {allow_operators : Bool}
    (h : parseCommandName command allow_operators = .ok name) : Text.asciiLower name = name := by
  unfold parseCommandName at h
  dsimp only at h
  split_ifs at h
  split at h
  · simp at h
  · split_ifs at h
    rw [← Except.ok.inj h]
    exact Text.asciiLower_asciiLower _

variable (config command name)

/-- A deny entry is the name, but for letter case, or a pattern that matches it. -/
def DeniesName : Prop :=
  ∃ entry ∈ config.deny.getD [],
    Text.asciiLower entry = Text.asciiLower name ∨ globMatches entry name = true

/-- A command whose name a deny entry matches is refused. -/
def DenyWins : Prop :=
  ∀ name, parseCommandName command (configuredRules config).allow_shell_operators = .ok name →
    DeniesName config name →
    ∃ violation, (configuredRules config).enforceShellCommand command = .error violation

variable {config command name}

/-- A denied name is taken off the set of names. -/
theorem DeniesName.takesName (hlower : Text.asciiLower name = name) (h : DeniesName config name) :
    ∃ entry ∈ config.deny.getD [], takesName entry name = true := by
  obtain ⟨entry, hentry, hmatch⟩ := h
  refine ⟨entry, hentry, ?_⟩
  rw [hlower] at hmatch
  unfold Oxydra.takesName
  cases hglob : isGlob entry
  · obtain heq | hmatch := hmatch
    · simpa using heq
    · obtain rfl := globMatches_of_not_isGlob hglob hmatch
      simpa using hlower
  · rw [if_pos rfl]
    obtain heq | hmatch := hmatch
    · rw [heq]
      exact globMatches_self name
    · rw [← hlower]
      exact globMatches_asciiLower hmatch

/-- Deny wins exactly where no pattern of the allow list matches a denied name, other than those
whose text a denied pattern matches. -/
theorem deny_wins_iff : DenyWins config command ↔
    ∀ name, parseCommandName command (configuredRules config).allow_shell_operators = .ok name →
      DeniesName config name →
      ∀ glob ∈ config.allow.getD [], isGlob glob = true →
        (∀ entry ∈ config.deny.getD [], takesGlob entry (Text.asciiLower glob) = false) →
        globMatches (Text.asciiLower glob) name = false := by
  refine forall_congr' fun name => imp_congr_right fun hname => imp_congr_right fun hdenied => ?_
  have hlower := asciiLower_of_parseCommandName hname
  obtain ⟨entry, hentry, htakes⟩ := hdenied.takesName hlower
  have hlist : name ∉ (configuredRules config).shell_command_allowlist := fun hmem => by
    rw [mem_configuredRules_allowlist hmem entry hentry] at htakes
    exact Bool.noConfusion htakes
  -- so the command is refused exactly where no pattern matches its name
  have hrefused : (∃ violation,
      (configuredRules config).enforceShellCommand command = .error violation) ↔
      ∀ glob ∈ (configuredRules config).shell_command_allow_globs,
        globMatches glob name = false := by
    unfold ShellRules.enforceShellCommand
    rw [hname]
    dsimp only
    rw [if_neg hlist]
    split_ifs with hany
    · refine iff_of_false (by simp) fun hnone => ?_
      obtain ⟨glob, hglob, hmatch⟩ := any_eq_true.mp hany
      rw [hnone glob hglob] at hmatch
      exact Bool.noConfusion hmatch
    · refine iff_of_true ⟨_, rfl⟩ fun glob hglob => ?_
      have hnone := mt any_eq_true.mpr hany
      push Not at hnone
      simpa using hnone glob hglob
  rw [hrefused]
  constructor
  · intro h glob hglob hpattern hkept
    exact h _ (mem_configuredRules_globs.mpr ⟨⟨glob, hglob, hpattern, rfl⟩, hkept⟩)
  · intro h glob hglob
    obtain ⟨⟨entry, hentry, hpattern, rfl⟩, hkept⟩ := mem_configuredRules_globs.mp hglob
    exact h entry hentry hpattern hkept

end

/-- The configuration that allows everything and denies `rm` allows `rm`, also under its path and in
upper case. -/
theorem denied_rm_allowed :
    ¬DenyWins { allow := some ["*"], deny := some ["rm"] } "/bin/RM -rf /shared" ∧
      parseCommandName "/bin/RM -rf /shared" true = .ok "rm" ∧
      (configuredRules { allow := some ["*"], deny := some ["rm"] }).enforceShellCommand
        "/bin/RM -rf /shared" = .ok () := by
  have hname : parseCommandName "/bin/RM -rf /shared" true = .ok "rm" := by decide
  have hallowed : (configuredRules { allow := some ["*"], deny := some ["rm"] }).enforceShellCommand
      "/bin/RM -rf /shared" = .ok () := by decide
  refine ⟨fun h => ?_, hname, hallowed⟩
  obtain ⟨violation, hviolation⟩ := h "rm" hname ⟨"rm", by decide, Or.inl rfl⟩
  rw [hallowed] at hviolation
  simp at hviolation

end Oxydra
