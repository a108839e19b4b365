import Oxydra.Library.ShellLaws
import Oxydra.Library.TextLaws
import Oxydra.Tools.ShellPolicy

/-!
# What an accepted command runs

With `allow_operators = false` the policy means to let one allowed program through at a time: it
looks for the characters of shell operators anywhere in a command, and takes the file name of the
first word for the program. `containsDisallowedShellSyntax` knows `&&` but not `&`, and no
parentheses; and the first word of the policy need not be the word that the shell takes the program
from. `single_command_iff` says which accepted commands are one run of the program that they are
judged by.
-/

namespace Oxydra

open List Shell

section

variable (dollarQuotes : Bool) (command : String)

/-- The shell runs one simple command, and whatever it puts into the word that names the program,
the file name of the program is the name that is looked up in the allowlist. -/
def RunsJudgedProgram : Prop :=
  ∃ name w, parseCommandName command false = .ok name ∧ IsCommand dollarQuotes command.toList w ∧
    ∀ text, Stands w text → executableName (String.ofList text) = name

/-- The file name of the first word between white space. -/
def firstWordName : String := executableName ((Text.firstWord (Text.trim command)).getD "")

/-- Whether every text of a word has the file name `name`: where nothing varies, its own text has
it, and else a separator and the file name follow whatever varies. -/
def NamesAlways (w : Word) (name : String) : Prop :=
  ((∀ x ∈ w, x.2.varies = false) → executableName (String.ofList w.text) = name) ∧
    ((¬∀ x ∈ w, x.2.varies = false) →
      ∃ file, (UnixPath.parse (String.ofList (w.fixedEnd.text.dropWhile (· ≠ '/')))).fileName =
        some file ∧ Text.asciiLower file = name)

/-- What the policy does not look at: quotes and braces that stay open, a `&` or a parenthesis that
is not quoted, words on several lines, and a first word that names the program otherwise than by its
plain text. -/
structure NothingMissed : Prop where
  closed : (after (Reader.start dollarQuotes) command.toList).inside ∈ [[], [.comment]]
  operators : ∀ x ∈ read (Reader.start dollarQuotes) command.toList,
    x.2 = .control → x.1 ∉ ['&', '(', ')']
  program : ∃ ws w, lines (read (Reader.start dollarQuotes) command.toList) = [ws] ∧
    ws.head?.any Word.isReserved = false ∧ Shell.program ws = some w ∧
    (∀ x ∈ w, x.2 ≠ .expansion) ∧ NamesAlways w (firstWordName command)

end

/-! ## The texts of the program's word -/

theorem head?_dropWhile_slash (e : List Char) : ∀ c ∈ (e.dropWhile (· ≠ '/')).head?, c = '/' := by
  intro c hc
  have h := List.head?_dropWhile_not (fun c => decide (c ≠ '/')) e
  rw [Option.mem_def.mp hc] at h
  simpa using h

/-- The file name that follows a separator is the one that a program is judged by. -/
theorem executableName_append {s e : List Char} {file : String}
    (h : (UnixPath.parse (String.ofList (e.dropWhile (· ≠ '/')))).fileName = some file) :
    executableName (String.ofList (s ++ e)) = Text.asciiLower file := by
  have hparts : (UnixPath.parse (String.ofList (e.dropWhile (· ≠ '/')))).components ≠ [] := by
    intro hnil
    rw [UnixPath.fileName, hnil] at h
    exact nomatch h
  have hsplit : s ++ e = s ++ e.takeWhile (· ≠ '/') ++ e.dropWhile (· ≠ '/') := by simp
  rw [hsplit, executableName, UnixPath.fileName_parse_append _ (head?_dropWhile_slash e) hparts, h,
    Option.getD_some]

/-- A letter after a separator counts for the file name, unless a file name follows at another
separator. -/
theorem executableName_ne {s e : List Char}
    (h : (UnixPath.parse (String.ofList (e.dropWhile (· ≠ '/')))).fileName = none) :
    executableName (String.ofList (s ++ '/' :: 'a' :: e)) ≠
      executableName (String.ofList (s ++ '/' :: 'b' :: e)) := by
  have hhead := head?_dropWhile_slash e
  have hsplit : ∀ c, s ++ '/' :: c :: e =
      s ++ '/' :: c :: e.takeWhile (· ≠ '/') ++ e.dropWhile (· ≠ '/') := fun c => by
    simp
  rw [hsplit, hsplit]
  by_cases hparts : (UnixPath.parse (String.ofList (e.dropWhile (· ≠ '/')))).components = []
  · -- the letter starts the file name
    have hname : ∀ c, c ≠ '/' → c ≠ '.' → executableName (String.ofList
        (s ++ '/' :: c :: e.takeWhile (· ≠ '/') ++ e.dropWhile (· ≠ '/'))) =
        Text.asciiLower (String.ofList (c :: e.takeWhile (· ≠ '/'))) := by
      intro c hslash hdot
      have hmem : '/' ∉ c :: e.takeWhile (· ≠ '/') := by
        rw [mem_cons, not_or]
        exact ⟨hslash.symm, fun hmem => by simpa using mem_takeWhile_imp hmem⟩
      rw [executableName, UnixPath.fileName, UnixPath.components_parse_append _ hhead, hparts,
        append_nil, UnixPath.components_parse_append s (by simp),
        UnixPath.components_parse_slash, UnixPath.components_parse_name hmem (by simp)
          (by simp [hdot]) (by simp [hdot]), List.getLast?_concat]
      rfl
    rw [hname 'a' (by decide) (by decide), hname 'b' (by decide) (by decide)]
    intro heq
    have hlist := congrArg String.toList heq
    simp only [Text.toList_asciiLower, String.toList_ofList, map_cons] at hlist
    exact absurd (cons.inj hlist).1 (by decide)
  · -- there is no file name
    have hname : ∀ c, executableName (String.ofList
        (s ++ '/' :: c :: e.takeWhile (· ≠ '/') ++ e.dropWhile (· ≠ '/'))) = Text.asciiLower
        (String.ofList (s ++ '/' :: c :: e.takeWhile (· ≠ '/') ++ e.dropWhile (· ≠ '/'))) := by
      intro c
      rw [executableName, UnixPath.fileName_parse_append _ hhead hparts, h, Option.getD_none]
    rw [hname, hname]
    intro heq
    have hlist := congrArg String.toList heq
    simp only [Text.toList_asciiLower, String.toList_ofList, map_append, map_cons,
      append_assoc, append_cancel_left_eq, cons_append] at hlist
    exact absurd (cons.inj (cons.inj hlist).2).1 (by decide)

/-- Every text of a word has a file name exactly where its end says so. -/
theorem namesAlways_iff (w : Word) (name : String) :
    (∀ text, Stands w text → executableName (String.ofList text) = name) ↔ NamesAlways w name := by
  constructor
  · intro h
    refine ⟨fun hw => h _ (stands_text hw), fun hw => ?_⟩
    obtain ⟨s, hs⟩ := exists_stands_fixedEnd hw
    cases hfile : (UnixPath.parse (String.ofList
        (w.fixedEnd.text.dropWhile (· ≠ '/')))).fileName with
    | none =>
      have ha := h _ (hs ['/', 'a'])
      exact absurd (ha.trans (h _ (hs ['/', 'b'])).symm) (executableName_ne hfile)
    | some file =>
      exact ⟨file, rfl, (executableName_append hfile).symm.trans (h _ (hs []))⟩
  · rintro ⟨hfixed, hvaries⟩ text htext
    by_cases hw : ∀ x ∈ w, x.2.varies = false
    · rw [htext.eq_text hw]
      exact hfixed hw
    · obtain ⟨file, hfile, rfl⟩ := hvaries hw
      obtain ⟨s, rfl⟩ := htext.fixedEnd
      exact executableName_append hfile

/-! ## Accepted commands -/

section

variable {rules : ShellRules} {command : String}

/-- The name that an accepted command is judged by, and what it does not contain. -/
theorem parseCommandName_ok {name : String} (h : parseCommandName command false = .ok name) :
    name = firstWordName command ∧
      containsDisallowedShellSyntax (Text.trim command) = false := by
  unfold parseCommandName at h
  dsimp only at h
  split_ifs at h with hempty hscan
  have hfree : containsDisallowedShellSyntax (Text.trim command) = false := by simpa using hscan
  refine ⟨?_, hfree⟩
  unfold firstWordName
  cases hfirst : Text.firstWord (Text.trim command) with
  | none =>
    rw [hfirst] at h
    exact nomatch h
  | some first_token =>
    rw [hfirst] at h
    dsimp only at h
    split_ifs at h
    exact (Except.ok.inj h).symm

/-- An accepted command is judged by the file name of its first word. -/
theorem parseCommandName_of_accepted (hrules : rules.allow_shell_operators = false)
    (haccepted : rules.enforceShellCommand command = .ok ()) :
    parseCommandName command false = .ok (firstWordName command) := by
  unfold ShellRules.enforceShellCommand at haccepted
  rw [hrules] at haccepted
  cases hparse : parseCommandName command false with
  | error violation =>
    rw [hparse] at haccepted
    cases haccepted
  | ok name => rw [(parseCommandName_ok hparse).1]

/-- A visible character that the scan looks for stands nowhere in the command, also not at its
ends. -/
theorem not_mem_of_scan {pattern : String} {c : Char} (hpattern : pattern.toList = [c])
    (hvisible : Text.isWhitespace c = false)
    (h : Text.contains pattern (Text.trim command) = false) : c ∉ command.toList := by
  intro hc
  obtain ⟨a, b, hab⟩ := append_of_mem hc
  have hinfix : [c] <:+: command.toList := ⟨a, b, by rw [hab, append_assoc]; rfl⟩
  refine of_decide_eq_false h ?_
  rw [hpattern]
  exact Text.infix_trim ⟨by simpa using hvisible, by simpa using hvisible⟩ hinfix

/-- What is left of the shell's operators in a command without the texts of the scan. -/
theorem scan_leaves (dollarQuotes : Bool)
    (h : containsDisallowedShellSyntax (Text.trim command) = false) :
    ∀ x ∈ read (Reader.start dollarQuotes) command.toList,
      (x.2 = .control → x.1 ∈ ['&', '(', ')']) ∧ x.2 ≠ .redirection ∧ x.2 ≠ .substitution := by
  unfold containsDisallowedShellSyntax at h
  simp only [Bool.or_eq_false_iff] at h
  obtain ⟨⟨⟨⟨⟨⟨⟨⟨⟨-, -⟩, hsemicolon⟩, hbar⟩, hgreater⟩, hless⟩, hback⟩, hpair⟩, -⟩, -⟩ := h
  have hfree : ∀ c ∈ command.toList, c ≠ '<' ∧ c ≠ '>' ∧ c ≠ '`' := by
    intro c hc
    refine ⟨?_, ?_, ?_⟩ <;> rintro rfl
    · exact not_mem_of_scan rfl rfl hless hc
    · exact not_mem_of_scan rfl rfl hgreater hc
    · exact not_mem_of_scan rfl rfl hback hc
  have hdollar : ¬['$', '('] <:+: command.toList := fun hinfix =>
    of_decide_eq_false hpair (Text.infix_trim ⟨by simp; decide, by simp; decide⟩ hinfix)
  have hsimple := simple_of_free command.toList (r := Reader.start dollarQuotes)
    ⟨by simp [Reader.start], by simp [Reader.start]⟩ hfree hdollar (by simp [Reader.start])
  intro x hx
  refine ⟨fun hrole => ?_, hsimple x hx⟩
  have hmem : x.1 ∈ command.toList := by
    rw [← map_fst_read (Reader.start dollarQuotes) command.toList]
    exact mem_map_of_mem hx
  have hcontrol := mem_of_control x hx hrole
  rw [mem_cons, mem_cons, mem_cons] at hcontrol
  obtain h | h | h | h := hcontrol
  · rw [h] at hmem
    exact absurd hmem (not_mem_of_scan rfl rfl hsemicolon)
  · rw [h]
    exact mem_cons_self
  · rw [h] at hmem
    exact absurd hmem (not_mem_of_scan rfl rfl hbar)
  · exact mem_cons_of_mem _ h

/-- An accepted command is one run of the program that it is judged by exactly where nothing is
missed. -/
theorem single_command_iff (dollarQuotes : Bool) (hrules : rules.allow_shell_operators = false)
    (haccepted : rules.enforceShellCommand command = .ok ()) :
    RunsJudgedProgram dollarQuotes command ↔ NothingMissed dollarQuotes command := by
  have hparse := parseCommandName_of_accepted hrules haccepted
  have hleft := scan_leaves dollarQuotes (parseCommandName_ok hparse).2
  constructor
  · rintro ⟨name, w, hname, hcommand, htexts⟩
    obtain ⟨ws, hlines, hreserved, hprogram⟩ := hcommand.line
    rw [(parseCommandName_ok hname).1] at htexts
    refine ⟨hcommand.closed, fun x hx hrole => absurd hrole (hcommand.simple x hx).1, ?_⟩
    exact ⟨ws, w, hlines, hreserved, hprogram, hcommand.unsplit, (namesAlways_iff w _).mp htexts⟩
  · rintro ⟨hclosed, hoperators, ws, w, hlines, hreserved, hprogram, hunsplit, hnames⟩
    refine ⟨_, w, hparse, ⟨hclosed, fun x hx => ?_, ⟨ws, hlines, hreserved, hprogram⟩, hunsplit⟩,
      (namesAlways_iff w _).mpr hnames⟩
    obtain ⟨hcontrol, hsimple⟩ := hleft x hx
    exact ⟨fun hrole => hoperators x hx hrole (hcontrol hrole), hsimple⟩

end

/-- The default rules without operators. -/
def rulesWithoutOperators : ShellRules := configuredRules { allow_operators := some false }

/-- A listing is one run of `ls`. -/
theorem listing_runs_ls : RunsJudgedProgram true "ls -la" := by
  have haccepted : rulesWithoutOperators.enforceShellCommand "ls -la" = .ok () := by
    decide
  refine (single_command_iff true (by decide) haccepted).mpr
    ⟨by decide, by decide, ?_⟩
  refine ⟨_, _, rfl, by decide, rfl, by decide, ?_, ?_⟩
  · exact fun _ => by decide
  · exact fun h => absurd (by decide) h

/-- A program is run in the background, and a program that is not allowed is run after it. -/
theorem ampersand_starts_second :
    rulesWithoutOperators.allow_shell_operators = false ∧
      rulesWithoutOperators.enforceShellCommand "ls & rm -rf /shared" = .ok () ∧
      "rm" ∉ rulesWithoutOperators.shell_command_allowlist ∧
      ¬RunsJudgedProgram false "ls & rm -rf /shared" ∧
      ¬RunsJudgedProgram true "ls & rm -rf /shared" := by
  have hcontrol : ∀ dollarQuotes, ('&', Role.control) ∈
      read (Reader.start dollarQuotes) "ls & rm -rf /shared".toList := by decide
  have hnot : ∀ dollarQuotes, ¬RunsJudgedProgram dollarQuotes "ls & rm -rf /shared" := by
    rintro dollarQuotes ⟨_, w, -, hcommand, -⟩
    exact (hcommand.simple _ (hcontrol dollarQuotes)).1 rfl
  exact ⟨by decide, by decide, by decide, hnot false, hnot true⟩

end Oxydra
