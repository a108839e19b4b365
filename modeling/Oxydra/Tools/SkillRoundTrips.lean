import Mathlib
import Oxydra.Tools.SkillFiles

/-!
# Skills that are written and read back

What `assemble_skill_file` writes is a front matter of lines that `readFrontMatter` reads, as long
as the texts of the skill stand in it as they are: the name and the items of the lists are plain
scalars that no schema takes for something else, and the description, in which only the quotation
marks are escaped, has no backslash and no control character. Then a skill that is created, and
updated any number of times, has the metadata of the requests merged over each other, and the last
content up to empty lines around it.

The reader of front matters is a parameter that agrees with `readFrontMatter` wherever that reads
one, and that cuts empty lines off the rest of the text, which is all that is used of it.
-/

namespace Oxydra

open List Yaml

/-! ## The reader -/

/-- The line break of two characters, which a reader of lines takes for one. -/
def crLf : List Char := ['\r', '\n']

/-- What is used of the reader of front matters. -/
structure FrontMatterLaws (matter : DescribedFrontMatter) (tidy : List Char → List Char) :
    Prop where
  agrees : ∀ {raw : String} {entries : Mapping} {body : List Char},
    readFrontMatter raw.toList = some (entries, body) →
      (matter raw).toOption =
        (metadataOf entries).map fun metadata => (some metadata, String.ofList (tidy body))
  trims : ∀ body : List Char, ¬crLf <:+: body →
    ∃ i j, body = List.replicate i '\n' ++ tidy body ++ List.replicate j '\n'
  starts : ∀ body : List Char, (tidy body).head? ≠ some '\n'

/-- A content that is given, up to empty lines around it. -/
def SameBody (read given : String) : Prop :=
  ∃ i j, given.toList = List.replicate i '\n' ++ read.toList ++ List.replicate j '\n'

/-- What is trimmed may be trimmed again. -/
theorem SameBody.trans {a b c : String} (hab : SameBody a b) (hbc : SameBody b c) :
    SameBody a c := by
  obtain ⟨i, j, hb⟩ := hab
  obtain ⟨k, l, hc⟩ := hbc
  refine ⟨k + i, j + l, ?_⟩
  rw [hc, hb, replicate_add, replicate_add]
  simp only [append_assoc]

/-- What is read is a part of what is given. -/
theorem SameBody.isPart {read given : String} (h : SameBody read given) :
    read.toList <:+: given.toList := by
  obtain ⟨i, j, h⟩ := h
  exact ⟨_, _, h.symm⟩

/-- No body grows. -/
theorem SameBody.size_le {read given : String} (h : SameBody read given) :
    read.utf8ByteSize ≤ given.utf8ByteSize := by
  obtain ⟨i, j, h⟩ := h
  have hgiven : given = String.ofList (List.replicate i '\n') ++ read ++
      String.ofList (List.replicate j '\n') := by
    rw [← String.toList_inj, h]
    simp
  rw [hgiven, String.utf8ByteSize_append, String.utf8ByteSize_append]
  omega

/-- The rest of the text below the front matter is read as the content. -/
theorem FrontMatterLaws.sameBody {matter : DescribedFrontMatter} {tidy : List Char → List Char}
    (h : FrontMatterLaws matter tidy) {content : String} (hcrlf : ¬crLf <:+: content.toList) :
    SameBody (String.ofList (tidy ('\n' :: content.toList))) content := by
  have hbody : ¬crLf <:+: '\n' :: content.toList := by
    rw [infix_cons_iff, not_or]
    refine ⟨fun hpre => ?_, hcrlf⟩
    exact absurd (cons_prefix_cons.mp hpre).1 (by decide)
  obtain ⟨i, j, htrim⟩ := h.trims _ hbody
  have hstart := h.starts ('\n' :: content.toList)
  generalize tidy ('\n' :: content.toList) = read at htrim hstart
  unfold SameBody
  rw [String.toList_ofList]
  cases i with
  | succ i => exact ⟨i, j, (cons.inj htrim).2⟩
  | zero =>
    -- the empty line in front of the content is one of those behind it
    rw [replicate_zero, nil_append] at htrim
    cases read with
    | nil =>
      cases j with
      | zero => simp at htrim
      | succ j => exact ⟨0, j, (cons.inj htrim).2⟩
    | cons c cs => exact absurd (congrArg some (cons.inj htrim).1.symm) hstart

/-! ## Texts that stand in a front matter as they are -/

/-- A text that stands plain on a line, and is read as itself. -/
def PlainText (s : String) : Prop := isPlain s.toList = true ∧ IsText s.toList

/-- A text that stands between quotation marks, with only those inside escaped. -/
def QuotedText (s : String) : Prop := '\\' ∉ s.toList ∧ s.toList.all isJson = true

instance (s : String) : Decidable (PlainText s) :=
  inferInstanceAs (Decidable (_ ∧ _))

instance (s : String) : Decidable (QuotedText s) :=
  inferInstanceAs (Decidable (_ ∧ _))

/-- A plain text is one line. -/
theorem PlainText.no_break {s : String} (h : PlainText s) : '\n' ∉ s.toList := fun hmem =>
  absurd (not_isBreak_of_isPlain h.1 _ hmem) (by decide)

/-- A plain text is read as it is. -/
theorem PlainText.readScalar {s : String} (h : PlainText s) :
    readScalar s.toList = some (.str s.toList) := by
  rw [readScalar_of_isPlain h.1, h.2]

/-- So is a quoted one. -/
theorem QuotedText.no_break {s : String} (h : QuotedText s) : '\n' ∉ s.toList := fun hmem =>
  absurd (all_eq_true.mp h.2 _ hmem) (by decide)

/-- What a list of the first code points decides about a character of a name. -/
theorem isNameChar_induct {p : Char → Prop}
    (h : ∀ n < 123, isNameChar (Char.ofNat n) = true → p (Char.ofNat n)) {c : Char}
    (hc : isNameChar c = true) : p c := by
  have hle : c.toNat < 123 := by
    simp only [isNameChar, Bool.or_eq_true, beq_iff_eq] at hc
    rcases hc with (hlower | hdigit) | rfl
    · simp only [Char.isLower, Bool.and_eq_true, decide_eq_true_eq] at hlower
      exact Nat.lt_succ_of_le (UInt32.le_iff_toNat_le.mp hlower.2)
    · have : c.toNat ≤ '9'.toNat := (Char.isDigit_iff_toNat.mp hdigit).2
      exact this.trans_lt (by decide)
    · decide
  have heq : Char.ofNat c.toNat = c := Char.ofNat_toNat c
  exact heq ▸ h c.toNat hle (heq.symm ▸ hc)

/-- What a valid name is made of. -/
theorem validateSkillName_ok {name : String} (h : validateSkillName name = .ok ()) :
    ∃ first chars, name.toList = first :: chars ∧ first ≠ '-' ∧
      ∀ c ∈ first :: chars, isNameChar c = true := by
  unfold validateSkillName at h
  split at h
  · contradiction
  rename_i first chars hname
  split_ifs at h with _ _ hfirst
  split at h
  · contradiction
  rename_i hfind
  have hfirst : first.isLower = true ∨ first.isDigit = true := by
    by_contra hnot
    exact hfirst (not_or.mp hnot)
  have hchars : ∀ c ∈ chars, isNameChar c = true := by simpa using hfind
  refine ⟨first, chars, hname, ?_, forall_mem_cons.mpr ⟨?_, hchars⟩⟩
  · rintro rfl
    exact absurd hfirst (by decide)
  · rcases hfirst with h | h <;> simp [isNameChar, h]

/-- A text of such characters is a plain scalar where it begins like one. -/
theorem isPlain_of_isNameChar {text : List Char} (hall : ∀ c ∈ text, isNameChar c = true)
    (hfirst : isPlainFirst text = true) : isPlain text = true := by
  have hcode : ∀ n < 123, isNameChar (Char.ofNat n) = true →
      isNs (Char.ofNat n) = true ∧ Char.ofNat n ≠ '#' ∧ Char.ofNat n ≠ ':' := by decide +kernel
  have hspec (c : Char) (hc : c ∈ text) : isNs c = true ∧ c ≠ '#' ∧ c ≠ ':' :=
    isNameChar_induct (p := fun c => isNs c = true ∧ c ≠ '#' ∧ c ≠ ':') hcode (hall c hc)
  exact isPlain_of_isPlainFirst (fun c hc => (hspec c hc).1) (fun h => (hspec _ h).2.1 rfl)
    (fun h => (hspec _ h).2.2 rfl) hfirst

/-- No character of a name is an indicator but the dash. -/
theorem isPlainFirst_of_isNameChar {c : Char} (hc : isNameChar c = true) (hdash : c ≠ '-')
    (cs : List Char) : isPlainFirst (c :: cs) = true := by
  have hcode : ∀ n < 123, isNameChar (Char.ofNat n) = true →
      isNs (Char.ofNat n) = true ∧
        (Char.ofNat n ≠ '-' → isIndicator (Char.ofNat n) = false) := by decide +kernel
  obtain ⟨hns, hind⟩ := isNameChar_induct
    (p := fun c => isNs c = true ∧ (c ≠ '-' → isIndicator c = false)) hcode hc
  simp [isPlainFirst, hns, hind hdash]

/-- A valid name is a plain scalar. -/
theorem isPlain_of_validateSkillName {name : String} (h : validateSkillName name = .ok ()) :
    isPlain name.toList = true := by
  obtain ⟨first, chars, hname, hdash, hall⟩ := validateSkillName_ok h
  rw [hname]
  exact isPlain_of_isNameChar hall
    (isPlainFirst_of_isNameChar (hall first mem_cons_self) hdash chars)

/-- A number is a plain scalar. -/
theorem isPlain_toString (i : ℤ) : isPlain (toString i).toList = true := by
  have hdigits := isDigits_toDigits i.natAbs
  generalize hn : Nat.toDigits 10 i.natAbs = digits at hdigits
  simp only [isDigits, Bool.and_eq_true, all_eq_true] at hdigits
  obtain ⟨hne, hdigits⟩ := hdigits
  obtain ⟨d, ds, rfl⟩ : ∃ d ds, digits = d :: ds := by
    cases digits with
    | nil => simp at hne
    | cons d ds => exact ⟨d, ds, rfl⟩
  have hname (c : Char) (hc : c ∈ d :: ds) : isNameChar c = true := by
    simp [isNameChar, hdigits c hc]
  have hdash : d ≠ '-' := by
    rintro rfl
    exact absurd (hdigits _ mem_cons_self) (by decide)
  have hfirst := isPlainFirst_of_isNameChar (hname d mem_cons_self) hdash ds
  rw [toList_toString_int, hn]
  split_ifs
  · refine isPlain_of_isNameChar (forall_mem_cons.mpr ⟨by decide, hname⟩) ?_
    have hns : isNs d = true := by
      simp only [isPlainFirst, Bool.and_eq_true] at hfirst
      exact hfirst.1
    have hdashNs : isNs '-' = true := by decide
    simp [isPlainFirst, hns, hdashNs]
  · exact isPlain_of_isNameChar hname hfirst

/-- The texts of a skill that stand in its front matter as they are. -/
structure Writable (metadata : DescribedMetadata) : Prop where
  name : PlainText metadata.name
  description : QuotedText metadata.description
  requires : ∀ item ∈ metadata.requires, PlainText item
  env_vars : ∀ item ∈ metadata.env_vars, PlainText item
  priority : -2 ^ 31 ≤ metadata.priority ∧ metadata.priority < 2 ^ 31

/-! ## The front matter that is written -/

/-- The line of an entry. -/
def fieldLine (key : String) (value : List Char) : List Char := key.toList ++ ':' :: ' ' :: value

/-- The lines of a list. -/
def listLines (key : String) (items : List String) : List (List Char) :=
  if items = [] then []
  else (key.toList ++ [':']) :: (items.map String.toList).map (' ' :: ' ' :: '-' :: ' ' :: ·)

/-- The lines between the fences. -/
def fieldLines (metadata : DescribedMetadata) : List (List Char) :=
  fieldLine "name" metadata.name.toList ::
  fieldLine "description" ('"' :: (escapeQuotes metadata.description.toList ++ ['"'])) ::
  fieldLine "activation" metadata.activation.text.toList ::
  (listLines "requires" metadata.requires ++ (listLines "env_vars" metadata.env_vars ++
    [fieldLine "priority" (toString metadata.priority).toList]))

/-- The entry of a list. -/
def listEntry (key : String) (items : List String) : Mapping :=
  if items = [] then []
  else [(key.toList, .sequence ((items.map String.toList).map .str))]

/-- The entries of a front matter. -/
def mappingOf (metadata : DescribedMetadata) : Mapping :=
  ("name".toList, .scalar (.str metadata.name.toList)) ::
  ("description".toList, .scalar (.str metadata.description.toList)) ::
  ("activation".toList, .scalar (.str metadata.activation.text.toList)) ::
  (listEntry "requires" metadata.requires ++ (listEntry "env_vars" metadata.env_vars ++
    [("priority".toList, .scalar (.int metadata.priority))]))

/-- A list is written line by line. -/
theorem toList_assembleList (key : String) (items : List String) :
    (assembleList key items).toList = (listLines key items).flatMap (· ++ ['\n']) := by
  unfold assembleList listLines
  split_ifs with h
  · rfl
  · have hitems : (String.join (items.map fun item => "  - " ++ item ++ "\n")).toList =
        ((items.map String.toList).map (' ' :: ' ' :: '-' :: ' ' :: ·)).flatMap (· ++ ['\n']) := by
      rw [String.toList_join, flatMap_map, flatMap_map, flatMap_map]
      refine congrArg List.flatten (map_congr_left fun item _ => ?_)
      simp
    rw [String.toList_append, String.toList_append, hitems, flatMap_cons]
    simp

/-- The text of a skill is its lines between the fences, and the content behind an empty line. -/
theorem toList_assembleSkillFile (metadata : DescribedMetadata) (content : String) :
    (assembleSkillFile metadata content).toList =
      (dashes :: (fieldLines metadata ++ [dashes])).flatMap (· ++ ['\n']) ++
        '\n' :: content.toList := by
  unfold assembleSkillFile fieldLines fieldLine
  simp only [String.toList_append, toList_assembleList, String.toList_ofList, flatMap_cons,
    flatMap_append, flatMap_nil, append_assoc, cons_append, nil_append]
  simp [dashes]

/-! ## Reading it back -/

/-- The modes of activation are texts. -/
theorem plainText_activation (activation : SkillActivation) : PlainText activation.text := by
  cases activation <;> decide +kernel

section

variable {metadata : DescribedMetadata}

/-- No line of a front matter has a line break in it. -/
theorem no_break_of_mem_fieldLines (h : Writable metadata) :
    ∀ line ∈ dashes :: (fieldLines metadata ++ [dashes]), '\n' ∉ line := by
  have hlist (key : String) {items : List String} (hkey : '\n' ∉ key.toList)
      (hitems : ∀ item ∈ items, PlainText item) : ∀ line ∈ listLines key items, '\n' ∉ line := by
    unfold listLines
    split_ifs
    · simp
    · refine forall_mem_cons.mpr ⟨by simpa using hkey, ?_⟩
      simp only [mem_map]
      rintro _ ⟨_, ⟨item, hitem, rfl⟩, rfl⟩
      simpa using (hitems item hitem).no_break
  have hnumber : '\n' ∉ (toString metadata.priority).toList := fun hmem =>
    absurd (not_isBreak_of_isPlain (isPlain_toString _) _ hmem) (by decide)
  have hquoted : '\n' ∉ escapeQuotes metadata.description.toList := by
    have := h.description.no_break
    simp only [escapeQuotes, mem_flatMap, not_exists, not_and]
    intro c hc
    split_ifs
    · decide
    · rw [mem_singleton]
      rintro rfl
      exact this hc
  have hrequires := hlist "requires" (by decide +kernel) h.requires
  have henv := hlist "env_vars" (by decide +kernel) h.env_vars
  have hentry {key : String} {value : List Char} (hkey : '\n' ∉ key.toList)
      (hvalue : '\n' ∉ value) : '\n' ∉ fieldLine key value := by
    simp [fieldLine, hkey, hvalue]
  have hdashes : '\n' ∉ dashes := by decide
  simp only [fieldLines, cons_append, append_assoc, forall_mem_cons,
    forall_mem_append]
  exact ⟨hdashes, hentry (by decide +kernel) h.name.no_break,
    hentry (by decide +kernel) (by simpa using hquoted),
    hentry (by decide +kernel) (plainText_activation metadata.activation).no_break,
    hrequires, henv, hentry (by decide +kernel) hnumber, by simp, hdashes, by simp⟩

/-- The entries are read back. -/
theorem readMapping_fieldLines (h : Writable metadata) (body : List (List Char)) :
    readMapping (fieldLines metadata ++ dashes :: body) = some ([], mappingOf metadata, body) := by
  have hlist (key : String) {items : List String} {lines : List (List Char)} {entries : Mapping}
      (hkey : isKey key.toList = true) (hitems : ∀ item ∈ items, PlainText item)
      (hlines : readMapping lines = some ([], entries, body)) :
      readMapping (listLines key items ++ lines) =
        some ([], listEntry key items ++ entries, body) := by
    unfold listLines listEntry
    split_ifs with hnil
    · exact hlines
    · have hne : items.map String.toList ≠ [] := by simpa using hnil
      refine readMapping_sequence hkey hne ?_ hlines
      simp only [mem_map]
      rintro _ ⟨item, hitem, rfl⟩
      exact (hitems item hitem).readScalar
  have hnumber :
      readScalar (toString metadata.priority).toList = some (.int metadata.priority) := by
    rw [readScalar_of_isPlain (isPlain_toString _), resolve_toString]
  have hpriority : readMapping (fieldLine "priority" (toString metadata.priority).toList ::
      dashes :: body) = some ([], [("priority".toList, .scalar (.int metadata.priority))], body) :=
    readMapping_entry (by decide +kernel) hnumber readMapping_dashes
  have hentry (key : String) {value : List Char} {scalar : Scalar} {lines : List (List Char)}
      {entries : Mapping} (hkey : isKey key.toList = true)
      (hvalue : readScalar value = some scalar)
      (hlines : readMapping lines = some ([], entries, body)) :
      readMapping (fieldLine key value :: lines) =
        some ([], (key.toList, .scalar scalar) :: entries, body) :=
    readMapping_entry hkey hvalue hlines
  have hlists := hlist "requires" (by decide +kernel) h.requires
    (hlist "env_vars" (by decide +kernel) h.env_vars hpriority)
  have hactivation := hentry "activation" (by decide +kernel)
    (plainText_activation metadata.activation).readScalar hlists
  have hdescription := hentry "description" (by decide +kernel)
    (readScalar_quoted h.description.1 h.description.2) hactivation
  have hname := hentry "name" (by decide +kernel) h.name.readScalar hdescription
  simpa only [fieldLines, mappingOf, cons_append, append_assoc,
    nil_append] using hname

/-- The metadata is what its entries say. -/
theorem metadataOf_mappingOf (h : Writable metadata) :
    metadataOf (mappingOf metadata) = some metadata := by
  obtain ⟨⟨name, activation, requires, env_vars, priority⟩, description⟩ := metadata
  have htexts (items : List String) :
      textsOfNode (.sequence (items.map (Scalar.str ∘ String.toList))) = some items := by
    induction items with
    | nil => rfl
    | cons item items ih =>
      simp only [textsOfNode, map_cons, mapM_cons, textOfNode] at ih ⊢
      rw [ih]
      simp
  have hactivation : activationOfNode (.scalar (.str activation.text.toList)) =
      some activation := by
    cases activation <;> decide +kernel
  have hpriority : priorityOfNode (.scalar (.int priority)) = some priority :=
    if_pos h.priority
  unfold metadataOf mappingOf fieldOf listEntry
  by_cases hrequires : requires = [] <;> by_cases henv : env_vars = [] <;>
    simp [hrequires, henv, List.lookup, hactivation, hpriority, textOfNode, htexts]

/-- The front matter of a skill, and the content behind an empty line. -/
theorem readFrontMatter_assembleSkillFile (h : Writable metadata) (content : String) :
    readFrontMatter (assembleSkillFile metadata content).toList =
      some (mappingOf metadata, '\n' :: content.toList) := by
  have hsplit : (assembleSkillFile metadata content).toList.splitOn '\n' =
      dashes :: (fieldLines metadata ++ dashes :: ('\n' :: content.toList).splitOn '\n') := by
    rw [toList_assembleSkillFile, splitOn_lines (no_break_of_mem_fieldLines h)]
    simp
  have hnodup : ((mappingOf metadata).map Prod.fst).Nodup := by
    unfold mappingOf listEntry
    split_ifs <;> simp
  rw [readFrontMatter_of_readMapping hsplit (readMapping_fieldLines h _) (cons_ne_nil _ _)
    hnodup, intercalate_splitOn]

variable {matter : DescribedFrontMatter} {tidy : List Char → List Char}

/-- What is written is validated, and read back. -/
theorem validateSkillFile_assembleSkillFile (hmatter : FrontMatterLaws matter tidy)
    (h : Writable metadata) {content : String} (hcrlf : ¬crLf <:+: content.toList)
    (hcap : content.utf8ByteSize / charsPerToken ≤ maxSkillTokens) :
    ∃ read, validateSkillFile matter (assembleSkillFile metadata content) =
      .ok { metadata, content := read } ∧ SameBody read content := by
  have hread := hmatter.agrees (readFrontMatter_assembleSkillFile h content)
  rw [metadataOf_mappingOf h, Option.map_some] at hread
  have hsame := hmatter.sameBody hcrlf
  generalize String.ofList (tidy ('\n' :: content.toList)) = read at hread hsame
  have hok : matter (assembleSkillFile metadata content) = .ok (some metadata, read) := by
    cases hparsed : matter (assembleSkillFile metadata content) with
    | error message => simp [hparsed, Except.toOption] at hread
    | ok parsed => simpa [hparsed, Except.toOption] using hread
  have hsize : read.utf8ByteSize / charsPerToken ≤ maxSkillTokens :=
    (Nat.div_le_div_right hsame.size_le).trans hcap
  refine ⟨read, ?_, hsame⟩
  rw [validateSkillFile, hok]
  exact if_neg (Nat.not_lt.mpr hsize)

end

/-! ## The requests -/

/-- The modes of activation that a request may name. -/
def activationModes : List String := ["auto", "manual", "always"]

/-- The mode that a request asks for, or the one it has otherwise. -/
def wantedActivation (activation : Option String) (otherwise : SkillActivation) :
    SkillActivation :=
  ((activation.bind fun s => (parseActivation s).toOption)).getD otherwise

/-- A known mode is taken. -/
theorem requestedActivation_of_mem {tool : String} {activation : Option String}
    {otherwise : SkillActivation} (h : ∀ s ∈ activation, s ∈ activationModes) :
    requestedActivation tool activation otherwise =
      .ok (wantedActivation activation otherwise) := by
  cases activation with
  | none => rfl
  | some s =>
    have hs := h s rfl
    simp only [activationModes, mem_cons, not_mem_nil, or_false] at hs
    rcases hs with rfl | rfl | rfl <;> rfl

/-- A request for a new skill that the tool accepts. -/
structure SkillCreateArgs.Valid (request : SkillCreateArgs) : Prop where
  name : validateSkillName request.name = .ok ()
  activation : ∀ s ∈ request.activation, s ∈ activationModes
  content : request.content.utf8ByteSize / charsPerToken ≤ maxSkillTokens

/-- The texts of a request for a new skill stand in its file as they are. -/
structure SkillCreateArgs.ReadsBack (request : SkillCreateArgs) : Prop where
  name : IsText request.name.toList
  description : QuotedText request.description
  requires : ∀ items ∈ request.requires, ∀ item ∈ items, PlainText item
  env_vars : ∀ items ∈ request.env_vars, ∀ item ∈ items, PlainText item
  content : ¬crLf <:+: request.content.toList

/-- A request for an update of a skill that the tool accepts. -/
structure SkillUpdateArgs.Valid (name : String) (request : SkillUpdateArgs) : Prop where
  name : request.name = name
  updates : request.hasUpdates = true
  activation : ∀ s ∈ request.activation, s ∈ activationModes
  content : ∀ content ∈ request.content, content.utf8ByteSize / charsPerToken ≤ maxSkillTokens

/-- The texts of a request for an update stand in the file as they are. -/
structure SkillUpdateArgs.ReadsBack (request : SkillUpdateArgs) : Prop where
  description : ∀ description ∈ request.description, QuotedText description
  requires : ∀ items ∈ request.requires, ∀ item ∈ items, PlainText item
  env_vars : ∀ items ∈ request.env_vars, ∀ item ∈ items, PlainText item
  content : ∀ content ∈ request.content, ¬crLf <:+: content.toList

/-- The metadata that a new skill is meant to have. -/
def SkillCreateArgs.wanted (request : SkillCreateArgs) : DescribedMetadata :=
  request.metadata (wantedActivation request.activation .auto)

/-- The metadata that an updated skill is meant to have: the fields that the request gives, and the
others as they are. -/
def SkillUpdateArgs.wanted (metadata : DescribedMetadata) (request : SkillUpdateArgs) :
    DescribedMetadata :=
  request.merged metadata (wantedActivation request.activation metadata.activation)

/-- The content that an updated skill is meant to have. -/
def SkillUpdateArgs.wantedContent (content : String) (request : SkillUpdateArgs) : String :=
  request.content.getD content

/-- No update gives a skill another name. -/
theorem foldl_wanted_name (updates : List SkillUpdateArgs) (metadata : DescribedMetadata) :
    (updates.foldl SkillUpdateArgs.wanted metadata).name = metadata.name := by
  induction updates generalizing metadata with
  | nil => rfl
  | cons update updates ih => exact ih (update.wanted metadata)

/-- A priority of 32 bits, or one that is in the range. -/
theorem priority_range {priority : Option Int32} {otherwise : ℤ}
    (h : -2 ^ 31 ≤ otherwise ∧ otherwise < 2 ^ 31) :
    -2 ^ 31 ≤ (priority.map Int32.toInt).getD otherwise ∧
      (priority.map Int32.toInt).getD otherwise < 2 ^ 31 := by
  cases priority with
  | none => exact h
  | some priority => exact ⟨priority.le_toInt, priority.toInt_lt⟩

/-- What a request to create writes. -/
theorem SkillCreateArgs.ReadsBack.writable {request : SkillCreateArgs} (hvalid : request.Valid)
    (h : request.ReadsBack) : Writable request.wanted where
  name := ⟨isPlain_of_validateSkillName hvalid.name, h.name⟩
  description := h.description
  requires := by
    show ∀ item ∈ request.requires.getD [], PlainText item
    cases hitems : request.requires with
    | none => simp
    | some items => exact h.requires items hitems
  env_vars := by
    show ∀ item ∈ request.env_vars.getD [], PlainText item
    cases hitems : request.env_vars with
    | none => simp
    | some items => exact h.env_vars items hitems
  priority := priority_range (by decide)

/-- What a request to update writes. -/
theorem SkillUpdateArgs.ReadsBack.writable {request : SkillUpdateArgs} (h : request.ReadsBack)
    {metadata : DescribedMetadata} (hmetadata : Writable metadata) :
    Writable (request.wanted metadata) where
  name := hmetadata.name
  description := by
    show QuotedText (request.description.getD metadata.description)
    cases hdescription : request.description with
    | none => exact hmetadata.description
    | some description => exact h.description description hdescription
  requires := by
    show ∀ item ∈ request.requires.getD metadata.requires, PlainText item
    cases hitems : request.requires with
    | none => exact hmetadata.requires
    | some items => exact h.requires items hitems
  env_vars := by
    show ∀ item ∈ request.env_vars.getD metadata.env_vars, PlainText item
    cases hitems : request.env_vars with
    | none => exact hmetadata.env_vars
    | some items => exact h.env_vars items hitems
  priority := priority_range hmetadata.priority

/-! ## The directory -/

section

variable (matter : DescribedFrontMatter) (order : SkillsDir → SkillsDir) (skills_dir : String)

/-- A name that no entry of a directory takes: neither a path, nor a skill. -/
structure Fresh (dir : SkillsDir) (name : String) : Prop where
  path : ∀ entry ∈ dir, entry.1 ≠ name ∧ entry.1 ≠ name ++ ".md"
  skill : ∀ entry ∈ dir, ∀ raw ∈ entry.2.raw entry.1, ∀ skill,
    validateSkillFile matter raw = .ok skill → skill.metadata.name ≠ name

variable {matter order} {dir : SkillsDir} {name : String}

/-- A fresh name is no skill's. -/
theorem skillNamed_of_fresh (hfresh : Fresh matter dir name) {entry : String × SkillItem}
    (hentry : entry ∈ dir) : skillNamed matter skills_dir name entry = none := by
  rw [skillNamed, Option.bind_eq_none_iff]
  intro raw hraw
  cases hskill : validateSkillFile matter raw with
  | error err => rfl
  | ok skill => exact if_neg (hfresh.skill entry hentry raw hraw skill hskill)

/-- No entry has a skill of the name. -/
theorem resolve_fresh (horder : ∀ dir, (order dir).Perm dir) (hfresh : Fresh matter dir name) :
    resolveSkillPathByMetadata matter order skills_dir dir name = none := by
  rw [resolveSkillPathByMetadata, List.findSome?_eq_none_iff]
  exact fun entry hentry => skillNamed_of_fresh skills_dir hfresh ((horder dir).subset hentry)

/-- Where only one entry has the skill, it is found in whatever order they are read. -/
theorem resolve_append (horder : ∀ dir, (order dir).Perm dir) (hfresh : Fresh matter dir name)
    {raw : String} {skill : DescribedSkill} (hraw : validateSkillFile matter raw = .ok skill)
    (hname : skill.metadata.name = name) :
    resolveSkillPathByMetadata matter order skills_dir
      (dir ++ [(name, .folder (some (some raw)))]) name =
        some (name, skills_dir ++ "/" ++ name ++ "/SKILL.md", skill) := by
  have hnew : skillNamed matter skills_dir name (name, .folder (some (some raw))) =
      some (name, skills_dir ++ "/" ++ name ++ "/SKILL.md", skill) := by
    simp [skillNamed, SkillItem.raw, SkillItem.path, hraw, hname]
  have hperm := horder (dir ++ [(name, .folder (some (some raw)))])
  unfold resolveSkillPathByMetadata
  cases hresult : (order (dir ++ [(name, .folder (some (some raw)))])).findSome?
      (skillNamed matter skills_dir name) with
  | none =>
    rw [List.findSome?_eq_none_iff] at hresult
    rw [hresult _ (hperm.mem_iff.mpr (by simp))] at hnew
    contradiction
  | some found =>
    obtain ⟨entry, hentry, hfound⟩ := exists_of_findSome?_eq_some hresult
    obtain hmem | hmem := mem_append.mp (hperm.subset hentry)
    · rw [skillNamed_of_fresh skills_dir hfresh hmem] at hfound
      contradiction
    · rw [mem_singleton.mp hmem, hnew] at hfound
      exact hfound.symm

/-- Another text in the file that is the last. -/
theorem write_append (hfresh : Fresh matter dir name) (raw text : String) :
    SkillsDir.write name text (dir ++ [(name, .folder (some (some raw)))]) =
      dir ++ [(name, .folder (some (some text)))] := by
  have hdir : SkillsDir.write name text dir = dir := by
    refine (map_congr_left fun entry hentry => ?_).trans (map_id dir)
    exact if_neg (hfresh.path entry hentry).1
  rw [SkillsDir.write, map_append]
  exact congrArg₂ _ hdir (by simp [SkillItem.write])

/-! ## Runs -/

variable {tidy : List Char → List Char} {metadata : DescribedMetadata} {content : String}

variable (matter) in
/-- The directory with one more skill, whose file is read as this metadata and this content. -/
def Holds (dir : SkillsDir) (metadata : DescribedMetadata) (content : String)
    (dir' : SkillsDir) : Prop :=
  ∃ raw read, dir' = dir ++ [(metadata.name, .folder (some (some raw)))] ∧
    validateSkillFile matter raw = .ok { metadata, content := read } ∧ SameBody read content

/-- A new skill is written and read back. -/
theorem holds_skillCreate (hmatter : FrontMatterLaws matter tidy)
    (horder : ∀ dir, (order dir).Perm dir) {request : SkillCreateArgs}
    (hfresh : Fresh matter dir request.name) (hvalid : request.Valid) (h : request.ReadsBack) :
    ∃ answer dir', skillCreate matter order skills_dir request dir = .ok (answer, dir') ∧
      Holds matter dir request.wanted request.content dir' := by
  obtain ⟨read, hread, hsame⟩ :=
    validateSkillFile_assembleSkillFile hmatter (h.writable hvalid) h.content hvalid.content
  have habsent : ensureTargetPathAbsent skills_dir dir request.name = .ok () := by
    have hdir : dir.any (·.1 = request.name) = false := by
      simpa using fun a b hab => (hfresh.path (a, b) hab).1
    have hlegacy : dir.any (·.1 = request.name ++ ".md") = false := by
      simpa using fun a b hab => (hfresh.path (a, b) hab).2
    simp [ensureTargetPathAbsent, hdir, hlegacy]
  have hrun : ∃ answer, skillCreate matter order skills_dir request dir = .ok (answer, dir ++
      [(request.name, .folder (some (some
        (assembleSkillFile request.wanted request.content))))]) := by
    unfold skillCreate
    rw [SkillCreateArgs.wanted] at hread ⊢
    simp only [hvalid.name, resolve_fresh skills_dir horder hfresh, habsent,
      requestedActivation_of_mem hvalid.activation, Except.mapError, bind, Except.bind, hread,
      Option.isSome_none, Bool.false_eq_true, if_false]
    exact ⟨_, rfl⟩
  obtain ⟨answer, hrun⟩ := hrun
  exact ⟨answer, _, hrun, _, read, rfl, hread, hsame⟩

/-- An update keeps the fields that it does not set, and sets the others. -/
theorem holds_skillUpdate (hmatter : FrontMatterLaws matter tidy)
    (horder : ∀ dir, (order dir).Perm dir) (hfresh : Fresh matter dir metadata.name)
    (hmetadata : Writable metadata) (hcrlf : ¬crLf <:+: content.toList)
    (hcap : content.utf8ByteSize / charsPerToken ≤ maxSkillTokens)
    {request : SkillUpdateArgs} (hvalid : request.Valid metadata.name) (h : request.ReadsBack)
    {dir' : SkillsDir} (hdir : Holds matter dir metadata content dir') :
    ∃ answer dir'', skillUpdate matter order skills_dir request dir' = .ok (answer, dir'') ∧
      Holds matter dir (request.wanted metadata) (request.wantedContent content) dir'' := by
  obtain ⟨raw, read, rfl, hraw, hread⟩ := hdir
  have hwritable := h.writable hmetadata
  have hbody : ∃ read', validateSkillFile matter
      (assembleSkillFile (request.wanted metadata) (request.content.getD read)) =
        .ok { metadata := request.wanted metadata, content := read' } ∧
      SameBody read' (request.wantedContent content) := by
    unfold SkillUpdateArgs.wantedContent
    cases hcontent : request.content with
    | none =>
      obtain ⟨read', hread', hsame⟩ := validateSkillFile_assembleSkillFile hmatter hwritable
        (fun hin => hcrlf (hin.trans hread.isPart))
        ((Nat.div_le_div_right hread.size_le).trans hcap)
      exact ⟨read', hread', hsame.trans hread⟩
    | some content =>
      exact validateSkillFile_assembleSkillFile hmatter hwritable (h.content content hcontent)
        (hvalid.content content hcontent)
  obtain ⟨read', hread', hsame⟩ := hbody
  have hrun : ∃ answer, skillUpdate matter order skills_dir request
      (dir ++ [(metadata.name, .folder (some (some raw)))]) = .ok (answer, dir ++
        [(metadata.name, .folder (some (some
          (assembleSkillFile (request.wanted metadata) (request.content.getD read)))))]) := by
    unfold skillUpdate
    rw [SkillUpdateArgs.wanted] at hread' ⊢
    simp only [hvalid.updates, hvalid.name, resolve_append skills_dir horder hfresh hraw rfl,
      requestedActivation_of_mem hvalid.activation, Except.mapError, bind, Except.bind, hread',
      write_append hfresh, Bool.not_true, Bool.false_eq_true, if_false]
    exact ⟨_, rfl⟩
  obtain ⟨answer, hrun⟩ := hrun
  exact ⟨answer, _, hrun, _, read', rfl, hread', hsame⟩

/-- After any number of updates. -/
theorem holds_updates (hmatter : FrontMatterLaws matter tidy)
    (horder : ∀ dir, (order dir).Perm dir) (hfresh : Fresh matter dir name)
    {updates : List SkillUpdateArgs}
    (hupdates : ∀ update ∈ updates, update.Valid name ∧ update.ReadsBack)
    (hname : metadata.name = name) (hmetadata : Writable metadata)
    (hcrlf : ¬crLf <:+: content.toList)
    (hcap : content.utf8ByteSize / charsPerToken ≤ maxSkillTokens) {dir' : SkillsDir}
    (hdir : Holds matter dir metadata content dir') :
    ∃ last, updates.foldlM (fun dir update => do
        let (_, updated) ← skillUpdate matter order skills_dir update dir
        return updated) dir' = .ok last ∧
      Holds matter dir (updates.foldl SkillUpdateArgs.wanted metadata)
        (updates.foldl SkillUpdateArgs.wantedContent content) last := by
  induction updates generalizing metadata content dir' with
  | nil => exact ⟨dir', rfl, hdir⟩
  | cons update updates ih =>
    subst hname
    rw [forall_mem_cons] at hupdates
    obtain ⟨⟨hvalid, hreads⟩, hupdates⟩ := hupdates
    obtain ⟨answer, next, hnext, hholds⟩ :=
      holds_skillUpdate skills_dir hmatter horder hfresh hmetadata hcrlf hcap hvalid hreads hdir
    have hcontent : ¬crLf <:+: (update.wantedContent content).toList ∧
        (update.wantedContent content).utf8ByteSize / charsPerToken ≤ maxSkillTokens := by
      unfold SkillUpdateArgs.wantedContent
      cases hgiven : update.content with
      | none => exact ⟨hcrlf, hcap⟩
      | some given => exact ⟨hreads.content given hgiven, hvalid.content given hgiven⟩
    have hname : (update.wanted metadata).name = metadata.name := rfl
    obtain ⟨last, hlast, hholds⟩ := ih hupdates hname (hreads.writable hmetadata) hcontent.1
      hcontent.2 hholds
    refine ⟨last, ?_, hholds⟩
    rw [foldlM_cons, hnext]
    exact hlast

end

/-- A skill that is created with a valid request, in a directory that has no other of its name, and
then updated any number of times: all of it succeeds, the other entries stay, and the file is read
back as the metadata of the requests merged over each other and the last content, up to empty lines
around it. -/
theorem skill_updates_merge {matter : DescribedFrontMatter} {tidy : List Char → List Char}
    (hmatter : FrontMatterLaws matter tidy) {order : SkillsDir → SkillsDir}
    (horder : ∀ dir, (order dir).Perm dir) (skills_dir : String) {dir : SkillsDir}
    {request : SkillCreateArgs} {updates : List SkillUpdateArgs}
    (hfresh : Fresh matter dir request.name) (hvalid : request.Valid) (hreads : request.ReadsBack)
    (hupdates : ∀ update ∈ updates, update.Valid request.name ∧ update.ReadsBack) :
    ∃ raw skill,
      skillRun matter order skills_dir request updates dir =
        .ok (dir ++ [(request.name, .folder (some (some raw)))]) ∧
      validateSkillFile matter raw = .ok skill ∧
      skill.metadata = updates.foldl SkillUpdateArgs.wanted request.wanted ∧
      SameBody skill.content (updates.foldl SkillUpdateArgs.wantedContent request.content) := by
  obtain ⟨answer, created, hcreate, hholds⟩ :=
    holds_skillCreate skills_dir hmatter horder hfresh hvalid hreads
  obtain ⟨last, hlast, raw, read, rfl, hraw, hread⟩ :=
    holds_updates skills_dir hmatter horder hfresh hupdates rfl
      (hreads.writable hvalid) hreads.content hvalid.content hholds
  refine ⟨raw, _, ?_, hraw, rfl, hread⟩
  rw [skillRun, hcreate, ← show request.wanted.name = request.name from rfl,
    ← foldl_wanted_name updates request.wanted]
  exact hlast

/-! ## A reader -/

/-- The rest of a text without the last line break, and without those at its front. -/
def tidyBody (body : List Char) : List Char :=
  (if body.getLast? = some '\n' then body.dropLast else body).dropWhile (· = '\n')

/-- A reader that reads the front matters that are read here, and no others. -/
def lineMatter : DescribedFrontMatter := fun raw =>
  match readFrontMatter raw.toList with
  | some (entries, body) =>
    match metadataOf entries with
    | some metadata => .ok (some metadata, String.ofList (tidyBody body))
    | none => .error "the metadata is invalid"
  | none => .error "the front matter is not read"

/-- A reader that keeps the laws. -/
theorem frontMatterLaws_lineMatter : FrontMatterLaws lineMatter tidyBody where
  agrees {raw entries body} h := by
    unfold lineMatter
    rw [h]
    cases hmetadata : metadataOf entries <;> simp [hmetadata, Except.toOption]
  trims body _ := by
    have hcut (text : List Char) :
        ∃ i, text = List.replicate i '\n' ++ text.dropWhile (· = '\n') := by
      have hfront : text.takeWhile (· = '\n') =
          List.replicate (text.takeWhile (· = '\n')).length '\n' :=
        eq_replicate_of_mem fun c hc => by simpa using mem_takeWhile_imp hc
      exact ⟨_, hfront ▸ takeWhile_append_dropWhile.symm⟩
    unfold tidyBody
    split_ifs with hlast
    · obtain ⟨front, rfl⟩ := List.getLast?_eq_some_iff.mp hlast
      rw [dropLast_concat]
      obtain ⟨i, hi⟩ := hcut front
      exact ⟨i, 1, congrArg (· ++ ['\n']) hi⟩
    · obtain ⟨i, hi⟩ := hcut body
      exact ⟨i, 0, by rw [replicate_zero, append_nil]; exact hi⟩
  starts body h := by
    have hhead := List.head?_dropWhile_not (· = '\n')
      (if body.getLast? = some '\n' then body.dropLast else body)
    rw [show List.dropWhile _ _ = tidyBody body from rfl, h] at hhead
    simp at hhead

/-- A skill with a colon and quotation marks in its description. -/
def deploySkill : SkillCreateArgs where
  name := "deploy-staging"
  description := "Deploys: see \"staging\""
  content := "## Steps\n\nRun it.\n"
  requires := some ["shell_exec"]
  env_vars := some ["DEPLOY_TOKEN"]

/-- An update of its priority. -/
def deployPriority : SkillUpdateArgs where
  name := "deploy-staging"
  priority := some 10

/-- An update of its content and of what it requires. -/
def deploySteps : SkillUpdateArgs where
  name := "deploy-staging"
  content := some "Ask first."
  requires := some ["shell_exec", "browser"]

/-- A skill that is updated twice. -/
theorem skill_updates_merge_deploy :
    ∃ raw skill,
      skillRun lineMatter List.reverse "/w/skills" deploySkill [deployPriority, deploySteps]
        [("notes.md", .file (some "Notes."))] =
          .ok ([("notes.md", .file (some "Notes."))] ++
            [("deploy-staging", .folder (some (some raw)))]) ∧
      validateSkillFile lineMatter raw = .ok skill ∧
      skill.metadata = [deployPriority, deploySteps].foldl SkillUpdateArgs.wanted
        deploySkill.wanted ∧
      SameBody skill.content ([deployPriority, deploySteps].foldl SkillUpdateArgs.wantedContent
        deploySkill.content) := by
  have hnotes : validateSkillFile lineMatter "Notes." =
      .error (.parse "the front matter is not read") := by decide +kernel
  have hfresh : Fresh lineMatter [("notes.md", .file (some "Notes."))] "deploy-staging" := by
    refine ⟨by simp, ?_⟩
    simp [SkillItem.raw, hnotes]
  have hpriority : deployPriority.Valid "deploy-staging" ∧ deployPriority.ReadsBack :=
    ⟨⟨rfl, rfl, by simp [deployPriority], by simp [deployPriority]⟩,
      ⟨by simp [deployPriority], by simp [deployPriority], by simp [deployPriority],
        by simp [deployPriority]⟩⟩
  have hsteps : deploySteps.Valid "deploy-staging" ∧ deploySteps.ReadsBack := by
    refine ⟨⟨rfl, rfl, by simp [deploySteps], ?_⟩, ⟨by simp [deploySteps], ?_, ?_, ?_⟩⟩
    · rintro _ ⟨⟩
      decide +kernel
    · rintro _ ⟨⟩
      decide +kernel
    · simp [deploySteps]
    · rintro _ ⟨⟩
      decide +kernel
  exact skill_updates_merge frontMatterLaws_lineMatter reverse_perm "/w/skills" hfresh
    ⟨by decide +kernel, by simp [deploySkill], by decide +kernel⟩
    ⟨by decide +kernel, by decide +kernel, by rintro _ ⟨⟩; decide +kernel,
      by rintro _ ⟨⟩; decide +kernel, by decide +kernel⟩
    (forall_mem_cons.mpr ⟨hpriority, forall_mem_singleton.mpr hsteps⟩)

/-- A path in a description, whose backslash is not escaped. -/
def pathSkill : SkillCreateArgs where
  name := "clean-up"
  description := "Cleans C:\\temp"
  content := "Ask first."

/-- A backslash in a description is lost. -/
theorem backslash_is_an_escape :
    pathSkill.Valid ∧ ∃ dir raw skill,
      skillRun lineMatter id "/w/skills" pathSkill [] [] = .ok dir ∧
      dir = [("clean-up", .folder (some (some raw)))] ∧
      validateSkillFile lineMatter raw = .ok skill ∧
      skill.metadata.description = "Cleans C:\temp" ∧
      skill.metadata.description ≠ pathSkill.description := by
  refine ⟨⟨by decide +kernel, by simp [pathSkill], by decide +kernel⟩, _,
    assembleSkillFile pathSkill.wanted pathSkill.content,
    ⟨{ pathSkill.wanted with description := "Cleans C:\temp" }, "Ask first."⟩, ?_, rfl, ?_, rfl, ?_⟩
  · decide +kernel
  · decide +kernel
  · decide +kernel

end Oxydra
