import Oxydra.Library.ShellExpansion
import Oxydra.Tools.BrowserQuoting
import Oxydra.Types.JsonReader

/-!
# What the bodies of browser actions decode to

`build_action_body` (`crates/tools/src/browser.rs`) writes the parameters of an action into a JSON
text between the apostrophes of a shell, each by `shell_escape`. The shell passes this text on, and
the bridge reads it as JSON. Quotes, backslashes and apostrophes come through both, and so do the
three control characters that are escaped. Any other control character comes through the shell as it
is, and JSON has no such character in a string.
-/

namespace Oxydra

open Shell

variable {params : BrowserParams} {kind : String}

/-! ## The members of a body -/

/-- The parameters in the body of an action, by the names of their members. -/
def bodyParams (params : BrowserParams) (kind : String) : List (String × Option String) :=
  [("kind", some kind), ("ref", params.element_ref),
    ("text", if kind ∈ ["type", "fill"] then params.text else none),
    ("key", if kind = "press" then params.key else none),
    ("value", if kind = "select" then params.value else none),
    ("selector", if kind = "fill" then params.selector else none)]

/-- A character of a parameter as it stands in the body. -/
def jsonChar (c : Char) : List Char := if c = '\'' then ['\''] else escapeChar c

/-- Whether a character comes through. -/
def bodyChar (c : Char) : Bool := c ∈ ['\n', '\r', '\t'] || 0x20 ≤ c.toNat

/-- A character of a parameter is read again, if it comes through. -/
theorem readItem_jsonChar (c : Char) (rest : List Char) :
    Json.readItem (jsonChar c ++ rest) = if bodyChar c then some (some c, rest) else none := by
  by_cases hc : c ∈ escapedChars
  · simp only [escapedChars, List.mem_cons, List.not_mem_nil, or_false] at hc
    obtain rfl | rfl | rfl | rfl | rfl | rfl := hc <;> rfl
  · have hself : jsonChar c = [c] := by
      unfold jsonChar
      rw [Spot.escapeChar_self hc, ite_eq_right_iff]
      exact fun h => by rw [h]
    simp only [escapedChars, List.mem_cons, List.not_mem_nil, or_false, not_or] at hc
    obtain ⟨-, hquote, hback, hn, hr, ht⟩ := hc
    rw [hself, List.singleton_append, Json.readItem_of_ne hquote hback]
    simp [bodyChar, hn, hr, ht]

/-- A character is written by one at least. -/
theorem jsonChar_ne_nil (c : Char) : jsonChar c ≠ [] := by
  unfold jsonChar escapeChar
  split_ifs
  · exact List.cons_ne_nil _ _
  · split <;> exact List.cons_ne_nil _ _

/-- A parameter as a member of the body. -/
def paramMember (name value : String) : Json.Member := .ofString name jsonChar bodyChar value

/-- The tab, which the shell puts in as it is. -/
def tabMember (tab : String) : Json.Member :=
  .ofString "tabId" (fun c => [c]) (fun c => 0x20 ≤ c.toNat) tab

def waitNavMember : Json.Member := ⟨"waitNav", "true".toList, some (.bool true)⟩

/-- The members of the body after the kind and the tab. -/
def laterMembers (params : BrowserParams) (kind : String) : List Json.Member :=
  ((bodyParams params kind).tail.filterMap fun (name, value) => value.map (paramMember name)) ++
    if kind = "click" ∧ params.wait_nav = some true then [waitNavMember] else []

/-! ## What the shell passes on -/

/-- The variables of a script that took a tab. -/
def tabEnv (tab : String) (name : List Char) : List Char :=
  if name = "TAB".toList then tab.toList else []

/-- What the shell passes to `curl -d` as the body of an action. -/
def actionArgument (dollarQuotes : Bool) (tab : String) (params : BrowserParams) (kind : String) :
    Option (List Char) :=
  argument (tabEnv tab) dollarQuotes
    ('\'' :: ((BrowserTool.buildActionBody params kind).text shellEscape).toList ++ ['\''])

section

variable {dollarQuotes : Bool} {tab : String}

/-- A text without apostrophes is passed on as it is. -/
theorem expands_fixed (cs : List Char) (h : '\'' ∉ cs) :
    Expands (tabEnv tab) (inApostrophes dollarQuotes) cs cs := by
  obtain ⟨hread, hafter⟩ := @quoted_inApostrophes dollarQuotes cs h
  refine .data hafter (read_inApostrophes h).1 ?_
  rw [hread, List.flatMap_map]
  exact List.flatMap_singleton' cs

/-- The shell leaves an escaped character. -/
theorem expands_escapeChar (c : Char) :
    Expands (tabEnv tab) (inApostrophes dollarQuotes) (escapeChar c) (jsonChar c) := by
  by_cases hc : c = '\''
  · subst hc
    cases dollarQuotes <;> exact .data rfl rfl rfl
  · unfold jsonChar
    rw [if_neg hc]
    refine expands_fixed _ ?_
    unfold escapeChar
    split <;> simp_all [eq_comm]

/-- The apostrophes are left for the tab and entered again. -/
theorem expands_tab :
    Expands (tabEnv tab) (inApostrophes dollarQuotes) "'\"$TAB\"'".toList tab.toList := by
  have hread : read (inApostrophes dollarQuotes) "'\"$TAB\"'".toList =
      [('\'', .quoting), ('"', .quoting), ('$', .dollar), ('T', .quotedExpansion),
        ('A', .quotedExpansion), ('B', .quotedExpansion), ('"', .quoting), ('\'', .quoting)] := by
    cases dollarQuotes <;> rfl
  have htab : tabEnv tab ['T', 'A', 'B'] = tab.toList := if_pos rfl
  refine ⟨by cases dollarQuotes <;> rfl, fun w => ?_⟩
  rw [hread]
  simp [expand, Role.isData, Kind.of, own, parameter, htab, Function.comp_def]

/-- A part of the body stands for a member of the argument. -/
def StandsFor (dollarQuotes : Bool) (tab : String) (part : Template) (m : Json.Member) : Prop :=
  Expands (tabEnv tab) (inApostrophes dollarQuotes) (part.flatMap (Piece.written shellEscape))
    m.written

/-- A field with a parameter. -/
theorem standsFor_jsonField {name value : String} (h : '\'' ∉ name.toList) :
    StandsFor dollarQuotes tab (BrowserTool.jsonField name value) (paramMember name value) := by
  have hname : '\'' ∉ ("\"" ++ name ++ "\":\"").toList := by simpa using h
  have hvalue : Expands (tabEnv tab) (inApostrophes dollarQuotes) (shellEscape value)
      (value.toList.flatMap jsonChar) := .flatMap fun c _ => expands_escapeChar c
  have hwhole := (expands_fixed _ hname).append (hvalue.append (expands_fixed ['"'] (by decide)))
  unfold StandsFor
  convert hwhole using 1
  · simp [BrowserTool.jsonField, Piece.written]
  · simp [paramMember, Json.Member.ofString, Json.Member.written]

/-- The field of the tab. -/
theorem standsFor_tab :
    StandsFor dollarQuotes tab [.fixed "\"tabId\":\"'\"$TAB\"'\""] (tabMember tab) := by
  have hopen : Expands (tabEnv tab) (inApostrophes dollarQuotes) "\"tabId\":\"".toList
      "\"tabId\":\"".toList := expands_fixed _ (by decide)
  have hwhole := hopen.append (expands_tab.append (expands_fixed ['"'] (by decide)))
  unfold StandsFor
  convert hwhole using 1
  · rfl
  · simp [tabMember, Json.Member.ofString, Json.Member.written]

/-- The field `waitNav`. -/
theorem standsFor_waitNav :
    StandsFor dollarQuotes tab [.fixed "\"waitNav\":true"] waitNavMember :=
  expands_fixed _ (by decide)

/-- A field that may be missing. -/
theorem forall₂_option {name : String} (h : '\'' ∉ name.toList) (value : Option String) :
    List.Forall₂ (StandsFor dollarQuotes tab) (value.map (BrowserTool.jsonField name)).toList
      (value.map (paramMember name)).toList := by
  cases value with
  | none => exact .nil
  | some value => exact .cons (standsFor_jsonField h) .nil

/-- The members behind the tab, by kind. -/
theorem laterMembers_eq (params : BrowserParams) (kind : String) :
    laterMembers params kind = (params.element_ref.map (paramMember "ref")).toList ++
      match kind with
      | "click" => if params.wait_nav = some true then [waitNavMember] else []
      | "type" => (params.text.map (paramMember "text")).toList
      | "press" => (params.key.map (paramMember "key")).toList
      | "fill" =>
        (params.text.map (paramMember "text")).toList ++
          (params.selector.map (paramMember "selector")).toList
      | "select" => (params.value.map (paramMember "value")).toList
      | _ => [] := by
  have hoption : ∀ {name : String} {value : Option String} {rest : List (String × Option String)},
      ((name, value) :: rest).filterMap (fun (name, value) => value.map (paramMember name)) =
        (value.map (paramMember name)).toList ++
          rest.filterMap (fun (name, value) => value.map (paramMember name)) := by
    rintro name (_ | value) rest <;> rfl
  unfold laterMembers bodyParams
  simp only [List.tail_cons, hoption]
  symm
  split <;> simp_all

/-- The parts of the body stand for its members. -/
theorem forall₂_actionParts (params : BrowserParams) (kind : String) :
    List.Forall₂ (StandsFor dollarQuotes tab) (BrowserTool.actionParts params kind)
      (paramMember "kind" kind :: tabMember tab :: laterMembers params kind) := by
  rw [laterMembers_eq]
  unfold BrowserTool.actionParts
  refine .cons (standsFor_jsonField (by decide)) (.cons standsFor_tab ?_)
  refine List.rel_append (forall₂_option (by decide) _) ?_
  split
  · split_ifs
    · exact .cons standsFor_waitNav .nil
    · exact .nil
  · exact forall₂_option (by decide) _
  · exact forall₂_option (by decide) _
  · exact List.rel_append (forall₂_option (by decide) _) (forall₂_option (by decide) _)
  · exact forall₂_option (by decide) _
  · -- the kind is none of the five: the members' match takes its last branch too
    simp_all

/-- Fields with commas between them. -/
theorem expands_joined {part : Template} {parts : List Template} {m : Json.Member}
    {ms : List Json.Member}
    (h : List.Forall₂ (StandsFor dollarQuotes tab) (part :: parts) (m :: ms)) :
    Expands (tabEnv tab) (inApostrophes dollarQuotes)
      ((BrowserTool.joinTemplates "," (part :: parts) ++ [Piece.fixed "\x7d"]).flatMap
        (Piece.written shellEscape)) (Json.membersText m ms) := by
  induction parts generalizing part m ms with
  | nil =>
    obtain ⟨hpart, hnil⟩ := List.forall₂_cons.mp h
    obtain rfl := List.forall₂_nil_left_iff.mp hnil
    have hwhole := Expands.append hpart (expands_fixed ['\x7d'] (by decide))
    convert hwhole using 1
    · simp [BrowserTool.joinTemplates, Piece.written]
    · rfl
  | cons next parts ih =>
    obtain ⟨hpart, hrest⟩ := List.forall₂_cons.mp h
    obtain ⟨m', ms', -, -, rfl⟩ := List.forall₂_cons_left_iff.mp hrest
    have hwhole := Expands.append hpart
      ((expands_fixed [','] (by decide)).append (ih hrest))
    convert hwhole using 1
    · simp [BrowserTool.joinTemplates, Piece.written]
    · rfl

/-- A body in apostrophes is one word. -/
theorem argument_apostrophes {body text : List Char}
    (h : Expands (tabEnv tab) (inApostrophes dollarQuotes) body text) :
    argument (tabEnv tab) dollarQuotes ('\'' :: body ++ ['\'']) = some text := by
  have hfirst : (Reader.start dollarQuotes).step '\'' = (.quoting, inApostrophes dollarQuotes) := by
    cases dollarQuotes <;> rfl
  have hlast : (inApostrophes dollarQuotes).step '\'' =
      (.quoting, ⟨dollarQuotes, [], .plain, .none, .other, false⟩) := rfl
  have hread : read (Reader.start dollarQuotes) ('\'' :: body ++ ['\'']) =
      ('\'', .quoting) :: (read (inApostrophes dollarQuotes) body ++ [('\'', .quoting)]) := by
    rw [List.cons_append, Shell.read, hfirst, read_append, h.back, Shell.read, hlast, Shell.read]
  have hafter : after (Reader.start dollarQuotes) ('\'' :: body ++ ['\'']) =
      ⟨dollarQuotes, [], .plain, .none, .other, false⟩ := by
    rw [List.cons_append, after, hfirst, after_append, h.back, after, hlast, after]
  unfold argument
  rw [hread, hafter]
  refine (if_pos ⟨rfl, rfl, rfl⟩).trans ?_
  rw [expand_data rfl, h.stands]
  exact congrArg some (List.append_nil text)

/-- The argument is the text of the members. -/
theorem actionArgument_eq (dollarQuotes : Bool) (tab : String) (params : BrowserParams)
    (kind : String) : actionArgument dollarQuotes tab params kind = some ('\x7b' ::
      Json.membersText (paramMember "kind" kind) (tabMember tab :: laterMembers params kind)) := by
  obtain ⟨part, parts, hparts⟩ :
      ∃ part parts, BrowserTool.actionParts params kind = part :: parts := ⟨_, _, rfl⟩
  have hjoined := @forall₂_actionParts dollarQuotes tab params kind
  have hopen : Expands (tabEnv tab) (inApostrophes dollarQuotes) ['\x7b'] ['\x7b'] :=
    expands_fixed _ (by decide)
  have htext : ((BrowserTool.buildActionBody params kind).text shellEscape).toList =
      ['\x7b'] ++ (BrowserTool.joinTemplates "," (BrowserTool.actionParts params kind) ++
        [Piece.fixed "\x7d"]).flatMap (Piece.written shellEscape) := String.toList_ofList
  rw [hparts] at hjoined htext
  have hbody := hopen.append (expands_joined hjoined)
  rw [← htext] at hbody
  exact argument_apostrophes hbody

/-! ## What the bridge reads -/

/-- The argument is a JSON text, and its members are the parameters of the body. -/
def DecodesTo (argument : Option (List Char)) (fields : List (String × Option String)) : Prop :=
  ∃ members, argument.bind Json.parse = some (.object members) ∧
    ∀ field ∈ fields, members.lookup field.1 = field.2.map .string

/-- The body has no other text than the characters that come through. -/
def ComesThrough (tab : String) (fields : List (String × Option String)) : Prop :=
  (∀ field ∈ fields, ∀ value ∈ field.2, value.toList.all bodyChar = true) ∧
    tab.toList.all (fun c => 0x20 ≤ c.toNat) = true

/-- The names of the parameters. -/
theorem keys_bodyParams (params : BrowserParams) (kind : String) :
    Fields.keys (bodyParams params kind) = ["kind", "ref", "text", "key", "value", "selector"] :=
  rfl

/-- The members of a body: the parameters, the tab, and the flag of a click. -/
theorem mem_members {m : Json.Member}
    (h : m ∈ paramMember "kind" kind :: tabMember tab :: laterMembers params kind) :
    (∃ name value, (name, some value) ∈ bodyParams params kind ∧ m = paramMember name value) ∨
      m = tabMember tab ∨ m = waitNavMember := by
  obtain rfl | rfl | h := List.mem_cons.mp h |>.imp_right List.mem_cons.mp
  · exact .inl ⟨"kind", kind, List.mem_cons_self, rfl⟩
  · exact .inr (.inl rfl)
  · obtain h | h := List.mem_append.mp h
    · obtain ⟨⟨name, value⟩, hfield, hm⟩ := List.mem_filterMap.mp h
      obtain ⟨value, rfl, rfl⟩ := Option.map_eq_some_iff.mp hm
      exact .inl ⟨name, value, List.mem_cons_of_mem _ hfield, rfl⟩
    · split_ifs at h
      · exact .inr (.inr (List.mem_singleton.mp h))
      · exact absurd h List.not_mem_nil

/-- A parameter that is given is a member. -/
theorem paramMember_mem {name value : String} (h : (name, some value) ∈ bodyParams params kind) :
    paramMember name value ∈
      paramMember "kind" kind :: tabMember tab :: laterMembers params kind := by
  obtain heq | h := List.mem_cons.mp h
  · injection heq with hname hvalue
    injection hvalue with hvalue
    subst hname hvalue
    exact List.mem_cons_self
  · refine List.mem_cons_of_mem _ (List.mem_cons_of_mem _ (List.mem_append_left _ ?_))
    exact List.mem_filterMap.mpr ⟨_, h, rfl⟩

/-- The names of the members stand in one order. -/
theorem names_sublist (tab : String) (params : BrowserParams) (kind : String) :
    ((paramMember "kind" kind :: tabMember tab :: laterMembers params kind).map
      Json.Member.name).Sublist
        ["kind", "tabId", "ref", "text", "key", "value", "selector", "waitNav"] := by
  have hgiven : ∀ fields : List (String × Option String),
      ((fields.filterMap fun (name, value) => value.map (paramMember name)).map
        Json.Member.name).Sublist (Fields.keys fields) := by
    intro fields
    induction fields with
    | nil => exact .slnil
    | cons field fields ih =>
      obtain ⟨name, _ | value⟩ := field
      · exact ih.cons name
      · exact ih.cons_cons name
  have hflag : ((if kind = "click" ∧ params.wait_nav = some true then [waitNavMember] else []).map
      Json.Member.name).Sublist ["waitNav"] := by
    split_ifs
    · exact .refl _
    · exact List.nil_sublist _
  refine .cons_cons _ (.cons_cons _ ?_)
  rw [laterMembers, List.map_append]
  exact (hgiven (bodyParams params kind).tail).append hflag

/-- No member is there twice. -/
theorem names_nodup (tab : String) (params : BrowserParams) (kind : String) :
    ((paramMember "kind" kind :: tabMember tab :: laterMembers params kind).map
      Json.Member.name).Nodup :=
  (names_sublist tab params kind).nodup (by decide)

/-- Every member of the body is read as it is spelled. -/
theorem isRead_members (htab : '"' ∉ tab.toList ∧ '\\' ∉ tab.toList) :
    ∀ m ∈ paramMember "kind" kind :: tabMember tab :: laterMembers params kind, m.IsRead := by
  intro m hm
  obtain ⟨name, value, hfield, rfl⟩ | rfl | rfl := mem_members hm
  · have hname : name ∈ ["kind", "ref", "text", "key", "value", "selector"] :=
      keys_bodyParams params kind ▸ List.mem_map_of_mem hfield
    have hplain : ["kind", "ref", "text", "key", "value", "selector"].all
        (fun name => name.toList.all Json.isPlain) = true := by decide
    exact Json.Member.isRead_ofString (List.all_eq_true.mp hplain name hname)
      (fun c _ => jsonChar_ne_nil c) fun c _ => readItem_jsonChar c
  · refine Json.Member.isRead_ofString (by decide) (fun c _ => List.cons_ne_nil c []) ?_
    intro c hc rest
    have hread := Json.readItem_of_ne (ne_of_mem_of_not_mem hc htab.1)
      (ne_of_mem_of_not_mem hc htab.2) rest
    simpa using hread
  · exact ⟨Json.readString_plain (by decide), fun fuel rest => rfl⟩

/-- They are read where all characters come through. -/
theorem isSome_members :
    (∀ m ∈ paramMember "kind" kind :: tabMember tab :: laterMembers params kind, m.value.isSome) ↔
      ComesThrough tab (bodyParams params kind) := by
  have hparam : ∀ name value, (paramMember name value).value.isSome ↔
      value.toList.all bodyChar = true := by
    intro name value
    unfold paramMember Json.Member.ofString
    split_ifs with h <;> simp [h]
  have htab : (tabMember tab).value.isSome ↔
      tab.toList.all (fun c => 0x20 ≤ c.toNat) = true := by
    unfold tabMember Json.Member.ofString
    split_ifs with h <;> simp [h]
  constructor
  · intro h
    refine ⟨?_, htab.mp (h _ (List.mem_cons_of_mem _ List.mem_cons_self))⟩
    rintro ⟨name, value⟩ hfield value' hvalue
    obtain rfl := Option.mem_def.mp hvalue
    exact (hparam name value').mp (h _ (paramMember_mem hfield))
  · rintro ⟨hfields, hchars⟩ m hm
    obtain ⟨name, value, hfield, rfl⟩ | rfl | rfl := mem_members hm
    · exact (hparam name value).mpr (hfields _ hfield value rfl)
    · exact htab.mpr hchars
    · rfl

/-- Parameters that come through are decoded. -/
theorem decodesTo_of_comesThrough (htab : '"' ∉ tab.toList ∧ '\\' ∉ tab.toList)
    (h : ComesThrough tab (bodyParams params kind)) :
    DecodesTo (actionArgument dollarQuotes tab params kind) (bodyParams params kind) := by
  have hspec := Json.parse_object_spec (isRead_members htab) (names_nodup tab params kind)
  rw [if_pos (isSome_members.mpr h)] at hspec
  obtain ⟨fields, hparse, hlookup, hnone⟩ := hspec
  refine ⟨fields, by rwa [actionArgument_eq, Option.bind_some], ?_⟩
  have hnodup : (Fields.keys (bodyParams params kind)).Nodup := by
    rw [keys_bodyParams]
    decide
  rintro ⟨name, _ | value⟩ hfield
  · have hkey : name ∈ Fields.keys (bodyParams params kind) := List.mem_map_of_mem hfield
    rw [keys_bodyParams] at hkey
    refine hnone name fun hname => ?_
    obtain ⟨m, hm, rfl⟩ := List.mem_map.mp hname
    obtain ⟨name, value, hgiven, rfl⟩ | rfl | rfl := mem_members hm
    · exact nomatch List.inj_on_of_nodup_map hnodup hfield hgiven rfl
    · exact absurd (show "tabId" ∈ _ from hkey) (by decide)
    · exact absurd (show "waitNav" ∈ _ from hkey) (by decide)
  · exact (hlookup _ (paramMember_mem hfield)).trans (if_pos (h.1 _ hfield value rfl))

/-- Others make no JSON text. -/
theorem parse_of_not_comesThrough (htab : '"' ∉ tab.toList ∧ '\\' ∉ tab.toList)
    (h : ¬ComesThrough tab (bodyParams params kind)) :
    (actionArgument dollarQuotes tab params kind).bind Json.parse = none := by
  have hspec := Json.parse_object_spec (isRead_members htab) (names_nodup tab params kind)
  rwa [if_neg (mt isSome_members.mp h), ← Option.bind_some (f := Json.parse),
    ← actionArgument_eq dollarQuotes] at hspec

/-- The bridge reads the parameters exactly where all their characters come through. -/
theorem actionBody_decodes_iff (dollarQuotes : Bool) (tab : String)
    (htab : '"' ∉ tab.toList ∧ '\\' ∉ tab.toList) (params : BrowserParams) (kind : String) :
    DecodesTo (actionArgument dollarQuotes tab params kind) (bodyParams params kind) ↔
      ComesThrough tab (bodyParams params kind) := by
  refine ⟨fun h => ?_, decodesTo_of_comesThrough htab⟩
  by_contra hnot
  obtain ⟨members, hparse, -⟩ := h
  rw [parse_of_not_comesThrough htab hnot] at hparse
  exact nomatch hparse

/-- A text with quotes of all kinds. -/
theorem actionBody_decodes_quotes :
    DecodesTo (actionArgument false "tab_1"
      { action := "act", kind := some "type", text := some "it's \"ü\"\n" } "type")
      (bodyParams { action := "act", kind := some "type", text := some "it's \"ü\"\n" } "type") :=
  (actionBody_decodes_iff false "tab_1" (by decide) _ "type").mpr
    ⟨by simp [bodyParams]; decide, by decide⟩

/-- An escape character is typed. -/
theorem actionBody_control : ('"' ∉ "tab_1".toList ∧ '\\' ∉ "tab_1".toList) ∧
    ¬DecodesTo (actionArgument false "tab_1"
      { action := "act", kind := some "type", text := some "\x1b[A" } "type")
      (bodyParams { action := "act", kind := some "type", text := some "\x1b[A" } "type") := by
  refine ⟨by decide, ?_⟩
  rintro ⟨members, hparse, -⟩
  rw [parse_of_not_comesThrough (by decide)] at hparse
  · exact nomatch hparse
  · rintro ⟨hfields, -⟩
    exact absurd (hfields ("text", some "\x1b[A") (by decide) _ rfl) (by decide)

end

end Oxydra
