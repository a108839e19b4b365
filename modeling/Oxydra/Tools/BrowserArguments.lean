import Oxydra.Tools.BrowserQuoting

/-!
# Arguments as data in browser scripts

The scripts of the browser tool, part by part: which of their arguments stand in apostrophes, where
any text is data, and which in double quotes or outside of quotes. `reads_as_data_iff` says for
which arguments the shell reads a script as it does with plain texts in their place.
-/

namespace Oxydra

open Except List Shell

section

variable {other : String → String} {dollarQuotes : Bool} {value : String}

set_option maxRecDepth 8000 in
/-- The lines before the owner. -/
theorem leads_scriptBase (tool : BrowserTool) : Leads shellEscape other
    (Reader.start dollarQuotes) tool.scriptBase (Reader.start dollarQuotes) True := by
  have hbase : Leads shellEscape other (Reader.start dollarQuotes)
      [.fixed "#!/bin/sh\nset -e\nBASE=\""] (inQuotes true dollarQuotes) True :=
    leads_literal (by decide)
  have hurl : Leads shellEscape other (inQuotes true dollarQuotes) [.fixed tool.pinchtab_url]
      (inQuotes true dollarQuotes) True := .fixed (after_inert tool.inert)
  exact hbase.after _ (hurl.after _ (leads_literal (by decide)))

/-- The owner's line. -/
theorem leads_scriptHeader (tool : BrowserTool) {owner : String} (hother : IsPlain (other owner)) :
    Leads shellEscape other (Reader.start dollarQuotes) (tool.scriptHeader owner)
      (Reader.start dollarQuotes) (Neutral true false owner) := by
  have howner : Leads shellEscape other (Reader.start dollarQuotes) [.fixed "OWNER=\""]
      (inQuotes true dollarQuotes) True :=
    leads_literal (by decide)
  refine (leads_scriptBase tool).after _ (howner.after _ (leads_closing hother rfl (by decide) ?_))
  cases dollarQuotes <;> decide

set_option maxRecDepth 8000 in
/-- A tab that is asked for. -/
theorem leads_requestedTab {tab_id : String} (hother : IsPlain (other tab_id)) :
    Leads shellEscape other (Reader.start dollarQuotes) (BrowserTool.requestedTab tab_id)
      (Reader.start dollarQuotes) (Neutral true false tab_id ∧ Neutral false true tab_id) := by
  have htab : Leads shellEscape other (Reader.start dollarQuotes) [.fixed "\nTAB=\""]
      (inQuotes true dollarQuotes) True :=
    leads_literal (by decide)
  refine htab.after _ (Leads.append (s := [_, _]) (outsideQuotes dollarQuotes) ?_ ?_)
  · refine leads_closing hother String.toList_ofList (by decide)
      (after_toList String.toList_ofList ?_)
    cases dollarQuotes <;> decide
  · refine leads_apostrophe 43 hother (toList_between String.toList_ofList _ _) ?_ ?_ ?_
    · decide
    · rintro (_ | _) (_ | _ | _ | _) <;> cases dollarQuotes <;> decide
    · cases dollarQuotes <;> decide

set_option maxRecDepth 16000 in
/-- A tab that is looked for. -/
theorem leads_acquiredTab : Leads shellEscape other (Reader.start dollarQuotes)
    [.fixed BrowserTool.acquiredTab] (Reader.start dollarQuotes) True := by
  refine .fixed (after_toList (toList_between (toList_between (toList_between (toList_between
    (toList_between String.toList_ofList _ _) _ _) _ _) _ _) _ _) ?_)
  cases dollarQuotes <;> decide

/-- What a script needs of the tab that is asked for. -/
def NeutralTab (tab_id : Option String) : Prop :=
  ∀ tab ∈ tab_id, Neutral true false tab ∧ Neutral false true tab

/-- Either of them. -/
theorem leads_tab {tab_id : Option String} (hother : ∀ value, IsPlain (other value)) :
    Leads shellEscape other (Reader.start dollarQuotes)
      (BrowserTool.tabAcquisitionAndCleanup tab_id) (Reader.start dollarQuotes)
      (NeutralTab tab_id) := by
  cases tab_id with
  | none => exact leads_acquiredTab.congr (by simp [NeutralTab])
  | some tab_id => exact (leads_requestedTab (hother tab_id)).congr (by simp [NeutralTab])

/-- A field of an action is closed in apostrophes again. -/
theorem leads_jsonField {name : String} (hname : '\'' ∉ name.toList) :
    Leads shellEscape other (inApostrophes dollarQuotes) (BrowserTool.jsonField name value)
      (inApostrophes dollarQuotes) True := by
  have hopen : after (inApostrophes dollarQuotes) ("\"" ++ name ++ "\":\"").toList =
      inApostrophes dollarQuotes := by
    refine (read_inApostrophes ?_).2
    simpa using hname
  exact (Leads.fixed hopen).after _
    ((leads_inApostrophes value).after _ (leads_literal fun _ => rfl))

/-- The body of an action stays in apostrophes, but for the tab in its middle. -/
theorem leads_actionBody (params : BrowserParams) (kind : String) :
    Leads shellEscape other (inApostrophes dollarQuotes) (BrowserTool.buildActionBody params kind)
      (inApostrophes dollarQuotes) True := by
  have hoption : ∀ {name : String} {value : Option String}, '\'' ∉ name.toList →
      ∀ part ∈ (value.map (BrowserTool.jsonField name)).toList, Leads shellEscape other
        (inApostrophes dollarQuotes) part (inApostrophes dollarQuotes) True := by
    intro name value hname part hpart
    cases value with
    | none => exact absurd hpart not_mem_nil
    | some value =>
      obtain rfl := mem_singleton.mp hpart
      exact leads_jsonField hname
  have hparts : ∀ part ∈ BrowserTool.actionParts params kind, Leads shellEscape other
      (inApostrophes dollarQuotes) part (inApostrophes dollarQuotes) True := by
    intro part hpart
    unfold BrowserTool.actionParts at hpart
    rw [mem_append, mem_append] at hpart
    obtain (hfirst | href) | hrest := hpart
    · obtain rfl | hpart := mem_cons.mp hfirst
      · exact leads_jsonField (by decide)
      · obtain rfl := mem_singleton.mp hpart
        exact leads_literal (by decide)
    · exact hoption (by decide) part href
    · split at hrest
      · split_ifs at hrest
        · obtain rfl := mem_singleton.mp hrest
          exact leads_literal (by decide)
        · exact absurd hrest not_mem_nil
      · exact hoption (by decide) part hrest
      · exact hoption (by decide) part hrest
      · rw [mem_append] at hrest
        exact hrest.elim (hoption (by decide) part) (hoption (by decide) part)
      · exact hoption (by decide) part hrest
      · exact absurd hrest not_mem_nil
  exact Leads.after (s := [_]) _ (leads_literal fun _ => rfl)
    (((leads_literal fun _ => rfl).joined hparts).after _ (leads_literal fun _ => rfl))

/-! ## The scripts -/

variable {tool : BrowserTool} {owner : String} {params : BrowserParams}

/-- The start of a script that takes a tab. -/
theorem leads_opening (hother : ∀ value, IsPlain (other value)) : Leads shellEscape other
    (Reader.start dollarQuotes)
    (tool.scriptHeader owner ++ BrowserTool.tabAcquisitionAndCleanup params.tab_id)
    (Reader.start dollarQuotes) (Neutral true false owner ∧ NeutralTab params.tab_id) :=
  (leads_scriptHeader tool (hother owner)).append _ (leads_tab hother)

set_option maxRecDepth 8000 in
/-- `navigate`, whose URL is quoted. -/
theorem leads_navigateScript {script : Template} (hother : ∀ value, IsPlain (other value))
    (h : tool.buildNavigateScript owner params = .ok script) : Leads shellEscape other
    (Reader.start dollarQuotes) script (Reader.start dollarQuotes)
    (Neutral true false owner ∧ NeutralTab params.tab_id) := by
  unfold BrowserTool.buildNavigateScript at h
  cases hurl : params.url with
  | none =>
    rw [hurl] at h
    exact nomatch h
  | some url =>
    rw [hurl] at h
    cases h
    refine (leads_opening hother).andThen (.after (s := [_]) (inApostrophes dollarQuotes)
      (leads_literal ?_) (.after (s := [_]) _ (leads_inApostrophes url)
        (.fixed (after_toList (toList_between String.toList_ofList _ _) ?_))))
    · cases dollarQuotes <;> decide
    · cases dollarQuotes <;> decide

/-- The query of a snapshot, up to the selector. -/
theorem snapshotQuery_eq : BrowserTool.snapshotQuery params =
    ([.fixed "format=compact", .fixed "&", .fixed "filter=interactive"] ++
      if params.diff = some true then [.fixed "&", .fixed "diff=true"] else []) ++
    match params.selector with
    | none => []
    | some selector => [.fixed "&", .fixed "selector=", .argument selector] := by
  unfold BrowserTool.snapshotQuery BrowserTool.joinTemplates
  cases params.selector <;> split_ifs <;> rfl

/-- Inert texts in double quotes. -/
theorem leads_inQuotes {assigned : Bool} {text : String} (h : text.toList.all (fun c =>
    Kind.of c ∉ [.quote, .backslash, .dollar, .backquote]) = true) : Leads shellEscape other
    (inQuotes assigned dollarQuotes) [.fixed text] (inQuotes assigned dollarQuotes) True :=
  .fixed (after_inert h)

/-- The request of a snapshot needs the selector to be left alone, if there is one. -/
theorem leads_snapshotQuery {first last : String} {rest : List Char}
    (hselector : ∀ selector, IsPlain (other selector))
    (hfirst : after (Reader.start dollarQuotes) first.toList = inQuotes false dollarQuotes)
    (hlast : last.toList = '"' :: ' ' :: rest)
    (hend : after (inQuotes false dollarQuotes) last.toList = Reader.start dollarQuotes) :
    Leads shellEscape other (Reader.start dollarQuotes)
      (.fixed first :: BrowserTool.snapshotQuery params ++ [.fixed last])
      (Reader.start dollarQuotes) (∀ selector ∈ params.selector, Neutral false false selector) := by
  have hquery : Leads shellEscape other (Reader.start dollarQuotes)
      (.fixed first :: ([.fixed "format=compact", .fixed "&", .fixed "filter=interactive"] ++
        if params.diff = some true then [.fixed "&", .fixed "diff=true"] else []))
      (inQuotes false dollarQuotes) True := by
    refine Leads.after (s := [_]) _ (.fixed hfirst) (Leads.after _ (Leads.after (s := [_]) _
      (leads_inQuotes rfl) (.after (s := [_]) _ (leads_inQuotes rfl) (leads_inQuotes rfl))) ?_)
    split_ifs
    · exact Leads.after (s := [_]) _ (leads_inQuotes rfl) (leads_inQuotes rfl)
    · exact .nil
  rw [snapshotQuery_eq]
  cases hparam : params.selector with
  | none =>
    rw [append_nil]
    exact (hquery.andThen (.fixed hend)).congr (by simp)
  | some selector =>
    have hsplit : ∀ query : Template,
        .fixed first :: (query ++ [.fixed "&", .fixed "selector=", .argument selector]) ++
          [.fixed last] = .fixed first :: query ++ ([.fixed "&"] ++ ([.fixed "selector="] ++
            [.argument selector, .fixed last])) := fun query => by simp
    rw [hsplit]
    exact (hquery.after _ ((leads_inQuotes rfl).after _ ((leads_inQuotes rfl).after _
      (leads_closing (hselector selector) hlast (by decide) hend)))).congr (by simp)

set_option maxRecDepth 8000 in
/-- `snapshot`, with its selector. -/
theorem leads_snapshotScript (hother : ∀ value, IsPlain (other value)) : Leads shellEscape other
    (Reader.start dollarQuotes) (tool.buildSnapshotScript owner params) (Reader.start dollarQuotes)
    ((Neutral true false owner ∧ NeutralTab params.tab_id) ∧
      ∀ selector ∈ params.selector, Neutral false false selector) := by
  unfold BrowserTool.buildSnapshotScript
  rw [append_assoc]
  refine (leads_opening hother).append _ (leads_snapshotQuery hother
    (after_toList String.toList_ofList ?_) String.toList_ofList
    (after_toList String.toList_ofList ?_))
  · cases dollarQuotes <;> decide
  · cases dollarQuotes <;> decide

set_option maxRecDepth 8000 in
/-- `act`, up to its body. -/
theorem leads_actScript {script : Template} (hother : ∀ value, IsPlain (other value))
    (h : tool.buildActScript owner params = .ok script) : Leads shellEscape other
    (Reader.start dollarQuotes) script (Reader.start dollarQuotes)
    (Neutral true false owner ∧ NeutralTab params.tab_id) := by
  unfold BrowserTool.buildActScript at h
  cases hkind : params.kind with
  | none =>
    rw [hkind] at h
    exact nomatch h
  | some kind =>
    rw [hkind] at h
    cases h
    refine ((leads_opening hother).andThen (.after (s := [_]) (Reader.start dollarQuotes)
      (.fixed (after_toList (toList_between String.toList_ofList _ _) ?_))
      (.after (s := [_]) (inApostrophes dollarQuotes) (leads_literal ?_)
        (leads_actionBody params kind)))).andThen
      (.fixed (after_toList (toList_between String.toList_ofList _ _) ?_))
    · cases dollarQuotes <;> decide
    · cases dollarQuotes <;> decide
    · cases dollarQuotes <;> decide

set_option maxRecDepth 8000 in
/-- `text`. -/
theorem leads_textScript (hother : ∀ value, IsPlain (other value)) : Leads shellEscape other
    (Reader.start dollarQuotes) (tool.buildTextScript owner params) (Reader.start dollarQuotes)
    (Neutral true false owner ∧ NeutralTab params.tab_id) :=
  (leads_opening hother).andThen (leads_literal (by decide))

set_option maxRecDepth 8000 in
/-- `screenshot`. -/
theorem leads_screenshotScript (hother : ∀ value, IsPlain (other value)) : Leads shellEscape other
    (Reader.start dollarQuotes) (tool.buildScreenshotScript owner params)
    (Reader.start dollarQuotes) (Neutral true false owner ∧ NeutralTab params.tab_id) :=
  (leads_opening hother).andThen (leads_literal (by decide))

/-- `tabs`, without arguments. -/
theorem leads_tabsScript : Leads shellEscape other (Reader.start dollarQuotes)
    tool.buildTabsScript (Reader.start dollarQuotes) True :=
  (leads_scriptBase tool).andThen (leads_literal (by decide))

/-- `health`, without arguments. -/
theorem leads_healthScript : Leads shellEscape other (Reader.start dollarQuotes)
    tool.buildHealthScript (Reader.start dollarQuotes) True :=
  (leads_scriptBase tool).andThen (leads_literal (by decide))

end

/-- The session and the tab of a script, and the selector of a snapshot, are left alone. -/
def ArgumentsNeutral (owner : String) (params : BrowserParams) : Prop :=
  params.action ∉ ["tabs", "health"] →
    (Neutral true false owner ∧ NeutralTab params.tab_id) ∧
      (params.action = "snapshot" → ∀ selector ∈ params.selector, Neutral false false selector)

/-- A script treats its arguments as data exactly where the shell leaves those alone that stand in
double quotes or outside of quotes. -/
theorem reads_as_data_iff (dollarQuotes : Bool) (tool : BrowserTool) {owner : String}
    {params : BrowserParams} {script : Template}
    (h : tool.buildScript owner params = .ok script) :
    ReadsAsData shellEscape dollarQuotes script ↔ ArgumentsNeutral owner params := by
  unfold BrowserTool.buildScript at h
  unfold ArgumentsNeutral
  split at h
  · refine readsAsData_iff fun other hother => (leads_navigateScript hother h).congr ?_
    simp [*]
  · cases h
    refine readsAsData_iff fun other hother => (leads_snapshotScript hother).congr ?_
    simp [*]
  · refine readsAsData_iff fun other hother => (leads_actScript hother h).congr ?_
    simp [*]
  · cases h
    refine readsAsData_iff fun other hother => (leads_textScript hother).congr ?_
    simp [*]
  · cases h
    refine readsAsData_iff fun other hother => (leads_screenshotScript hother).congr ?_
    simp [*]
  · cases h
    refine readsAsData_iff fun other hother => leads_tabsScript.congr ?_
    simp [*]
  · cases h
    refine readsAsData_iff fun other hother => leads_healthScript.congr ?_
    simp [*]
  · exact nomatch h

/-- A page whose address would end a command outside of apostrophes, in a tab with apostrophes. -/
def quotedPage : BrowserParams where
  action := "navigate"
  url := some "'; $(reboot) `id`"
  tab_id := some "tab'1'"

/-- Both are data. -/
theorem quotedPage_is_data : ∃ script,
    (BrowserTool.atPort 9867).buildScript "session-1" quotedPage = .ok script ∧
      ReadsAsData shellEscape false script := by
  obtain ⟨script, hscript⟩ : ∃ script,
      (BrowserTool.atPort 9867).buildScript "session-1" quotedPage = .ok script := ⟨_, rfl⟩
  refine ⟨script, hscript, (reads_as_data_iff false _ hscript).mpr fun _ => ?_⟩
  refine ⟨⟨⟨_, rfl, rfl⟩, ?_⟩, ?_⟩
  · rintro tab ⟨⟩
    exact ⟨⟨_, rfl, rfl⟩, ⟨_, rfl, rfl⟩⟩
  · exact fun h => absurd h (by decide)

/-- A tab that is asked for by a text with a command in it: the shell runs the command. -/
theorem tab_runs_command : ∃ script, (BrowserTool.atPort 9867).buildScript "session-1"
      { action := "text", tab_id := some "$(rm -rf /shared)" } = .ok script ∧
    ¬ReadsAsData shellEscape false script ∧ ¬ReadsAsData shellEscape true script := by
  have hblocked : ¬NeutralTab (some "$(rm -rf /shared)") := by
    intro h
    obtain ⟨⟨q, hq, -⟩, -⟩ := h _ rfl
    exact nomatch hq
  have hnot : ∀ dollarQuotes, ¬ReadsAsData shellEscape dollarQuotes
      ((BrowserTool.atPort 9867).buildTextScript "session-1"
        { action := "text", tab_id := some "$(rm -rf /shared)" }) := fun _ h =>
    hblocked ((readsAsData_iff fun _ hother => leads_textScript hother).mp h).2
  exact ⟨_, rfl, hnot false, hnot true⟩

end Oxydra
