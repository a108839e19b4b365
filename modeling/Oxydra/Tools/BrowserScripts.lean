import Oxydra.Library.ShellLaws
import Oxydra.Library.ShellTemplate
import Oxydra.Types.Model

/-!
# The scripts of the browser tool

`BrowserTool` (`crates/tools/src/browser.rs`) turns each call into one script for a shell, which
takes a tab of the browser, locks it, sends the action by `curl` and prints what came of it. The
scripts are templates here, so that the arguments of the model stay apart from the text of the tool
until the script is written; `shell_escape` writes every argument.
-/

namespace Oxydra

open Shell

/-- `BROWSER_TOOL_NAME`. -/
def browserToolName : String := "browser"

/-- `LOCK_TIMEOUT_SECS`. -/
def lockTimeoutSecs : ℕ := 120

/-- `MAX_TABS`. -/
def maxTabs : ℕ := 20

/-- `NAVIGATE_WAIT_SECS`. -/
def navigateWaitSecs : ℕ := 3

/-- `ACTION_WAIT_SECS`. -/
def actionWaitSecs : ℕ := 1

structure BrowserParams where
  action : String
  url : Option String := none
  tab_id : Option String := none
  element_ref : Option String := none
  kind : Option String := none
  text : Option String := none
  key : Option String := none
  value : Option String := none
  selector : Option String := none
  diff : Option Bool := none
  wait_nav : Option Bool := none
  deriving DecidableEq, Repr

/-- `BrowserTool`. The address of the browser's bridge is set up by the runner and not by the model;
nothing in it is special in double quotes. -/
structure BrowserTool where
  pinchtab_url : String
  inert : pinchtab_url.toList.all (fun c =>
    Kind.of c ∉ [.quote, .backslash, .dollar, .backquote]) = true

/-- The address that the runner sets up for a port (`build_browser_env`). -/
def BrowserTool.atPort (port : ℕ) : BrowserTool where
  pinchtab_url := "http://127.0.0.1:" ++ toString port
  inert := by
    have hdigit : ∀ c ∈ (toString port).toList, Kind.of c = .digit := fun c hc => by
      rw [Nat.toString_eq_ofList_toDigits, String.toList_ofList] at hc
      exact Kind.of_digit (Nat.isDigit_of_mem_toDigits (by decide) (by decide) hc)
    rw [String.toList_append, List.all_append, Bool.and_eq_true]
    refine ⟨by decide, List.all_eq_true.mpr fun c hc => ?_⟩
    rw [hdigit c hc]
    rfl

/-- One character of `shell_escape`. -/
def escapeChar : Char → List Char
  | '"' => ['\\', '"']
  | '\\' => ['\\', '\\']
  | '\n' => ['\\', 'n']
  | '\r' => ['\\', 'r']
  | '\t' => ['\\', 't']
  | '\'' => ['\'', '"', '\'', '"', '\'']
  | c => [c]

/-- `shell_escape`. -/
def shellEscape (input : String) : List Char := input.toList.flatMap escapeChar

example : shellEscape "he\"llo" = "he\\\"llo".toList := by decide

namespace BrowserTool

variable (tool : BrowserTool) (owner : String) (params : BrowserParams)

/-! ## The parts of a script -/

/-- The start of every script: the address and the authorization. -/
def scriptBase : Template :=
  [.fixed "#!/bin/sh
set -e
BASE=\"",
    .fixed tool.pinchtab_url,
    .fixed "\"
AUTH=\"Authorization: Bearer $BRIDGE_TOKEN\"
"]

/-- `script_header`. -/
def scriptHeader : Template :=
  tool.scriptBase ++ [.fixed "OWNER=\"", .argument owner, .fixed "\"\n"]

/-- `tab_acquisition_and_cleanup` of a tab that is asked for. -/
def requestedTab (tab_id : String) : Template :=
  [.fixed "\nTAB=\"",
    .argument tab_id,
    .fixed "\"
curl -sf -X POST \"$BASE/tab/lock\" \\
  -H \"$AUTH\" -H 'Content-Type: application/json' \\
  -d '\x7b\"tabId\":\"'",
    .argument tab_id,
    .fixed ("'\",\"owner\":\"'\"$OWNER\"'\",\"timeoutSec\":" ++
      toString lockTimeoutSecs ++
      "\x7d' \\
  > /dev/null 2>&1 || true

unlock() \x7b
  curl -sf -X POST \"$BASE/tab/unlock\" \\
    -H \"$AUTH\" -H 'Content-Type: application/json' \\
    -d '\x7b\"tabId\":\"'\"$TAB\"'\",\"owner\":\"'\"$OWNER\"'\"\x7d' \\
    > /dev/null 2>&1 || true
\x7d
trap unlock EXIT
")]

/-- `tab_acquisition_and_cleanup` without a tab: one that is not locked, or a new one. -/
def acquiredTab : String :=
  "
TABS_JSON=$(curl -sf \"$BASE/tabs\" -H \"$AUTH\")
TAB=$(printf '%s' \"$TABS_JSON\" | jq -r '.tabs[] | select(.owner == null) | .id' | head -1)

if [ -z \"$TAB\" ]; then
  TOTAL=$(printf '%s' \"$TABS_JSON\" | jq '.tabs | length')
  if [ \"$TOTAL\" -lt " ++
  toString maxTabs ++
  " ]; then
    TAB=$(curl -sf -X POST \"$BASE/tab\" \\
      -H \"$AUTH\" -H 'Content-Type: application/json' \\
      -d '\x7b\"action\":\"new\"\x7d' | jq -r '.tabId')
  else
    echo '\x7b\"error\":\"all " ++
  toString maxTabs ++
  " tabs are locked, retry later\"\x7d'
    exit 0
  fi
fi

LOCK_RESULT=$(curl -sf -o /dev/null -w '%\x7bhttp_code\x7d' -X POST \"$BASE/tab/lock\" \\
  -H \"$AUTH\" -H 'Content-Type: application/json' \\
  -d '\x7b\"tabId\":\"'\"$TAB\"'\",\"owner\":\"'\"$OWNER\"'\",\"timeoutSec\":" ++
  toString lockTimeoutSecs ++
  "\x7d' \\
  2>/dev/null) || true

if [ \"$LOCK_RESULT\" != \"200\" ]; then
  TOTAL=$(printf '%s' \"$TABS_JSON\" | jq '.tabs | length')
  if [ \"$TOTAL\" -lt " ++
  toString maxTabs ++
  " ]; then
    TAB=$(curl -sf -X POST \"$BASE/tab\" \\
      -H \"$AUTH\" -H 'Content-Type: application/json' \\
      -d '\x7b\"action\":\"new\"\x7d' | jq -r '.tabId')
    curl -sf -X POST \"$BASE/tab/lock\" \\
      -H \"$AUTH\" -H 'Content-Type: application/json' \\
      -d '\x7b\"tabId\":\"'\"$TAB\"'\",\"owner\":\"'\"$OWNER\"'\",\"timeoutSec\":" ++
  toString lockTimeoutSecs ++
  "\x7d' \\
      > /dev/null 2>&1 || true
  fi
fi

unlock() \x7b
  curl -sf -X POST \"$BASE/tab/unlock\" \\
    -H \"$AUTH\" -H 'Content-Type: application/json' \\
    -d '\x7b\"tabId\":\"'\"$TAB\"'\",\"owner\":\"'\"$OWNER\"'\"\x7d' \\
    > /dev/null 2>&1 || true
\x7d
trap unlock EXIT
"

/-- `tab_acquisition_and_cleanup`. -/
def tabAcquisitionAndCleanup : Option String → Template
  | some tab_id => requestedTab tab_id
  | none => [.fixed acquiredTab]

/-- A field of a JSON object in a script. -/
def jsonField (name value : String) : Template :=
  [.fixed ("\"" ++ name ++ "\":\""), .argument value, .fixed "\""]

/-- The parts of `build_action_body`. -/
def actionParts (kind : String) : List Template :=
  [jsonField "kind" kind, [.fixed "\"tabId\":\"'\"$TAB\"'\""]] ++
    (params.element_ref.map (jsonField "ref")).toList ++
    match kind with
    | "click" => if params.wait_nav = some true then [[.fixed "\"waitNav\":true"]] else []
    | "type" => (params.text.map (jsonField "text")).toList
    | "press" => (params.key.map (jsonField "key")).toList
    | "fill" =>
      (params.text.map (jsonField "text")).toList ++
        (params.selector.map (jsonField "selector")).toList
    | "select" => (params.value.map (jsonField "value")).toList
    | _ => []

/-- `parts.join`. -/
def joinTemplates (separator : String) (parts : List Template) : Template :=
  (parts.intersperse [.fixed separator]).flatten

/-- `build_action_body`. -/
def buildActionBody (kind : String) : Template :=
  .fixed "\x7b" :: joinTemplates "," (actionParts params kind) ++ [.fixed "\x7d"]

/-- The query of a snapshot. -/
def snapshotQuery : Template :=
  joinTemplates "&" <|
    [[.fixed "format=compact"], [.fixed "filter=interactive"]] ++
      (if params.diff = some true then [[.fixed "diff=true"]] else []) ++
      (params.selector.map fun sel => [.fixed "selector=", .argument sel]).toList

/-! ## The scripts -/

/-- `build_navigate_script`. -/
def buildNavigateScript : Except ToolError Template :=
  match params.url with
  | none => .error (.invalidArguments browserToolName "navigate action requires a `url` parameter")
  | some url =>
    .ok (tool.scriptHeader owner ++ tabAcquisitionAndCleanup params.tab_id ++
      [.fixed "
curl -sf -X POST \"$BASE/navigate\" \\
  -H \"$AUTH\" -H 'Content-Type: application/json' \\
  -d '\x7b\"url\":\"",
        .argument url,
        .fixed ("\",\"tabId\":\"'\"$TAB\"'\"\x7d'

sleep " ++
          toString navigateWaitSecs ++
          "

echo \"---SNAPSHOT---\"
curl -sf \"$BASE/snapshot?tabId=$TAB&format=compact&filter=interactive&maxTokens=2000\" \\
  -H \"$AUTH\"
echo \"\"
echo \"---TAB_ID---\"
echo \"$TAB\"
")])

/-- `build_snapshot_script`. -/
def buildSnapshotScript : Template :=
  tool.scriptHeader owner ++ tabAcquisitionAndCleanup params.tab_id ++
    .fixed "
echo \"---SNAPSHOT---\"
curl -sf \"$BASE/snapshot?tabId=$TAB&" ::
    snapshotQuery params ++
    [.fixed "\" \\
  -H \"$AUTH\"
echo \"\"
echo \"---TAB_ID---\"
echo \"$TAB\"
"]

/-- `build_act_script`. -/
def buildActScript : Except ToolError Template :=
  match params.kind with
  | none => .error (.invalidArguments browserToolName "act action requires a `kind` parameter")
  | some kind =>
    .ok (tool.scriptHeader owner ++ tabAcquisitionAndCleanup params.tab_id ++
      -- the lock is renewed before the action
      .fixed ("
curl -sf -X POST \"$BASE/tab/lock\" \\
  -H \"$AUTH\" -H 'Content-Type: application/json' \\
  -d '\x7b\"tabId\":\"'\"$TAB\"'\",\"owner\":\"'\"$OWNER\"'\",\"timeoutSec\":" ++
        toString lockTimeoutSecs ++
        "\x7d' \\
  > /dev/null 2>&1 || true
") ::
      .fixed "
curl -sf -X POST \"$BASE/action\" \\
  -H \"$AUTH\" -H 'Content-Type: application/json' \\
  -d '" ::
      buildActionBody params kind ++
      [.fixed ("'

sleep " ++
        toString actionWaitSecs ++
        "

echo \"---SNAPSHOT---\"
curl -sf \"$BASE/snapshot?tabId=$TAB&format=compact&filter=interactive&diff=true\" \\
  -H \"$AUTH\"
echo \"\"
echo \"---TAB_ID---\"
echo \"$TAB\"
")])

/-- `build_text_script`. -/
def buildTextScript : Template :=
  tool.scriptHeader owner ++ tabAcquisitionAndCleanup params.tab_id ++
    [.fixed "
curl -sf \"$BASE/text?tabId=$TAB\" \\
  -H \"$AUTH\"
echo \"\"
echo \"---TAB_ID---\"
echo \"$TAB\"
"]

/-- `build_screenshot_script`. -/
def buildScreenshotScript : Template :=
  tool.scriptHeader owner ++ tabAcquisitionAndCleanup params.tab_id ++
    [.fixed "
curl -sf \"$BASE/screenshot?tabId=$TAB&raw=true\" \\
  -H \"$AUTH\" -o /shared/screenshot.png
echo '\x7b\"saved\":\"/shared/screenshot.png\"\x7d'
echo \"\"
echo \"---TAB_ID---\"
echo \"$TAB\"
"]

/-- `build_tabs_script`. -/
def buildTabsScript : Template :=
  tool.scriptBase ++ [.fixed "
curl -sf \"$BASE/tabs\" -H \"$AUTH\"
"]

/-- `build_health_script`. -/
def buildHealthScript : Template :=
  tool.scriptBase ++ [.fixed "
curl -sf \"$BASE/health\" -H \"$AUTH\"
"]

/-- The script of `execute`. The owner is the session of the call, or a fresh UUID. -/
def buildScript : Except ToolError Template :=
  match params.action with
  | "navigate" => tool.buildNavigateScript owner params
  | "snapshot" => .ok (tool.buildSnapshotScript owner params)
  | "act" => tool.buildActScript owner params
  | "text" => .ok (tool.buildTextScript owner params)
  | "screenshot" => .ok (tool.buildScreenshotScript owner params)
  | "tabs" => .ok tool.buildTabsScript
  | "health" => .ok tool.buildHealthScript
  | other =>
    .error (.invalidArguments browserToolName ("unknown action `" ++ other ++ "`; expected " ++
      "one of: navigate, snapshot, act, text, screenshot, tabs, health"))

end BrowserTool

end Oxydra
