import Mathlib.Algebra.Order.Field.Rat
import Mathlib.Data.List.Infix
import OpenObs.Agent.ActionRunner

/-!
# The prompt of a message

`orchestrator-alert-helpers.ts` and `orchestrator-prompt.ts`: the rule a conversation is about, the
follow-up that needs no model, and the system prompt with its static and its dynamic sections.
-/

namespace OpenObs.Agent

open OpenObs.Foundation OpenObs.Resources OpenObs.Rules
open OpenObs.Rbac (Identity OrgRole trim)

/-! ## The conversation -/

inductive ChatAction : Type where
  | createAlertRule (ruleId name severity query operator : String) (threshold : Json)
  | modifyAlertRule (ruleId : String) (patch : Json.Record)
  | deleteAlertRule (ruleId : String) (name : Option String)
  | other

def ChatAction.ruleId : ChatAction → Option String
  | .createAlertRule ruleId _ _ _ _ _ => some ruleId
  | .modifyAlertRule ruleId _ => some ruleId
  | .deleteAlertRule ruleId _ => some ruleId
  | .other => none

structure DashboardMessage where
  isUser : Bool
  content : String
  actions : List ChatAction := []

/-- `messages.slice(-10)`. -/
def lastTen (history : List DashboardMessage) : List DashboardMessage :=
  history.drop (history.length - 10)

/-! ## The alert rule a conversation is about -/

def ruleById (alertRules : List AlertRule) (id : String) : Option AlertRule :=
  alertRules.reverse.find? (·.id = id)

def getStructuredAlertRuleContext (history : List DashboardMessage)
    (alertRules : List AlertRule) : Option AlertRule :=
  (history.reverse.flatMap fun m => m.actions.reverse).findSome? fun action =>
    action.ruleId.bind (ruleById alertRules)

def alertActionLine (platform : Platform) : ChatAction → Option String
  | .createAlertRule ruleId name severity query operator threshold =>
    some ("- Assistant created alert [" ++ ruleId ++ "] \"" ++ name ++ "\" (" ++ severity ++
      ") - " ++ query ++ " " ++ operator ++ " " ++ stringOf threshold)
  | .modifyAlertRule ruleId patch =>
    some ("- Assistant modified alert [" ++ ruleId ++ "] with patch " ++
      platform.stringify (.obj patch))
  | .deleteAlertRule ruleId name =>
    some ("- Assistant deleted alert [" ++ ruleId ++ "]" ++
      (((Folders.truthy name).map fun n => " \"" ++ n ++ "\"").getD ""))
  | .other => none

def buildStructuredAlertHistory (platform : Platform) (history : List DashboardMessage) : String :=
  "\n".intercalate ((lastTen history).flatMap fun m => m.actions.filterMap (alertActionLine platform))

/-! ## Follow-ups -/

/-- `\w`. -/
def isWordChar (c : Char) : Bool := c.isAlphanum || c == '_'

/-- `\b` between two characters, or at an end of the text. -/
def isBoundary (before after : Option Char) : Bool := before.any isWordChar != after.any isWordChar

/-- `/(^|\b)(…)\b/`, with the character before the text. -/
def hasWord (words : List (List Char)) : Option Char → List Char → Bool
  | before, cs =>
    ((before.isNone || isBoundary before cs.head?) && words.any fun w =>
      w.isPrefixOf cs && isBoundary w.getLast? (cs.drop w.length).head?) ||
    match cs with
    | [] => false
    | c :: rest => hasWord words (some c) rest

def mentions (texts : List String) (lower : List Char) : Bool :=
  texts.any fun t => decide (t.toList <:+: lower)

def thresholdUnits : List String :=
  ["ms", "s", "sec", "secs", "seconds", "m", "min", "mins", "minutes"]

/-- `\d+(?:\.\d+)?` at the head of the text: the digits before and behind the point, and the
rest. -/
def decimalAt (cs : List Char) : Option (List Char × List Char × List Char) :=
  let whole := cs.takeWhile Char.isDigit
  let rest := cs.dropWhile Char.isDigit
  if whole = [] then none
  else
    match rest with
    | '.' :: behind =>
      if behind.takeWhile Char.isDigit = [] then some (whole, [], rest)
      else some (whole, behind.takeWhile Char.isDigit, behind.dropWhile Char.isDigit)
    | _ => some (whole, [], rest)

def digitsValue (ds : List Char) : ℕ := ds.foldl (fun n d => 10 * n + (d.toNat - '0'.toNat)) 0

def thresholdMatch (lower : List Char) : Option (ℚ × Option String) :=
  (Scan.exec decimalAt lower).map fun m =>
    (digitsValue m.1 + (digitsValue m.2.1 : ℚ) / 10 ^ m.2.1.length,
      thresholdUnits.find? fun unit => unit.toList.isPrefixOf (m.2.2.dropWhile Scan.isSpace))

def isFinite (q : ℚ) : Bool := q < 2 ^ 1024 - 2 ^ 970

inductive FollowUpStep : Type where
  | delete (ruleId : String)
  | update (ruleId : String) (threshold : ℚ) (operator : Option String)

def thresholdOperators : List (List String × String) :=
  [(["less than", "below", "under"], "<"), (["at most", "no more than"], "<="),
    (["at least", "not less than"], ">="),
    (["more than", "greater than", "over", "above", "exceed"], ">")]

def normalizedThreshold (value : ℚ) : Option String → ℚ
  | some unit =>
    if unit ∈ ["s", "sec", "secs", "seconds"] then value * 1000
    else if unit ∈ ["m", "min", "mins", "minutes"] then value * 60 * 1000
    else value
  | none => value

def parseAlertFollowUpAction (message : String) (activeAlertRule : Option AlertRule) :
    Option FollowUpStep :=
  match activeAlertRule with
  | none => none
  | some rule =>
    let trimmed := trim message
    let lower := trimmed.toList.map Char.toLower
    if trimmed = "" then none
    else if hasWord (["delete", "remove", "drop", "get rid of"].map String.toList) none
        trimmed.toList then some (.delete rule.id)
    else
      match thresholdMatch lower with
      | none => none                        -- whatever else the text asks for
      | some (value, unit) =>
        if isFinite value = false then none
        else
          let operator := (thresholdOperators.filter fun o => mentions o.1 lower).getLast?
          some (.update rule.id (normalizedThreshold value unit) (operator.map (·.2)))

/-! ## Sections -/

/-- What `buildSystemPrompt` is given of a connector. -/
structure PromptConnector where
  id : String
  name : String
  type : String
  environment : Option String := none
  isDefault : Bool := false

structure PromptOpsConnector where
  id : String
  name : String
  environment : Option String := none
  namespaces : Option (List String) := none
  capabilities : Option (List String) := none

structure PromptTexts where
  intro : String
  system : String
  doingTasks : String
  actions : String
  examples : String
  queryKnowledge : String
  tone : String

def SYSTEM_PROMPT_DYNAMIC_BOUNDARY : String := "__OPENOBS_SYSTEM_PROMPT_DYNAMIC_BOUNDARY__"

def labelled (label : String) (v : Option String) : String :=
  ((Folders.truthy v).map fun s => label ++ s).getD ""

def panelSummary (p : Json) : String :=
  let queries := "; ".intercalate (elementStrings
    ((arrayOr (member p "queries")).map fun q => (member q "expr").getD .null))
  "- [" ++ template (member p "id") ++ "] " ++ template (member p "title") ++ " (" ++
    template (member p "visualization") ++ ")" ++
    (if queries = "" then "" else " — " ++ sliceText 100 queries)

def variableSummary (v : Json) : String :=
  "- $" ++ template (member v "name") ++ ": " ++
    stringOf (orDefault (member v "query") (match member v "options" with
      | some (.arr options) => .str (", ".intercalate (elementStrings options))
      | _ => .str "join"))

def getDashboardContextSection (dashboard : Dashboard) (timeRange : Option (String × String)) :
    String :=
  "# Current Dashboard Context\nTitle: " ++ dashboard.title ++
    ((timeRange.map fun r => "\nTime Range (UTC, used in tool calls): " ++ r.1 ++ " to " ++
      r.2).getD "") ++
    "\nThis dashboard is the active target for dashboard.* tool calls — do not pass a dashboardId parameter.\n\n## Panels (" ++
    toString dashboard.panels.length ++ " total)\n" ++
    (if dashboard.panels = [] then "(no panels yet)"
      else "\n".intercalate (dashboard.panels.map panelSummary)) ++
    "\n\n## Variables\n" ++
    (if dashboard.variables = [] then "(none)"
      else "\n".intercalate (dashboard.variables.map variableSummary))

def getSessionModeSection : String :=
  "# Session Mode\nNot scoped to a dashboard. Call dashboard_create to start one — it becomes the active target for subsequent dashboard.* tools automatically."

def getHistorySection (history : List DashboardMessage) : String :=
  if history.isEmpty then ""
  else "\n# Recent Conversation\n" ++ "\n".intercalate ((lastTen history).map fun m =>
    "- " ++ (if m.isUser then "User" else "Assistant") ++ ": " ++ m.content)

def getConnectorSection (allConnectors : List PromptConnector) : String :=
  if allConnectors.isEmpty then ""
  else "\n# Connectors\n" ++ "\n".intercalate (allConnectors.map fun d =>
    "- sourceId=\"" ++ d.id ++ "\" name=\"" ++ d.name ++ "\" type=" ++ d.type ++
      labelled " env=" d.environment ++ (if d.isDefault then " DEFAULT" else ""))

def getOpsConnectorSection (connectors : List PromptOpsConnector) : String :=
  if connectors.isEmpty then "\n# Ops Integrations\nnot connected"
  else "\n# Ops Integrations\n" ++ "\n".intercalate (connectors.map fun c =>
    "- connectorId=\"" ++ c.id ++ "\" name=\"" ++ c.name ++ "\"" ++
      labelled " env=" c.environment ++
      listed " namespaces=" c.namespaces ++ listed " capabilities=" c.capabilities)
where
  listed (label : String) (xs : Option (List String)) : String :=
    if xs.getD [] = [] then "" else label ++ ",".intercalate (xs.getD [])

def getAlertRulesSection (platform : Platform) (alertRules : List AlertRule)
    (activeAlertRule : Option AlertRule) (history : List DashboardMessage) : String :=
  let structuredAlertHistory := buildStructuredAlertHistory platform history
  "\n".intercalate
    ((if alertRules.isEmpty then []
      else ["\n# Alert Rules\n" ++ "\n".intercalate (alertRules.map ruleLine)]) ++
    (if structuredAlertHistory = "" then []
      else ["\n# Alert History\n" ++ structuredAlertHistory]) ++
    (match activeAlertRule with
      | none => []
      | some r => ["\n# Active Alert\n[" ++ r.id ++ "] \"" ++ r.name ++ "\" (" ++ r.severity ++
          "). If user says \"it\"/\"this alert\"/\"change it\", means this one."]))

def getRoleHint : OrgRole → String
  | .viewer => "You are operating as a Viewer. Your tools are scoped to read-only operations; the RBAC gate rejects any mutation request. When a user asks for a change, relay the access restriction plainly instead of trying a blocked tool."
  | .editor => "You are operating as an Editor. You have read-write access within your workspace. Admin-only actions (instance config, user/role management) are outside your scope — the gate will reject them, so don't treat those rejections as something to solve."
  | _ => ""

def getIdentitySection (identity : Identity) (escalationContact : Option String) (now : String) :
    String :=
  let contact := trim (escalationContact.getD "")
  "\n\n".intercalate
    (["# Identity",
      "You are acting on behalf of " ++ identity.userId ++ ", org role " ++
        identity.orgRole.text ++ " in " ++ identity.orgId ++ ". The current date is " ++ now ++ ".",
      "When a tool observation starts with \"permission denied:\", surface what you have already learned, state the denial plainly, and propose a next step. Do not retry denied calls. Do not fabricate results."] ++
    (if contact = "" then [] else ["Permission escalation contact: " ++ contact ++ "."]) ++
    (if getRoleHint identity.orgRole = "" then [] else [getRoleHint identity.orgRole]))

/-! ## The prompt -/

structure PromptDeps where
  texts : PromptTexts
  identity : Identity
  permissionEscalationContact : Option String := none
  timeRange : Option (String × String) := none
  promptConnectors : List PromptConnector := []
  promptOpsConnectors : List PromptOpsConnector := []

def buildSystemPrompt (deps : PromptDeps) (platform : Platform) (now : String)
    (dashboard : Option Dashboard) (history : List DashboardMessage) (alertRules : List AlertRule)
    (activeAlertRule : Option AlertRule) : String :=
  let texts := deps.texts
  "\n\n".intercalate
    ([texts.intro,
      getIdentitySection deps.identity deps.permissionEscalationContact now,
      texts.system, texts.doingTasks, texts.actions, texts.examples, texts.queryKnowledge,
      texts.tone,
      SYSTEM_PROMPT_DYNAMIC_BOUNDARY,
      (dashboard.map (getDashboardContextSection · deps.timeRange)).getD getSessionModeSection,
      getHistorySection history,
      getConnectorSection deps.promptConnectors,
      getOpsConnectorSection deps.promptOpsConnectors,
      getAlertRulesSection platform alertRules activeAlertRule history].filter (· ≠ ""))

end OpenObs.Agent

/-!
# The orchestrator

`handleMessage` of `orchestrator-agent.ts` up to the loop, and what a session is made of: messages,
the calls of dashboard tools that the loop makes, and all that happens to the rows besides.
-/

namespace OpenObs.Agent

open OpenObs.Foundation OpenObs.Resources OpenObs.Rules OpenObs.Dashboards
open OpenObs.Rbac (Evaluator)

/-! ## Deps -/

structure OrchestratorDeps (κ δ : Type) extends PromptDeps where
  tools : ToolContext κ δ
  agentDef : AgentDefinition
  evaluate : Tables → Evaluator → Bool

/-- `buildActionContext`: the tools act for the identity. -/
def OrchestratorDeps.context {κ δ : Type} (deps : OrchestratorDeps κ δ) : ToolContext κ δ :=
  { deps.tools with
    caller :=
      { orgId := deps.identity.orgId
        userId := some deps.identity.userId
        allows := deps.evaluate } }

/-! ## A message -/

/-- `conversationStore`: the messages of a session. -/
abbrev ConversationStore : Type := String → List DashboardMessage

structure MessageInput where
  message : String
  dashboardId : Option String := none
  now : String

inductive Turn : Type where
  | followUp (step : FollowUpStep)
  | loop (systemPrompt : String)

structure Opening where
  history : List DashboardMessage
  turn : Turn

variable {κ δ : Type} (deps : OrchestratorDeps κ δ)

def resolveDashboard (dashboardId : Option String) : Prog Session (Option Dashboard) :=
  match Folders.truthy dashboardId with
  | none => return none
  | some id => do
      -- by its id alone, whichever org it is of
      match ← (DashboardRepository.findById id).zoom Session.db with
      | none => throw ("Dashboard " ++ id ++ " not found")
      | some dashboard => do
          Prog.write fun s => { s with activeDashboardId := some dashboard.id }
          return some dashboard

def openTurn (m : MessageInput) (dashboard : Option Dashboard) (history : List DashboardMessage)
    (alertRules : List AlertRule) : Turn :=
  let activeAlertRule := getStructuredAlertRuleContext history alertRules
  match parseAlertFollowUpAction m.message activeAlertRule with
  | some step => .followUp step
  | none =>
    .loop (buildSystemPrompt deps.toPromptDeps deps.tools.platform m.now dashboard history
      alertRules activeAlertRule)

/-- `handleMessage` up to the loop. -/
def handleMessage (conversation : ConversationStore) (m : MessageInput) :
    Prog Session Opening := do
  let dashboard ← resolveDashboard m.dashboardId
  let history := conversation deps.tools.sessionId
  let alertRules ← (Prog.read newestRules).zoom Session.db
  return ⟨history, openTurn deps m dashboard history alertRules⟩

/-! ## Sessions -/

/-- The tools with `dashboard_` in their name. -/
def dashboardTools : List AgentTool :=
  [.dashboardCreate, .dashboardList, .dashboardClone, .dashboardAddPanels, .dashboardRemovePanels,
    .dashboardModifyPanel, .dashboardSetTitle, .dashboardAddVariable, .dashboardRearrange]

structure DashboardToolCall where
  call : ToolCall
  tool : AgentTool.ofName call.action ∈ dashboardTools

/-- A step of a session; `elsewhere` is what other tools, other sessions and other users do. -/
inductive AgentStep (κ δ : Type) : Type where
  | message (conversation : ConversationStore) (m : MessageInput)
  | tool (call : DashboardToolCall)
  | elsewhere (s' : AgentState κ δ)

namespace AgentStep

def code : AgentStep κ δ → Prog (AgentState κ δ) Unit
  | .message conversation m => do
      let _ ← (handleMessage deps conversation m).zoom AgentState.sessionPart
      return ()
  | .tool c => do
      let _ ← execute deps.context deps.agentDef c.call
      return ()
  | .elsewhere s' => Prog.write fun _ => s'

end AgentStep

end OpenObs.Agent
