import OpenObs.Agent.Session

/-!
# The alert-rule tools

`agent/handlers/alert.ts`. `alert_rule_write` has three verbs. A create looks for a rule of that
name in the workspace and updates it where it finds one; an update and a delete find their rule by
its id alone.
-/

namespace OpenObs.Agent

open OpenObs.Foundation OpenObs.Resources OpenObs.Rules OpenObs.Dashboards

/-- `` `${v}` ``. -/
def template : Option Json → String
  | none => "undefined"
  | some v => stringOf v

variable (ctx : ActionContext)

def evalAlertRuleWrite (action ruleId : String) : Prog Session Bool := do
  let folderUid ← (AlertRuleRepository.getFolderUid ctx.caller.orgId ruleId).zoom Session.db
  Prog.read fun s =>
    ctx.caller.allows s.tables (.action action ["folders:uid:" ++ folderUid.getD "*"])

/-! ## Create -/

structure AlertRuleCreateSpec where
  name : String
  description : String
  condition : Json
  evaluationIntervalSec : Json
  severity : String
  labels : Json.Record

def specError (what : String) : String := "alert_rule_write create spec " ++ what

def parseCreateSpec (raw : Option Json) : Except String AlertRuleCreateSpec :=
  match raw with
  | some (.obj fields) =>
    match Json.field fields "condition" with
    | some (.obj condition) =>
      let name := trimmed (Json.field fields "name")
      let description := trimmed (Json.field fields "description")
      let query := trimmed (Json.field condition "query")
      let operator := asText (Json.field condition "operator")
      let threshold := Json.field condition "threshold"
      let forDurationSec := Json.field condition "forDurationSec"
      let evaluationIntervalSec := Json.field fields "evaluationIntervalSec"
      let severity := asText (Json.field fields "severity")
      let labels := Json.field fields "labels"
      let autoInvestigate := Json.field fields "autoInvestigate"
      if name = "" then .error (specError "requires name.")
      else if description = "" then .error (specError "requires description.")
      else if query = "" then .error (specError "requires condition.query.")
      else if operator.getD "" ∉ [">", "<", ">=", "<=", "=="] then
        .error (specError "requires condition.operator.")
      else if threshold.any isNumber = false then
        .error (specError "requires numeric condition.threshold.")
      else if forDurationSec.any isNumber = false then
        .error (specError "requires numeric condition.forDurationSec.")
      else if (match evaluationIntervalSec with
          | some (.num n) => decide (n ≤ 0)
          | _ => true) = true then
        .error (specError "requires positive evaluationIntervalSec.")
      else if severity.getD "" ∉ ["critical", "high", "medium", "low"] then
        .error (specError "requires severity.")
      else if labels.any isPlainObject = false ∧ labels.isSome = true then
        .error (specError "labels must be an object.")
      else if ((labels.map spread).getD []).any (fun l => !isString l.2) = true then
        .error (specError "labels must be string values.")
      else if autoInvestigate.any isBoolean = false ∧ autoInvestigate.isSome = true then
        .error (specError "autoInvestigate must be boolean.")
      else .ok {
        name
        description
        condition := .obj [("query", .str query), ("operator", .str (operator.getD "")),
          ("threshold", threshold.getD .null), ("forDurationSec", forDurationSec.getD .null)]
        evaluationIntervalSec := evaluationIntervalSec.getD .null
        severity := severity.getD ""
        labels := (labels.map spread).getD [] }
    | _ => .error (specError "requires condition.")
  | _ => .error "alert_rule_write with op=\"create\" requires \"spec\"."

def noFolderBackend : String :=
  "Folder backend is required to create alert rules without an explicit folder."

def resolveAlertRuleFolderUid (drawn : Folders.Drawn) (args : Json.Record) : Prog Session String :=
  let requested := trimmed (Json.field args "folderUid")
  if requested ≠ "" then return requested
  else if ctx.hasFolders = false then throw noFolderBackend
  else do
    match ← (Folders.FolderRepository.findByUid ctx.caller.orgId defaultFolderUid).zoom
        Session.db with
    | some existing => return existing.uid
    | none => do
        let created ← (Folders.FolderRepository.create drawn.id drawn.now
          { uid := defaultFolderUid
            orgId := ctx.caller.orgId
            title := "Alerts"
            description := some
              "Default folder for alert rules created without an explicit folder."
            parentUid := none
            createdBy := ctx.caller.userId
            updatedBy := ctx.caller.userId
            source := some .aiGenerated }).zoom Session.db
        return created.uid

def findByWorkspace (workspaceId : String) : Prog Tables (List AlertRule) :=
  Prog.read fun t => (t.alertRules.filter (·.workspaceId = some workspaceId)).map rowToRule

def upsertPatch (spec : AlertRuleCreateSpec) : Json.Record :=
  [("description", .str spec.description), ("condition", spec.condition),
    ("evaluationIntervalSec", spec.evaluationIntervalSec), ("severity", .str spec.severity)]

/-- The input of `store.create`. -/
def generatedRule (folderUid dashboardId : String) (spec : AlertRuleCreateSpec) :
    NewAlertRule where
  name := .str spec.name
  description := .str spec.description
  originalPrompt := some (.str spec.description)
  condition := spec.condition
  evaluationIntervalSec := spec.evaluationIntervalSec
  severity := .str spec.severity
  labels := some (.obj (if dashboardId = "" then spec.labels
    else setField spec.labels "dashboardId" (.str dashboardId)))
  createdBy := .str "llm"
  workspaceId := some ctx.caller.orgId
  folderUid := some folderUid
  source := some .aiGenerated

def describeRule (verb : String) (rule : AlertRule) : String :=
  let c := rule.condition
  verb ++ " alert rule \"" ++ rule.name ++ "\" (id: " ++ rule.id ++ ", " ++ rule.severity ++
    ", evaluating every " ++ stringOf rule.evaluationIntervalSec ++ "s). Rule: " ++
    template (member c "query") ++ " " ++ template (member c "operator") ++ " " ++
    template (member c "threshold") ++ " for " ++ template (member c "forDurationSec") ++ "s." ++
    ctx.platform.preview c

/-- A rule of the name, updated; `none` where there is none to update. -/
def upsert (now : String) (spec : AlertRuleCreateSpec) :
    Prog Session (Except String (Option AlertRule)) := do
  let scopedList ← (findByWorkspace ctx.caller.orgId).zoom Session.db
  match scopedList.find? (·.name = spec.name) with
  | none => return .ok none
  | some existing => do
      let found ← (AlertRuleRepository.findById existing.id).zoom Session.db
      let source := (found.map (·.source)).getD .manual
      if isProvisioned source then
        return .error ("Error: " ++ provisionedMessage "alert_rule" existing.id source)
      else do
        let rule ← (AlertRuleRepository.update ctx.platform.driver now existing.id
          (upsertPatch spec)).zoom Session.db
        return .ok rule

def createAlertRule (drawn : DrawnRule) (drawnFolder : Folders.Drawn) (args : Json.Record) :
    Prog Session String := do
  let folderUid ← resolveAlertRuleFolderUid ctx drawnFolder args
  match parseCreateSpec (Json.field args "spec") with
  | .error e => return "Error: " ++ e
  | .ok spec => do
      match ← upsert ctx drawn.now spec with
      | .error refusal => return refusal
      | .ok (some rule) => return describeRule ctx "Updated" rule
      | .ok none => do
          let rule ← (AlertRuleRepository.create ctx.platform.driver drawn
            (generatedRule ctx folderUid (stringOr args "dashboardId" "") spec)).zoom Session.db
          return describeRule ctx "Created" rule

/-! ## Update and delete -/

/-- `patch.key ? { key: patch.key } : {}`. -/
def keepTruthy (patch : Json) (key : String) : Json.Record :=
  match member patch key with
  | some v => if truthyJson (some v) then [(key, v)] else []
  | none => []

/-- `patch.key !== undefined ? { key: patch.key } : {}`. -/
def keepPresent (patch : Json) (key : String) : Json.Record :=
  match member patch key with
  | some v => [(key, v)]
  | none => []

def changesCondition (patch : Json) : Bool :=
  (member patch "threshold").isSome || truthyJson (member patch "operator") ||
    (member patch "forDurationSec").isSome || truthyJson (member patch "query")

/-- `existingRule.condition ?? {}`. -/
def conditionOf (rule : AlertRule) : Json := orDefault (some rule.condition) (.obj [])

def updatePatch (existingRule : AlertRule) (patch : Json) : Json.Record :=
  keepTruthy patch "severity" ++ keepTruthy patch "evaluationIntervalSec" ++
    keepTruthy patch "name" ++
    (if changesCondition patch then
      [("condition", .obj (assign (spread (conditionOf existingRule))
        (keepPresent patch "threshold" ++ keepTruthy patch "operator" ++
          keepPresent patch "forDurationSec" ++ keepTruthy patch "query")))]
    else [])

def describeUpdate (existingRule : AlertRule) (updatePatch : Json.Record)
    (updatedRule : Option AlertRule) : String :=
  let name := ((updatedRule.map (·.name)).getD existingRule.name)
  let condition := orDefault (updatedRule.map (·.condition))
    (orDefault (Json.field updatePatch "condition") (conditionOf existingRule))
  "Updated \"" ++ name ++ "\"" ++
    (match member condition "threshold" with
      | some v => " to " ++ stringOf v
      | none => "") ++
    (match asText (member condition "operator") with
      | some operator => " (" ++ operator ++ ")"
      | none => "") ++ "."

def updateAlertRule (now : String) (args : Json.Record) : Prog Session String := do
  let ruleId := stringOr args "ruleId" ""
  let patch := orDefault (Json.field args "patch") (.obj args)
  match ← (AlertRuleRepository.findById ruleId).zoom Session.db with
  | none => return "Error: alert rule " ++ ruleId ++ " not found."
  | some existingRule =>
    if isProvisioned existingRule.source then
      return "Error: " ++ provisionedMessage "alert_rule" ruleId existingRule.source
    else do
      if ← evalAlertRuleWrite ctx "alert.rules:write" ruleId then
        let updatedRule ← (AlertRuleRepository.update ctx.platform.driver now ruleId
          (updatePatch existingRule patch)).zoom Session.db
        return describeUpdate existingRule (updatePatch existingRule patch) updatedRule
      else return "Error: not authorized to modify alert rule " ++ ruleId ++ "."

def deleteAlertRule (args : Json.Record) : Prog Session String := do
  let ruleId := stringOr args "ruleId" ""
  let existingRule ← (AlertRuleRepository.findById ruleId).zoom Session.db
  let source := (existingRule.map (·.source)).getD .manual
  if isProvisioned source then
    return "Error: " ++ provisionedMessage "alert_rule" ruleId source
  else do
    if ← evalAlertRuleWrite ctx "alert.rules:delete" ruleId then
      let _ ← (AlertRuleRepository.delete ruleId).zoom Session.db
      return "Deleted \"" ++ (existingRule.map (·.name)).getD "the alert rule" ++ "\"."
    else return "Error: not authorized to delete alert rule " ++ ruleId ++ "."

/-! ## The tool -/

/-- The op of a call, `''` for what is no text. -/
def opOf (args : Json.Record) : String := (asText (Json.field args "op")).getD ""

/-- `!args.ruleId || typeof args.ruleId !== 'string'`, the other way round. -/
def hasRuleId (args : Json.Record) : Bool :=
  (Folders.truthy (asText (Json.field args "ruleId"))).isSome

def handleAlertRuleWrite (drawn : DrawnRule) (drawnFolder : Folders.Drawn) (args : Json.Record) :
    Prog Session String :=
  let op := opOf args
  if op = "" then return "Error: alert_rule_write requires \"op\" (one of: create, update, delete)."
  else if op = "create" then
    match parseCreateSpec (Json.field args "spec") with
    | .error e => return "Error: " ++ e
    | .ok _ => createAlertRule ctx drawn drawnFolder args
  else if op = "update" then
    if hasRuleId args then updateAlertRule ctx drawn.now args
    else return "Error: alert_rule_write with op=\"update\" requires \"ruleId\"."
  else if op = "delete" then
    if hasRuleId args then deleteAlertRule ctx args
    else return "Error: alert_rule_write with op=\"delete\" requires \"ruleId\"."
  else return "Error: alert_rule_write received unknown op \"" ++ op ++
    "\". Expected one of: create, update, delete."

/-! ## List and history -/

/-- `ORDER BY updated_at DESC`. -/
def newestRules (t : Tables) : List AlertRule :=
  t.alertRules.mergeSort fun r r' => decide (r'.updatedAt ≤ r.updatedAt)

def readRule (id : String) : Rbac.Evaluator := .action "alert.rules:read" ["alert.rules:uid:" ++ id]

def ruleLine (r : AlertRule) : String :=
  "- [" ++ r.id ++ "] \"" ++ r.name ++ "\" (" ++ r.severity ++ ") — " ++
    stringOf (orDefault (member r.condition "query") (.str "")) ++ " " ++
    stringOf (orDefault (member r.condition "operator") (.str "")) ++ " " ++
    stringOf (orDefault (member r.condition "threshold") (.str ""))

def handleAlertRuleList (args : Json.Record) : Prog Session String := do
  let filter := (asText (Json.field args "filter")).getD ""
  let rawList ← (Prog.read newestRules).zoom Session.db
  let list ← filterByPermission ctx rawList fun r => readRule r.id
  let filtered := list.filter fun r => matchesFilter ctx.platform (some r.name) (some filter)
  return listing "alert rule" "No alert rules found." filter filtered.length list.length
    (filtered.map ruleLine)

/-- `ORDER BY timestamp DESC LIMIT`; a negative limit is none. -/
def newestHistory (limit : Int) (entries : List AlertHistoryEntry) : List AlertHistoryEntry :=
  let sorted := entries.mergeSort fun e e' => decide (e'.timestamp ≤ e.timestamp)
  if limit < 0 then sorted else sorted.take limit.toNat

def getHistory (ruleId : Option String) (limit : Int) (t : Tables) : List AlertHistoryEntry :=
  newestHistory limit (match ruleId with
    | some ruleId => t.alertHistory.filter (·.ruleId = ruleId)
    | none => t.alertHistory)

def severityColor (severity : String) : Option String :=
  if severity = "critical" then some "#ff6e84"
  else if severity = "high" then some "#f07934"
  else if severity = "medium" then some "#e2b007"
  else if severity = "low" then some "#3e7bfa"
  else none

structure Annotation where
  time : Int
  label : String
  color : Option String

def annotationOf (severityByRule : List (String × String)) (cutoffMs : Int)
    (entry : AlertHistoryEntry) : Option Annotation :=
  match ctx.platform.getTime entry.timestamp with
  | none => none
  | some time =>
    if time < cutoffMs then none
    else some {
      time
      label :=
        if entry.toState = "firing" then
          entry.ruleName ++ " fired (value=" ++ toString entry.value ++ ", threshold=" ++
            toString entry.threshold ++ ")"
        else if entry.toState = "resolved" then entry.ruleName ++ " resolved"
        else entry.ruleName ++ ": " ++ entry.fromState ++ " → " ++ entry.toState
      color :=
        match severityByRule.find? (·.1 = entry.ruleId) with
        | some (_, severity) => if severity = "" then severityColor "medium" else severityColor severity
        | none => severityColor "medium" }

def Annotation.json (a : Annotation) : Json :=
  .obj ([("time", .num a.time), ("label", .str a.label)] ++
    (match a.color with
      | some color => [("color", .str color)]
      | none => []))

def historyUnavailable : String :=
  "Alert history is not available from this store; skip annotations."

def handleAlertRuleHistory (nowMs : Int) (args : Json.Record) : Prog Session String :=
  let ruleId := Folders.truthy (asText (Json.field args "ruleId"))
  let sinceMinutes := numberOr (Json.field args "sinceMinutes") 60
  let limit := numberOr (Json.field args "limit") 50
  if ctx.keepsHistory = false then return historyUnavailable
  else do
    let rules ← (Prog.read newestRules).zoom Session.db
    let severityByRule := rules.map fun r => (r.id, r.severity)
    let raw ← (Prog.read (getHistory ruleId limit)).zoom Session.db
    let annotations := (raw.filterMap (annotationOf ctx severityByRule
      (nowMs - sinceMinutes * 60000))).mergeSort fun a b => decide (a.time ≤ b.time)
    if annotations = [] then
      return "No alert state changes in the last " ++ toString sinceMinutes ++ " minute(s)."
    else
      return "Found " ++ toString annotations.length ++
        " alert event(s). Pass the JSON below as `panel.annotations` on time-axis panels:\n```json\n" ++
        ctx.platform.stringify (.arr (annotations.map Annotation.json)) ++ "\n```"

end OpenObs.Agent
