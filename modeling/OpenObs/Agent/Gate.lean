import OpenObs.Agent.AlertTools
import OpenObs.Agent.DashboardTools
import OpenObs.Agent.InvestigationTools

/-!
# The permission gate

`agent/tool-permissions.ts` and the third layer of `agent/permission-gate.ts`: for
every tool the evaluator its call has to pass, built from the same untyped
arguments the handler gets.
-/

namespace OpenObs.Agent

open OpenObs.Foundation OpenObs.Resources OpenObs.Rules OpenObs.Rbac

/-! ## Tools -/

inductive AgentTool : Type where
  | dashboardCreate | dashboardList | dashboardClone
  | dashboardAddPanels | dashboardRemovePanels | dashboardModifyPanel | dashboardSetTitle
  | dashboardAddVariable | dashboardRearrange
  | folderCreate | folderList
  | investigationCreate | investigationList | investigationAddSection | investigationComplete
  | alertRuleWrite | alertRuleList | alertRuleHistory
  | metricsQuery | metricsRangeQuery | metricsDiscover | metricsValidate | metricExplore
  | logsQuery | logsLabels | logsLabelValues
  | changesListRecent
  | remediationPlanCreate | remediationPlanCreateRescue
  | opsRunCommand
  | connectorPropose | connectorApply | connectorTest | settingGet | settingSet
  | webSearch
  | ungated (name : String)
  | unknown (name : String)
deriving DecidableEq

def AgentTool.text : AgentTool → String
  | .dashboardCreate => "dashboard_create"
  | .dashboardList => "dashboard_list"
  | .dashboardClone => "dashboard_clone"
  | .dashboardAddPanels => "dashboard_add_panels"
  | .dashboardRemovePanels => "dashboard_remove_panels"
  | .dashboardModifyPanel => "dashboard_modify_panel"
  | .dashboardSetTitle => "dashboard_set_title"
  | .dashboardAddVariable => "dashboard_add_variable"
  | .dashboardRearrange => "dashboard_rearrange"
  | .folderCreate => "folder_create"
  | .folderList => "folder_list"
  | .investigationCreate => "investigation_create"
  | .investigationList => "investigation_list"
  | .investigationAddSection => "investigation_add_section"
  | .investigationComplete => "investigation_complete"
  | .alertRuleWrite => "alert_rule_write"
  | .alertRuleList => "alert_rule_list"
  | .alertRuleHistory => "alert_rule_history"
  | .metricsQuery => "metrics_query"
  | .metricsRangeQuery => "metrics_range_query"
  | .metricsDiscover => "metrics_discover"
  | .metricsValidate => "metrics_validate"
  | .metricExplore => "metric_explore"
  | .logsQuery => "logs_query"
  | .logsLabels => "logs_labels"
  | .logsLabelValues => "logs_label_values"
  | .changesListRecent => "changes_list_recent"
  | .remediationPlanCreate => "remediation_plan_create"
  | .remediationPlanCreateRescue => "remediation_plan_create_rescue"
  | .opsRunCommand => "ops_run_command"
  | .connectorPropose => "connector_propose"
  | .connectorApply => "connector_apply"
  | .connectorTest => "connector_test"
  | .settingGet => "setting_get"
  | .settingSet => "setting_set"
  | .webSearch => "web_search"
  | .ungated name => name
  | .unknown name => name

/-! ## Evaluators -/

def resolveConnectorScope (args : Json.Record) : String :=
  match Folders.truthy (asText (Json.field args "sourceId")) with
  | some id => "connectors:id:" ++ id
  | none =>
    match Folders.truthy (asText (Json.field args "datasourceId")) with
    | some id => "connectors:id:" ++ id
    | none =>
      match Folders.truthy (asText (Json.field args "datasourceUid")) with
      | some id => "connectors:id:" ++ id
      | none => "connectors:id:*"

def resolveDashboardScope (s : Session) : String :=
  match Folders.truthy s.activeDashboardId with
  | some id => "dashboards:uid:" ++ id
  | none => "dashboards:uid:*"

/-- `folders:uid:${String(args.key ?? dflt)}`. -/
def folderScope (args : Json.Record) (key dflt : String) : List String :=
  ["folders:uid:" ++ stringOr args key dflt]

def investigationScope (args : Json.Record) : List String :=
  ["investigations:uid:" ++ stringOr args "investigationId" "*"]

variable (ctx : ActionContext)

def lookupAlertRuleFolderUid (ruleId : String) : Prog Session (Option String) :=
  if ruleId = "" then return none
  else (AlertRuleRepository.getFolderUid ctx.caller.orgId ruleId).zoom Session.db

/-- The evaluator of `alert_rule_write`: an unknown op gets a scope no grant is for. -/
def alertRuleWriteEvaluator (args : Json.Record) : Prog Session Evaluator :=
  let op := opOf args
  if op = "create" then
    return .action "alert.rules:create" (folderScope args "folderUid" defaultFolderUid)
  else if op = "update" ∨ op = "delete" then do
    let folderUid ← lookupAlertRuleFolderUid ctx (stringOr args "ruleId" "")
    return .action (if op = "update" then "alert.rules:write" else "alert.rules:delete")
      ["folders:uid:" ++ folderUid.getD "*"]
  else
    return .action "alert.rules:write" ["op:invalid:" ++ if op = "" then "missing" else op]

/-- `TOOL_PERMS`; `none` is a tool that is not gated. -/
def buildToolEvaluator (tool : AgentTool) (args : Json.Record) :
    Prog Session (Option Evaluator) :=
  match tool with
  | .dashboardCreate => return some (.action "dashboards:create" (folderScope args "folderUid" "*"))
  | .dashboardList => return some (.action "dashboards:read" ["dashboards:*"])
  | .dashboardClone => return some (.action "dashboards:create" (folderScope args "folderUid" "*"))
  | .dashboardAddPanels | .dashboardRemovePanels | .dashboardModifyPanel | .dashboardSetTitle
  | .dashboardAddVariable | .dashboardRearrange => do
      let scope ← Prog.read resolveDashboardScope
      return some (.action "dashboards:write" [scope])
  | .folderCreate => return some (.action "folders:create" (folderScope args "parentUid" "*"))
  | .folderList => return some (.action "folders:read" ["folders:*"])
  | .investigationCreate => return some (.action "investigations:create" [])
  | .investigationList => return some (.action "investigations:read" ["investigations:*"])
  | .investigationAddSection | .investigationComplete
  | .remediationPlanCreate | .remediationPlanCreateRescue =>
    return some (.action "investigations:write" (investigationScope args))
  | .alertRuleWrite => do
      let e ← alertRuleWriteEvaluator ctx args
      return some e
  | .alertRuleList => return some (.action "alert.rules:read" ["alert.rules:*"])
  | .alertRuleHistory =>
    return some (.action "alert.rules:read" ["alert.rules:uid:" ++ stringOr args "ruleId" "*"])
  | .metricsQuery | .metricsRangeQuery | .metricsDiscover | .metricsValidate | .metricExplore
  | .logsQuery | .logsLabels | .logsLabelValues =>
    return some (.action "connectors:query" [resolveConnectorScope args])
  | .changesListRecent => return some (.action "investigations:read" ["investigations:*"])
  | .opsRunCommand =>
    return some (.any
      [.action "ops.commands:run" ["connectors:id:" ++ stringOr args "connectorId" "*"],
        .action "instance.config:write" []])
  | .connectorPropose | .connectorApply =>
    return some (.action "connectors:write" ["connectors:*"])
  | .connectorTest =>
    return some (.action "connectors:write"
      ["connectors:id:" ++ stringOr args "connectorId" "*"])
  | .settingGet | .settingSet => return some (.action "instance.config:write" [])
  | .webSearch => return some (.action "chat:use" [])
  | .ungated _ => return none
  | .unknown name => return some (.action "agent:unknown_tool" ["tool:" ++ name])

/-! ## The check -/

/-- The text before and behind the first ` on `, if there is one. -/
def splitOn : List Char → List Char → Option (List Char × List Char)
  | before, ' ' :: 'o' :: 'n' :: ' ' :: cs => some (before, cs)
  | before, c :: cs => splitOn (before ++ [c]) cs
  | _, [] => none

/-- `denialObservation` of a check that failed: the action and the scope in the rendering. -/
def denialObservation (e : Evaluator) : String :=
  match splitOn [] e.string.toList with
  | some (c :: cs, scope) =>
    "permission denied: " ++ trim (String.ofList (c :: cs)) ++ " on " ++ trim (String.ofList scope)
  | _ => "permission denied: " ++ trim e.string ++ " on "

def checkPermission (tool : AgentTool) (args : Json.Record) : Prog Session (Option String) := do
  let built ← tryCatch (do let e ← buildToolEvaluator ctx tool args; return some e)
    fun _ => return none
  match built with
  | none => return some ("permission denied: " ++ tool.text ++ " on scope-resolution-failed")
  | some none => return none
  | some (some e) => do
      if ← Prog.read fun s => ctx.caller.allows s.tables e then return none
      else return some (denialObservation e)

theorem run_checkPermission {tool : AgentTool} {args : Json.Record} {s : Session} {e : Evaluator}
    (hbuilt : (buildToolEvaluator ctx tool args).run s = (.ok (some e), s)) :
    (checkPermission ctx tool args).run s =
      (.ok (if ctx.caller.allows s.tables e then none else some (denialObservation e)), s) := by
  rw [checkPermission, Prog.run_bind, Prog.run_tryCatch, Prog.run_bind, hbuilt]
  dsimp only
  rw [Prog.run_pure]
  dsimp only
  rw [Prog.run_bind, Prog.run_read]
  dsimp only
  cases ctx.caller.allows s.tables e <;> rfl

def gated (tool : AgentTool) (args : Json.Record) (handler : Prog Session String) :
    Prog Session String := do
  match ← checkPermission ctx tool args with
  | some denial => return denial
  | none => handler

end OpenObs.Agent
