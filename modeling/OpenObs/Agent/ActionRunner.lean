import OpenObs.Agent.ConfigTools
import OpenObs.Agent.PlanTools
import OpenObs.Agent.ReadingTools

/-!
# The action runner

`agent/orchestrator-action-runner.ts`: one tool call of the agent, from the gate to its
handler. Behind the gate stands a second list of mutations, by which the mode
`approval_required` turns a call into a proposal.
-/

namespace OpenObs.Agent

open OpenObs.Foundation

/-! ## Required arguments -/

/-- The `required` of the schemas in `TOOL_REGISTRY`, where there are any. -/
def requiredArgs : List (String × List String) :=
  [("connectors_pin", ["connectorId"]),
    ("metrics_query", ["sourceId", "query"]),
    ("metrics_range_query", ["sourceId", "query"]),
    ("metrics_discover", ["sourceId", "kind"]),
    ("metrics_validate", ["sourceId", "query"]),
    ("metric_explore", ["query"]),
    ("logs_query", ["sourceId", "query", "start", "end"]),
    ("logs_labels", ["sourceId"]),
    ("logs_label_values", ["sourceId", "label"]),
    ("ops_run_command", ["connectorId", "command", "intent"]),
    ("remediation_plan_create", ["investigationId", "summary", "steps"]),
    ("remediation_plan_create_rescue", ["rescueForPlanId", "investigationId", "summary", "steps"]),
    ("dashboard_create", ["title", "datasourceId"]),
    ("dashboard_clone", ["sourceDashboardId", "targetDatasourceId"]),
    ("dashboard_add_panels", ["panels"]),
    ("dashboard_remove_panels", ["panelIds"]),
    ("dashboard_modify_panel", ["panelId"]),
    ("dashboard_set_title", ["title"]),
    ("dashboard_add_variable", ["name"]),
    ("folder_create", ["title"]),
    ("investigation_create", ["question"]),
    ("investigation_add_section", ["type", "content"]),
    ("investigation_complete", ["summary"]),
    ("alert_rule_write", ["op"]),
    ("web_search", ["query"]),
    ("navigate", ["path"]),
    ("tool_search", ["query"]),
    ("connector_propose", ["template", "name", "config"]),
    ("connector_apply", ["draftId"]),
    ("connector_test", ["connectorId"]),
    ("setting_get", ["key"]),
    ("setting_set", ["key", "value"]),
    ("ask_user", ["question"])]

/-- `undefined`, `null`, or a text with nothing in it. -/
def isMissing : Option Json → Bool
  | none => true
  | some .null => true
  | some (.str s) => decide (Rbac.trim s = "")
  | some _ => false

/-- `checkRequiredArgs`. -/
def checkRequiredArgs (action : String) (args : Json.Record) : Option String :=
  let required := ((requiredArgs.find? (·.1 = action)).map (·.2)).getD []
  match required.filter fun name => isMissing (Json.field args name) with
  | [] => none
  | name :: names =>
    some ("Cannot run " ++ action ++ ": missing required argument" ++
      (if names = [] then "" else "s") ++ " " ++
      ", ".intercalate ((name :: names).map fun n => "\"" ++ n ++ "\"") ++
      ". Ask the user for the missing value (use ask_user) instead of guessing.")

/-! ## Dispatch -/

variable {κ δ : Type} (ctx : ToolContext κ δ) (drawn : DrawnTool)

def unknownAction (action : String) : String :=
  "Unknown action \"" ++ action ++ "\" - skipping."

def dispatchUngated (action : String) (args : Json.Record) :
    Prog (AgentState κ δ) (Option String) :=
  if action = "navigate" then some <$> handleNavigate args
  else if action = "connectors_list" then some <$> handleConnectorsList drawn args
  else if action = "connectors_suggest" then some <$> handleConnectorsSuggest drawn ctx args
  else if action = "connectors_pin" then some <$> handleConnectorsPin args
  else if action = "connectors_unpin" then some <$> handleConnectorsUnpin args
  else if action = "connector_list" then some <$> handleConnectorList ctx args
  else if action = "connector_template_list" then some <$> handleConnectorTemplateList ctx args
  else if action = "connector_detect" then some <$> handleConnectorDetect ctx args
  else if action = "tool_search" then return none
  else return some (unknownAction action)

def onSession (handler : Prog Session String) : Prog (AgentState κ δ) (Option String) :=
  some <$> handler.zoom AgentState.sessionPart

/-- `dispatchAction`. -/
def dispatchAction (action : String) (args : Json.Record) :
    Prog (AgentState κ δ) (Option String) :=
  let session := ctx.toActionContext
  match AgentTool.ofName action with
  | .dashboardCreate => onSession (handleDashboardCreate session drawn.dashboard args)
  | .dashboardList => onSession (handleDashboardList session args)
  | .dashboardClone => onSession (handleDashboardClone session drawn.dashboard args)
  | .dashboardAddPanels => onSession (handleDashboardAddPanels drawn.dashboard args)
  | .dashboardSetTitle => onSession (handleDashboardSetTitle drawn.dashboard args)
  | .dashboardRemovePanels => onSession (handleDashboardRemovePanels session drawn.dashboard args)
  | .dashboardModifyPanel => onSession (handleDashboardModifyPanel session drawn.dashboard args)
  | .dashboardAddVariable => onSession (handleDashboardAddVariable session drawn.dashboard args)
  | .investigationCreate =>
    onSession (handleInvestigationCreate session drawn.uuid drawn.now args)
  | .investigationList => onSession (handleInvestigationList session args)
  | .investigationAddSection => onSession (handleInvestigationAddSection session args)
  | .investigationComplete =>
    onSession (handleInvestigationComplete session drawn.uuid drawn.now args)
  | .alertRuleWrite => onSession (handleAlertRuleWrite session drawn.rule drawn.folder args)
  | .alertRuleList => onSession (handleAlertRuleList session args)
  | .alertRuleHistory => onSession (handleAlertRuleHistory session drawn.nowMs args)
  | .folderCreate => onSession (handleFolderCreate session drawn.folder args)
  | .folderList => onSession (handleFolderList drawn session args)
  | .metricsQuery => onSession (handleMetricsQuery drawn args)
  | .metricsRangeQuery => onSession (handleMetricsRangeQuery drawn args)
  | .metricsDiscover => onSession (handleMetricsDiscover drawn session args)
  | .metricsValidate => onSession (handleMetricsValidate drawn args)
  | .metricExplore => some <$> handleMetricExplore drawn ctx args
  | .logsQuery => onSession (handleLogsQuery drawn session args)
  | .logsLabels => onSession (handleLogsLabels drawn args)
  | .logsLabelValues => onSession (handleLogsLabelValues drawn args)
  | .changesListRecent => onSession (handleChangesListRecent drawn args)
  | .opsRunCommand => some <$> handleOpsRunCommand ctx args
  | .remediationPlanCreate => some <$> handleRemediationPlanCreate ctx drawn args
  | .remediationPlanCreateRescue => some <$> handleRemediationPlanCreateRescue ctx drawn args
  | .connectorPropose => some <$> handleConnectorPropose ctx args
  | .connectorApply => some <$> handleConnectorApply ctx args
  | .connectorTest => some <$> handleConnectorTest ctx args
  | .settingGet => some <$> handleSettingGet ctx args
  | .settingSet => some <$> handleSettingSet ctx args
  | .webSearch => onSession (handleWebSearch drawn args)
  | .dashboardRearrange => return some (unknownAction action)
  | .ungated name => dispatchUngated ctx drawn name args
  | .unknown name => return some (unknownAction name)

/-! ## The runner -/

namespace ActionRunner

def MUTATION_ACTIONS : List String :=
  ["dashboard_create", "dashboard_clone",
    "dashboard_add_panels", "dashboard_remove_panels", "dashboard_modify_panel",
    "dashboard_rearrange", "dashboard_add_variable", "dashboard_set_title",
    "investigation_create", "investigation_add_section", "investigation_complete",
    "alert_rule_write"]

def isMutationAction (action : String) : Bool := decide (action ∈ MUTATION_ACTIONS)

end ActionRunner

structure ToolCall where
  action : String
  args : Json.Record
  drawn : DrawnTool

def emit (e : RunnerEvent) : Prog (AgentState κ δ) Unit :=
  Prog.write fun s => { s with emitted := s.emitted ++ [e] }

def blocked (action : String) (denial : PermissionDenial) :
    Prog (AgentState κ δ) (Option String) := do
  emit (.toolBlocked action denial)
  emit (.toolResult action denial.observation false)
  return some denial.observation

def propose (action : String) (args : Json.Record) : Prog (AgentState κ δ) (Option String) := do
  emit (.artifactProposed action args)
  emit (.approvalRequired action args
    ("Action \"" ++ action ++ "\" requires approval before execution."))
  return some ("Action \"" ++ action ++ "\" requires approval. A proposal has been submitted.")

def dispatch (call : ToolCall) : Prog (AgentState κ δ) (Option String) := do
  emit (.toolCalled call.action)
  tryCatch (dispatchAction ctx call.drawn call.action call.args) fun e => do
    let observation := "Action \"" ++ call.action ++ "\" failed: " ++ e ++
      ". Do NOT retry — end your turn with a plain-text reply that tells the user what went wrong."
    emit (.toolResult call.action observation false)
    emit (.toolCompleted call.action e)
    return some observation

def needsApproval (agentDef : AgentDefinition) (action : String) : Bool :=
  ActionRunner.isMutationAction action && decide (agentDef.permissionMode = .approvalRequired)

/-- `PermissionWrappedActionRunner.execute`. -/
def execute (agentDef : AgentDefinition) (call : ToolCall) :
    Prog (AgentState κ δ) (Option String) := do
  let gateResult ← (PermissionGate.check ctx.toActionContext agentDef call.action
    call.args).zoom AgentState.sessionPart
  match gateResult with
  | some denial => blocked call.action denial
  | none =>
    if needsApproval agentDef call.action then propose call.action call.args
    else
      match checkRequiredArgs call.action call.args with
      | some missing => do
          emit (.toolResult call.action missing false)
          return some missing
      | none => dispatch ctx call

end OpenObs.Agent
