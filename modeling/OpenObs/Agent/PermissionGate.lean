import OpenObs.Agent.Gate

/-!
# Agents and the three layers of the gate

`agent/agent-definition.ts` and the whole of `agent/permission-gate.ts`: the tools the
agent may call, the mode it runs in, and the grants of the caller. The first layer
that denies wins, and the second one looks the tool up in a list of its own.
-/

namespace OpenObs.Agent

open OpenObs.Foundation OpenObs.Rbac

/-! ## Agents -/

/-- The union `AgentToolName`. -/
def agentToolNames : List String :=
  ["dashboard_create", "dashboard_list", "dashboard_clone",
    "dashboard_add_panels", "dashboard_remove_panels", "dashboard_modify_panel",
    "dashboard_rearrange", "dashboard_add_variable", "dashboard_set_title",
    "folder_create", "folder_list",
    "investigation_create", "investigation_list",
    "investigation_add_section", "investigation_complete",
    "alert_rule_write", "alert_rule_list", "alert_rule_history",
    "navigate",
    "metrics_query", "metrics_range_query", "metrics_discover", "metrics_validate",
    "metric_explore",
    "logs_query", "logs_labels", "logs_label_values",
    "changes_list_recent",
    "ops_run_command",
    "remediation_plan_create", "remediation_plan_create_rescue",
    "connectors_list", "connectors_suggest", "connectors_pin", "connectors_unpin",
    "connector_list", "connector_template_list", "connector_detect",
    "connector_propose", "connector_apply", "connector_test",
    "setting_get", "setting_set",
    "web_search", "llm.complete",
    "verifier.run",
    "tool_search",
    "ask_user"]

structure AgentToolName where
  name : String
  known : name ∈ agentToolNames

inductive AgentPermissionMode : Type where
  | readOnly | artifactMutation | proposeOnly | approvalRequired | guardedExecution
deriving DecidableEq

def AgentPermissionMode.text : AgentPermissionMode → String
  | .readOnly => "read_only"
  | .artifactMutation => "artifact_mutation"
  | .proposeOnly => "propose_only"
  | .approvalRequired => "approval_required"
  | .guardedExecution => "guarded_execution"

/-- What gate and runner read of an agent; its type is `orchestrator` or `verification`. -/
structure AgentDefinition where
  type : String
  allowedTools : List AgentToolName
  permissionMode : AgentPermissionMode

/-- `agentDef.allowedTools.includes(tool)`. -/
def AgentDefinition.allows (agentDef : AgentDefinition) (tool : String) : Bool :=
  decide (tool ∈ agentDef.allowedTools.map (·.name))

/-! ## Tools by their names -/

/-- The keys of `TOOL_PERMS`. -/
def gatedTools : List AgentTool :=
  [.dashboardCreate, .dashboardList, .dashboardClone,
    .dashboardAddPanels, .dashboardRemovePanels, .dashboardModifyPanel, .dashboardSetTitle,
    .dashboardAddVariable, .dashboardRearrange,
    .folderCreate, .folderList,
    .investigationCreate, .investigationList, .investigationAddSection, .investigationComplete,
    .alertRuleWrite, .alertRuleList, .alertRuleHistory,
    .metricsQuery, .metricsRangeQuery, .metricsDiscover, .metricsValidate, .metricExplore,
    .logsQuery, .logsLabels, .logsLabelValues,
    .changesListRecent,
    .remediationPlanCreate, .remediationPlanCreateRescue,
    .opsRunCommand,
    .connectorPropose, .connectorApply, .connectorTest, .settingGet, .settingSet,
    .webSearch]

def UNGATED_TOOLS : List String :=
  ["navigate", "ask_user", "tool_search", "llm.complete", "verifier.run", "connectors_list",
    "connectors_suggest", "connectors_pin", "connectors_unpin", "connector_list",
    "connector_template_list", "connector_detect"]

def AgentTool.ofName (name : String) : AgentTool :=
  if name ∈ UNGATED_TOOLS then .ungated name
  else (gatedTools.find? (·.text = name)).getD (.unknown name)

@[simp] theorem AgentTool.text_ofName (name : String) : (AgentTool.ofName name).text = name := by
  unfold AgentTool.ofName
  split
  · rfl
  · cases h : gatedTools.find? (·.text = name) with
    | none => rfl
    | some tool => simpa using List.find?_some h

/-! ## Denials -/

inductive PermissionDenyReason : Type where
  | allowedTools | permissionMode | rbac
deriving DecidableEq

/-- A `PermissionGateResult` with `ok: false`. -/
structure PermissionDenial where
  reason : PermissionDenyReason
  action : String
  scope : String

/-- `denialObservation`. -/
def PermissionDenial.observation (d : PermissionDenial) : String :=
  "permission denied: " ++ d.action ++ " on " ++ d.scope

def rbacDenial (e : Evaluator) : PermissionDenial :=
  match splitOn [] e.string.toList with
  | some (c :: cs, scope) => ⟨.rbac, trim (String.ofList (c :: cs)), trim (String.ofList scope)⟩
  | _ => ⟨.rbac, trim e.string, ""⟩

theorem observation_rbacDenial (e : Evaluator) :
    (rbacDenial e).observation = denialObservation e := by
  unfold rbacDenial denialObservation
  generalize splitOn [] e.string.toList = parts
  match parts with
  | some (c :: cs, scope) => rfl
  | some ([], scope) => exact String.append_empty
  | none => exact String.append_empty

/-! ## The check -/

namespace PermissionGate

def TERMINAL : List String := ["ask_user"]

def MUTATION_ACTIONS : List String :=
  ["dashboard_create", "dashboard_add_panels", "dashboard_remove_panels",
    "dashboard_modify_panel", "dashboard_rearrange", "dashboard_add_variable",
    "dashboard_set_title",
    "folder_create",
    "investigation_create", "investigation_add_section", "investigation_complete",
    "alert_rule_write"]

/-- `mode === 'read_only' || mode === 'propose_only'`. -/
def deniesMutations (mode : AgentPermissionMode) : Bool :=
  decide (mode = .readOnly ∨ mode = .proposeOnly)

variable (ctx : ActionContext)

def checkGrants (tool : String) (args : Json.Record) : Prog Session (Option PermissionDenial) := do
  let built ← tryCatch
    (do let e ← buildToolEvaluator ctx (.ofName tool) args; return some e)
    fun _ => return none
  match built with
  | none => return some ⟨.rbac, tool, "scope-resolution-failed"⟩
  | some none => return none
  | some (some e) => do
      if ← Prog.read fun s => ctx.caller.allows s.tables e then return none
      else return some (rbacDenial e)

/-- `checkPermission`, with all three layers. -/
def check (agentDef : AgentDefinition) (tool : String) (args : Json.Record) :
    Prog Session (Option PermissionDenial) :=
  if tool ∈ TERMINAL then return none
  else if agentDef.allows tool = false then
    return some ⟨.allowedTools, tool, "agent:" ++ agentDef.type⟩
  else if tool ∈ MUTATION_ACTIONS ∧ deniesMutations agentDef.permissionMode = true then
    return some ⟨.permissionMode, tool, "mode:" ++ agentDef.permissionMode.text⟩
  else checkGrants ctx tool args

end PermissionGate

/-! ## What the layers say -/

section Layers

variable {ctx : ActionContext} {agentDef : AgentDefinition} {tool : String} {args : Json.Record}

theorem checkGrants_observation :
    (do let d ← PermissionGate.checkGrants ctx tool args; return d.map (·.observation)) =
      checkPermission ctx (.ofName tool) args := by
  unfold PermissionGate.checkGrants checkPermission
  rw [Prog.bind_assoc']
  refine congrArg _ (funext fun built => ?_)
  match built with
  | none =>
    have htext : "permission denied: " ++ tool ++ " on " ++ "scope-resolution-failed" =
        "permission denied: " ++ tool ++ " on scope-resolution-failed" := String.append_assoc ..
    rw [AgentTool.text_ofName, ← htext]
    rfl
  | some none => rfl
  | some (some e) =>
    rw [Prog.bind_assoc']
    refine congrArg _ (funext fun allowed => ?_)
    cases allowed with
    | true => rfl
    | false =>
      show (return some (rbacDenial e).observation : Prog Session (Option String)) = _
      rw [observation_rbacDenial]
      rfl

theorem buildToolEvaluator_leaves (called : AgentTool) :
    (buildToolEvaluator ctx called args).Leaves id := by
  have hscope : (do let scope ← Prog.read resolveDashboardScope
                    return some (.action "dashboards:write" [scope]) :
      Prog Session (Option Evaluator)).Leaves id :=
    Prog.leaves_read.bind fun _ => Prog.leaves_pure
  unfold buildToolEvaluator
  cases called with
  | alertRuleWrite =>
    refine Prog.Leaves.bind ?_ fun _ => Prog.leaves_pure
    unfold alertRuleWriteEvaluator lookupAlertRuleFolderUid
    dsimp only
    split
    · exact Prog.leaves_pure
    · split
      · refine Prog.Leaves.bind ?_ fun _ => Prog.leaves_pure
        split
        · exact Prog.leaves_pure
        · exact Prog.leaves_read.zoom_id Session.db
      · exact Prog.leaves_pure
  | dashboardAddPanels => exact hscope
  | dashboardRemovePanels => exact hscope
  | dashboardModifyPanel => exact hscope
  | dashboardSetTitle => exact hscope
  | dashboardAddVariable => exact hscope
  | dashboardRearrange => exact hscope
  | _ => exact Prog.leaves_pure

theorem checkGrants_leaves : (PermissionGate.checkGrants ctx tool args).Leaves id := by
  unfold PermissionGate.checkGrants
  refine Prog.Leaves.bind ?_ fun built => ?_
  · exact ((buildToolEvaluator_leaves _).bind fun _ => Prog.leaves_pure).tryCatch
      fun _ => Prog.leaves_pure
  · match built with
    | none => exact Prog.leaves_pure
    | some none => exact Prog.leaves_pure
    | some (some e) =>
      refine Prog.leaves_read.bind fun allowed => ?_
      split
      · exact Prog.leaves_pure
      · exact Prog.leaves_pure

theorem check_leaves : (PermissionGate.check ctx agentDef tool args).Leaves id := by
  unfold PermissionGate.check
  split
  · exact Prog.leaves_pure
  · split
    · exact Prog.leaves_pure
    · split
      · exact Prog.leaves_pure
      · exact checkGrants_leaves

theorem run_check {s : Session} :
    ∃ r, (PermissionGate.check ctx agentDef tool args).run s = (.ok r, s) := by
  have hstate : ((PermissionGate.check ctx agentDef tool args).run s).2 = s :=
    check_leaves.run s
  suffices hok : ∃ r, ((PermissionGate.check ctx agentDef tool args).run s).1 = .ok r by
    obtain ⟨r, hr⟩ := hok
    exact ⟨r, Prod.ext hr hstate⟩
  unfold PermissionGate.check
  split
  · exact ⟨_, rfl⟩
  · split
    · exact ⟨_, rfl⟩
    · split
      · exact ⟨_, rfl⟩
      · -- a builder that throws is caught, and becomes a refusal
        unfold PermissionGate.checkGrants
        rw [Prog.run_bind, Prog.run_tryCatch]
        cases hbuilt : (do let e ← buildToolEvaluator ctx (.ofName tool) args
                           return some e : Prog Session (Option (Option Evaluator))).run s with
        | mk outcome s' =>
          match outcome with
          | .error e => exact ⟨_, rfl⟩
          | .ok none => exact ⟨_, rfl⟩
          | .ok (some none) => exact ⟨_, rfl⟩
          | .ok (some (some e)) =>
            refine ⟨if ctx.caller.allows s'.tables e then none else some (rbacDenial e), ?_⟩
            dsimp only
            rw [Prog.run_bind, Prog.run_read]
            dsimp only
            split
            · rfl
            · rfl

theorem passes_check {s : Session}
    (h : ((PermissionGate.check ctx agentDef tool args).run s).1 = .ok none) :
    tool ∈ PermissionGate.TERMINAL ∨ agentDef.allows tool = true ∧
      ¬ (tool ∈ PermissionGate.MUTATION_ACTIONS ∧
        PermissionGate.deniesMutations agentDef.permissionMode = true) := by
  unfold PermissionGate.check at h
  split at h
  · rename_i hterm
    exact Or.inl hterm
  · split at h
    · cases h
    · rename_i hallows
      split at h
      · cases h
      · rename_i hmode
        exact Or.inr ⟨by simpa using hallows, hmode⟩

theorem known_of_allows (h : agentDef.allows tool = true) : tool ∈ agentToolNames := by
  obtain ⟨name, -, rfl⟩ := List.mem_map.mp (of_decide_eq_true h)
  exact name.known

end Layers

end OpenObs.Agent
