import OpenObs.Agent.ActionRunner

/-!
# What the tools store

The handlers behind the dispatcher, one by one: a tool that reads leaves every row as
it is, a tool that proposes leaves all of them but plans, approvals and drafts. The
statements are about sections, so they hold whatever others do in between.
-/

namespace OpenObs.Agent

open OpenObs.Foundation OpenObs.Plans OpenObs.Resources

/-! ## What a tool stores -/

inductive ToolEffect : Type where
  | reads | proposes | mutates
deriving DecidableEq

def AgentTool.effect : AgentTool → ToolEffect
  | .dashboardCreate | .dashboardClone | .dashboardAddPanels | .dashboardRemovePanels
  | .dashboardModifyPanel | .dashboardSetTitle | .dashboardAddVariable | .folderCreate
  | .investigationCreate | .investigationAddSection | .investigationComplete | .alertRuleWrite
  | .connectorApply | .settingSet => .mutates
  | .remediationPlanCreate | .remediationPlanCreateRescue | .opsRunCommand
  | .connectorPropose => .proposes
  | _ => .reads

/-- The effect of one call; a command with intent `read` is an inspection. -/
def ToolCall.effect (call : ToolCall) : ToolEffect :=
  if AgentTool.ofName call.action = .opsRunCommand ∧ opsIntent call.args = "read" then .reads
  else (AgentTool.ofName call.action).effect

/-! ## Reading handlers -/

section Reading

variable {ctx : ActionContext} {drawn : DrawnTool} {args : Json.Record}

theorem onMetricsQuery_leaves {handler : MetricsAdapter → String → Prog Session String}
    (h : ∀ adapter expr, (handler adapter expr).Leaves Session.rows) :
    (onMetricsQuery drawn args handler).Leaves Session.rows := by
  unfold onMetricsQuery
  dsimp only
  split
  · exact Prog.leaves_pure
  · split
    · exact Prog.leaves_pure
    · split
      · exact Prog.leaves_pure
      · exact h _ _

theorem onLogs_leaves {handler : LogsAdapter → String} :
    (onLogs drawn args handler).Leaves Session.rows := by
  unfold onLogs
  dsimp only
  split
  · exact Prog.leaves_pure
  · split
    · exact Prog.leaves_pure
    · exact Prog.leaves_pure

theorem addEvidence_leaves {evidence : BuildEvidence → BuildEvidence} :
    (addEvidence evidence).Leaves Session.rows :=
  Prog.leaves_write fun _ => rfl

theorem handleMetricsValidate_leaves : (handleMetricsValidate drawn args).Leaves Session.rows := by
  refine onMetricsQuery_leaves fun adapter expr => ?_
  split
  · exact Prog.leaves_pure
  · exact addEvidence_leaves.bind fun _ => Prog.leaves_pure

theorem handleMetricsDiscover_leaves :
    (handleMetricsDiscover drawn ctx args).Leaves Session.rows := by
  unfold handleMetricsDiscover
  dsimp only
  split
  · exact Prog.leaves_pure
  · split
    · exact Prog.leaves_pure
    · exact Prog.leaves_pure
    · split
      · exact Prog.leaves_pure
      · exact addEvidence_leaves.bind fun _ => Prog.leaves_pure

theorem handleChangesListRecent_leaves :
    (handleChangesListRecent drawn args).Leaves Session.rows := by
  unfold handleChangesListRecent
  dsimp only
  split
  · exact Prog.leaves_pure
  · split
    · exact Prog.leaves_pure
    · exact Prog.leaves_pure

theorem handleWebSearch_leaves : (handleWebSearch drawn args).Leaves Session.rows := by
  unfold handleWebSearch
  dsimp only
  split
  · exact Prog.leaves_pure
  · split
    · exact Prog.leaves_pure
    · split
      · exact Prog.leaves_pure
      · split
        · exact Prog.leaves_pure
        · exact Prog.leaves_pure
        · exact addEvidence_leaves.bind fun _ => Prog.leaves_pure

theorem readTables_leaves {α : Type} {f : Tables → α} :
    ((Prog.read f).zoom Session.db).Leaves Session.rows :=
  (Prog.leaves_read.zoom_id Session.db).all

theorem handleFolderList_leaves : (handleFolderList drawn ctx args).Leaves Session.rows := by
  unfold handleFolderList
  dsimp only
  split
  · exact Prog.leaves_pure
  · split
    · exact Prog.leaves_throw
    · refine readTables_leaves.bind fun items => Prog.leaves_read.bind fun visible => ?_
      split
      · exact Prog.leaves_pure
      · exact Prog.leaves_pure

theorem handleDashboardList_leaves : (handleDashboardList ctx args).Leaves Session.rows :=
  readTables_leaves.bind fun _ => Prog.leaves_read.bind fun _ => Prog.leaves_pure

theorem handleInvestigationList_leaves : (handleInvestigationList ctx args).Leaves Session.rows :=
  Prog.leaves_read.bind fun _ => Prog.leaves_read.bind fun _ => Prog.leaves_pure

theorem handleAlertRuleList_leaves : (handleAlertRuleList ctx args).Leaves Session.rows :=
  readTables_leaves.bind fun _ => Prog.leaves_read.bind fun _ => Prog.leaves_pure

theorem handleAlertRuleHistory_leaves {nowMs : Int} :
    (handleAlertRuleHistory ctx nowMs args).Leaves Session.rows := by
  unfold handleAlertRuleHistory
  dsimp only
  split
  · exact Prog.leaves_pure
  · refine readTables_leaves.bind fun rules => readTables_leaves.bind fun raw => ?_
    split
    · exact Prog.leaves_pure
    · exact Prog.leaves_pure

end Reading

/-! ## Services -/

section Services

variable {κ δ : Type} {ctx : ToolContext κ δ} {drawn : DrawnTool} {args : Json.Record}

theorem onConfigService_leaves {ρ : Type} {f : AgentState κ δ → ρ} {unavailable : String}
    {handler : ConfigService κ δ → Prog (AgentState κ δ) String}
    (h : ∀ service ∈ ctx.configService, (handler service).Leaves f) :
    (onConfigService ctx unavailable handler).Leaves f := by
  unfold onConfigService
  split
  · exact Prog.leaves_pure
  · rename_i service hservice
    exact h service hservice

theorem onConfig_leaves {α : Type} {p : Prog (ConfigStore κ δ) α} (h : p.Leaves id) :
    (p.zoom AgentState.configPart).Leaves AgentState.rows :=
  (h.zoom_id AgentState.configPart).all

theorem onPlans_leaves {α : Type} (p : Prog World α) :
    (p.zoom (@AgentState.plansPart κ δ)).Leaves AgentState.artifacts :=
  Prog.Leaves.zoom _ (Prog.leaves_const p ()) fun _ _ _ => rfl

variable (hconfig : ∀ service ∈ ctx.configService, service.Documented)

include hconfig

theorem handleConnectorList_leaves : (handleConnectorList ctx args).Leaves AgentState.rows := by
  refine onConfigService_leaves fun service hservice => ?_
  refine (onConfig_leaves ((hconfig service hservice).listConnectors ..)).bind fun connectors => ?_
  split
  · exact Prog.leaves_pure
  · exact Prog.leaves_pure

theorem handleConnectorTemplateList_leaves :
    (handleConnectorTemplateList ctx args).Leaves AgentState.rows := by
  refine onConfigService_leaves fun service hservice => ?_
  refine (onConfig_leaves ((hconfig service hservice).listConnectorTemplates ..)).bind
    fun templates => ?_
  split
  · exact Prog.leaves_pure
  · exact Prog.leaves_pure

theorem handleConnectorDetect_leaves : (handleConnectorDetect ctx args).Leaves AgentState.rows := by
  refine onConfigService_leaves fun service hservice => ?_
  refine (onConfig_leaves ((hconfig service hservice).detectConnectors ..)).bind
    fun candidates => ?_
  split
  · exact Prog.leaves_pure
  · exact Prog.leaves_pure

theorem handleConnectorTest_leaves : (handleConnectorTest ctx args).Leaves AgentState.rows := by
  refine onConfigService_leaves fun service hservice => ?_
  split
  · exact Prog.leaves_pure
  · refine (onConfig_leaves ((hconfig service hservice).testConnector ..)).bind fun result => ?_
    split
    · exact Prog.leaves_pure
    · exact Prog.leaves_pure

theorem handleSettingGet_leaves : (handleSettingGet ctx args).Leaves AgentState.rows := by
  refine onConfigService_leaves fun service hservice => ?_
  split
  · exact Prog.leaves_pure
  · split
    · exact Prog.leaves_pure
    · refine (onConfig_leaves ((hconfig service hservice).getSetting ..)).bind fun value => ?_
      split
      · exact Prog.leaves_pure
      · exact Prog.leaves_pure

theorem handleConnectorPropose_leaves :
    (handleConnectorPropose ctx args).Leaves AgentState.artifacts := by
  unfold handleConnectorPropose
  split
  · exact Prog.leaves_pure
  · refine onConfigService_leaves fun service hservice => ?_
    split
    · exact Prog.leaves_pure
    · refine Prog.Leaves.bind ?_ fun draft => Prog.leaves_pure
      refine Prog.Leaves.zoom _ ((hconfig service hservice).proposeConnector _) ?_
      intro t c h
      show (t.session.rows, c.rows) = _
      rw [h]
      rfl

end Services

section Plans

variable {κ δ : Type} {ctx : ToolContext κ δ} {drawn : DrawnTool} {args : Json.Record}

theorem createPlanCommon_leaves {rescueForPlanId : Option String} :
    (createPlanCommon ctx drawn args rescueForPlanId).Leaves AgentState.artifacts := by
  unfold createPlanCommon
  dsimp only
  iterate 3
    split
    · exact Prog.leaves_pure
  split
  · exact Prog.leaves_pure
  · split
    · exact Prog.leaves_pure
    · split
      · exact Prog.leaves_pure
      · refine (onPlans_leaves _).bind fun _ => ?_
        split
        · exact Prog.leaves_pure
        · exact Prog.leaves_pure

theorem handleRemediationPlanCreate_leaves :
    (handleRemediationPlanCreate ctx drawn args).Leaves AgentState.artifacts :=
  createPlanCommon_leaves

theorem handleRemediationPlanCreateRescue_leaves :
    (handleRemediationPlanCreateRescue ctx drawn args).Leaves AgentState.artifacts := by
  unfold handleRemediationPlanCreateRescue
  dsimp only
  split
  · exact Prog.leaves_pure
  · split
    · exact createPlanCommon_leaves
    · refine (onPlans_leaves _).bind fun parent => ?_
      split
      · exact Prog.leaves_pure
      · exact createPlanCommon_leaves

theorem handleOpsRunCommand_leaves {ρ : Type} {f : AgentState κ δ → ρ}
    (h : ∀ runner ∈ ctx.opsCommandRunner, ∀ c : OpsCommand, c.intent = opsIntent args →
      ((runner.runCommand c).zoom AgentState.plansPart).Leaves f) :
    (handleOpsRunCommand ctx args).Leaves f := by
  unfold handleOpsRunCommand
  dsimp only
  split
  · exact Prog.leaves_pure
  · rename_i runner hrunner
    iterate 2
      split
      · exact Prog.leaves_pure
    split
    · exact Prog.leaves_pure
    · exact (h runner hrunner _ rfl).bind fun _ => Prog.leaves_pure

theorem inspection_leaves (hops : ∀ runner ∈ ctx.opsCommandRunner, runner.Documented)
    (hread : opsIntent args = "read") : (handleOpsRunCommand ctx args).Leaves AgentState.rows := by
  refine handleOpsRunCommand_leaves fun runner hrunner c hintent => ?_
  refine Prog.Leaves.zoom _ (hops runner hrunner c (hintent.trans hread)) ?_
  intro t w h
  obtain ⟨hplans, happrovals⟩ := Prod.mk.inj h
  show (t.artifacts, w.plans, w.approvals, t.config.drafts) = _
  rw [hplans, happrovals]
  rfl

end Plans

/-! ## Dispatch -/

section Dispatch

variable {κ δ : Type} {ctx : ToolContext κ δ} {drawn : DrawnTool} {action : String}
  {args : Json.Record}

theorem onSession_leaves {handler : Prog Session String} (h : handler.Leaves Session.rows) :
    (onSession handler : Prog (AgentState κ δ) (Option String)).Leaves AgentState.rows := by
  refine Prog.Leaves.map (Prog.Leaves.zoom _ h ?_)
  intro t s hs
  show ((s.rows, t.config.rows), t.proposals) = _
  rw [hs]
  rfl

theorem leaves_artifacts {α : Type} {p : Prog (AgentState κ δ) α} (h : p.Leaves AgentState.rows) :
    p.Leaves AgentState.artifacts :=
  h.of_reading Prod.fst

theorem handleMetricExplore_leaves :
    (handleMetricExplore drawn ctx args).Leaves AgentState.rows := by
  unfold handleMetricExplore
  dsimp only
  split
  · exact Prog.leaves_pure
  · refine Prog.leaves_read.bind fun pins => ?_
    split
    · exact Prog.leaves_pure
    · split
      · exact Prog.leaves_pure
      · exact Prog.leaves_pure

variable (hconfig : ∀ service ∈ ctx.configService, service.Documented)

include hconfig

theorem dispatchUngated_leaves :
    (dispatchUngated ctx drawn action args).Leaves AgentState.rows := by
  unfold dispatchUngated
  split
  · refine Prog.Leaves.map ?_
    unfold handleNavigate
    dsimp only
    iterate 2
      split
      · exact Prog.leaves_pure
    refine Prog.Leaves.bind (Prog.leaves_write ?_) fun _ => Prog.leaves_pure
    exact fun _ => rfl
  split
  · refine Prog.Leaves.map ?_
    unfold handleConnectorsList
    dsimp only
    split
    · exact Prog.leaves_pure
    · exact Prog.leaves_pure
  split
  · exact Prog.leaves_pure.map
  split
  · refine Prog.Leaves.map ?_
    unfold handleConnectorsPin
    dsimp only
    split
    · exact Prog.leaves_pure
    · refine Prog.Leaves.bind (Prog.leaves_write ?_) fun _ => Prog.leaves_pure
      exact fun _ => rfl
  split
  · refine Prog.Leaves.map (Prog.leaves_read.bind fun pins => ?_)
    split
    · refine Prog.Leaves.bind (Prog.leaves_write ?_) fun _ => Prog.leaves_pure
      exact fun _ => rfl
    · exact Prog.leaves_pure
  split
  · exact Prog.Leaves.map (handleConnectorList_leaves hconfig)
  split
  · exact Prog.Leaves.map (handleConnectorTemplateList_leaves hconfig)
  split
  · exact Prog.Leaves.map (handleConnectorDetect_leaves hconfig)
  split
  · exact Prog.leaves_pure
  · exact Prog.leaves_pure

theorem dispatchAction_reads (h : (AgentTool.ofName action).effect = .reads) :
    (dispatchAction ctx drawn action args).Leaves AgentState.rows := by
  have hmetrics : ∀ {handler : MetricsAdapter → String → String},
      (onMetricsQuery drawn args fun adapter expr => return handler adapter expr).Leaves
        Session.rows := onMetricsQuery_leaves fun _ _ => Prog.leaves_pure
  unfold dispatchAction
  dsimp only
  generalize AgentTool.ofName action = tool at h
  cases tool with
  | dashboardList => exact onSession_leaves handleDashboardList_leaves
  | investigationList => exact onSession_leaves handleInvestigationList_leaves
  | alertRuleList => exact onSession_leaves handleAlertRuleList_leaves
  | alertRuleHistory => exact onSession_leaves handleAlertRuleHistory_leaves
  | folderList => exact onSession_leaves handleFolderList_leaves
  | metricsQuery => exact onSession_leaves hmetrics
  | metricsRangeQuery => exact onSession_leaves hmetrics
  | metricsDiscover => exact onSession_leaves handleMetricsDiscover_leaves
  | metricsValidate => exact onSession_leaves handleMetricsValidate_leaves
  | metricExplore => exact handleMetricExplore_leaves.map
  | logsQuery => exact onSession_leaves onLogs_leaves
  | logsLabels => exact onSession_leaves onLogs_leaves
  | logsLabelValues => exact onSession_leaves onLogs_leaves
  | changesListRecent => exact onSession_leaves handleChangesListRecent_leaves
  | connectorTest => exact Prog.Leaves.map (handleConnectorTest_leaves hconfig)
  | settingGet => exact Prog.Leaves.map (handleSettingGet_leaves hconfig)
  | webSearch => exact onSession_leaves handleWebSearch_leaves
  | dashboardRearrange => exact Prog.leaves_pure
  | ungated name => exact dispatchUngated_leaves hconfig
  | unknown name => exact Prog.leaves_pure
  | _ => cases h

theorem dispatchAction_proposes (h : (AgentTool.ofName action).effect = .proposes) :
    (dispatchAction ctx drawn action args).Leaves AgentState.artifacts := by
  unfold dispatchAction
  dsimp only
  generalize AgentTool.ofName action = tool at h
  cases tool with
  | remediationPlanCreate =>
    refine Prog.Leaves.map ?_
    exact handleRemediationPlanCreate_leaves
  | remediationPlanCreateRescue =>
    refine Prog.Leaves.map ?_
    exact handleRemediationPlanCreateRescue_leaves
  | opsRunCommand =>
    exact Prog.Leaves.map (handleOpsRunCommand_leaves fun runner _ c _ => onPlans_leaves _)
  | connectorPropose => exact Prog.Leaves.map (handleConnectorPropose_leaves hconfig)
  | _ => cases h

end Dispatch

/-! ## Calls -/

section Calls

variable {κ δ : Type} {ctx : ToolContext κ δ} {call : ToolCall}

theorem emit_leaves {e : RunnerEvent} :
    (emit e : Prog (AgentState κ δ) Unit).Leaves AgentState.rows :=
  Prog.leaves_write fun _ => rfl

theorem dispatch_leaves {ρ : Type} {f : AgentState κ δ → ρ}
    (hemit : ∀ e : RunnerEvent, (emit e : Prog (AgentState κ δ) Unit).Leaves f)
    (h : (dispatchAction ctx call.drawn call.action call.args).Leaves f) :
    (dispatch ctx call).Leaves f :=
  (hemit _).bind fun _ => h.tryCatch fun _ => (hemit _).bind fun _ => (hemit _).bind
    fun _ => Prog.leaves_pure

variable (hconfig : ∀ service ∈ ctx.configService, service.Documented)

include hconfig

theorem dispatch_reads (hops : ∀ runner ∈ ctx.opsCommandRunner, runner.Documented)
    (h : call.effect = .reads) : (dispatch ctx call).Leaves AgentState.rows := by
  refine dispatch_leaves (fun _ => emit_leaves) ?_
  unfold ToolCall.effect at h
  split at h
  · rename_i hop
    unfold dispatchAction
    rw [hop.1]
    exact Prog.Leaves.map (inspection_leaves hops hop.2)
  · exact dispatchAction_reads hconfig h

theorem dispatch_artifacts (hops : ∀ runner ∈ ctx.opsCommandRunner, runner.Documented)
    (h : call.effect ≠ .mutates) : (dispatch ctx call).Leaves AgentState.artifacts := by
  cases heffect : call.effect with
  | reads => exact leaves_artifacts (dispatch_reads hconfig hops heffect)
  | proposes =>
    refine dispatch_leaves (fun _ => leaves_artifacts emit_leaves) ?_
    refine dispatchAction_proposes hconfig ?_
    unfold ToolCall.effect at heffect
    split at heffect
    · cases heffect
    · exact heffect
  | mutates => exact absurd heffect h

end Calls

end OpenObs.Agent
