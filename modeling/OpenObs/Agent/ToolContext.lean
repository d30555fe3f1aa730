import OpenObs.Agent.PermissionGate
import OpenObs.Approvals.Store

/-!
# What the tools work on

The rest of `agent/handlers/_context.ts`: beside the session the rows of plans, approvals,
connectors and settings, the pins, and what the page was told.
-/

namespace OpenObs.Agent

open OpenObs.Foundation OpenObs.Plans OpenObs.Rules

/-! ## Backends -/

structure MetricSample where
  labels : List (String × String)
  value : String

structure RangeResult where
  metric : List (String × String)
  values : List String

inductive RangeWindow : Type where
  | between (start stop : String)
  | last (minutes : Json)

structure MetricsAdapter where
  instantQuery : String → Option String → Except String (List MetricSample)
  rangeQuery : String → RangeWindow → String → Except String (List RangeResult)
  /-- Whether the query is valid, and what is wrong with it. -/
  testQuery : String → Except String (Bool × Option String)
  listLabels : Option String → Except String (List String)
  listLabelValues : String → Except String (List String)
  findSeries : List String → Except String (List String)
  /-- Name, type and help text of the metrics. -/
  fetchMetadata : Option (List String) → Except String (List (String × String × String))
  listMetricNames : Except String (List String)
  /-- The line about the chart of a query, for a time range hint and a kind. -/
  chart : String → Option String → Option String → Except String String

structure LogEntry where
  timestamp : String
  labels : List (String × String)
  message : String

structure LogsQueryResult where
  entries : List LogEntry
  partialResult : Bool
  warnings : List String

structure LogsAdapter where
  query : String → String → String → Option Int → Except String LogsQueryResult
  listLabels : Except String (List String)
  listLabelValues : String → Except String (List String)

structure ChangeRecord where
  time : String
  service : String
  kind : String
  summary : String

structure ConnectorInfo where
  id : String
  name : String
  type : String
  signalType : String
  isDefault : Bool

structure AdapterRegistry where
  infos : List ConnectorInfo
  metrics : String → Option MetricsAdapter
  logs : String → Option LogsAdapter
  changes : String → Option (Int → Option String → Except String (List ChangeRecord))

/-- `adapters.list`. -/
def AdapterRegistry.list (r : AdapterRegistry) (signalType : Option String) : List ConnectorInfo :=
  r.infos.filter fun info => signalType.all (info.signalType = ·)

structure WebSearchResult where
  title : Option String
  snippet : String
  url : Option String

structure ConnectorConfig where
  id : String
  type : String
  environment : Option String
  cluster : Option String
  isDefault : Bool

/-! ## Configuration -/

structure ConfigStore (κ δ : Type) where
  rows : κ
  drafts : δ

structure ConnectorProposal where
  orgId : String
  template : String
  name : String
  config : Json.Record
  scope : Option Json.Record
  isDefault : Bool
  actorUserId : Option String

structure ConnectorDraft where
  draftId : String
  needsCredential : Bool
  capabilityPreview : List String

structure AppliedConnector where
  connectorId : String
  status : String
  capabilities : List String

structure ConnectorTest where
  ok : Bool
  latencyMs : Option String
  capabilities : List String
  error : Option String

/-- `AgentConfigService`; what lists return is printed as it comes. -/
structure ConfigService (κ δ : Type) where
  listConnectors : (orgId : String) → (category capability status : Option String) →
    Prog (ConfigStore κ δ) (List Json)
  listConnectorTemplates : (category capability : Option String) →
    Prog (ConfigStore κ δ) (List Json)
  detectConnectors : (orgId : String) → (template : Option String) →
    Prog (ConfigStore κ δ) (List Json)
  proposeConnector : ConnectorProposal → Prog (ConfigStore κ δ) ConnectorDraft
  applyConnectorDraft : (orgId draftId : String) → (actorUserId : Option String) →
    Prog (ConfigStore κ δ) AppliedConnector
  testConnector : (connectorId orgId : String) → Prog (ConfigStore κ δ) ConnectorTest
  getSetting : (key orgId : String) → Prog (ConfigStore κ δ) (Option String)
  setSetting : (key value orgId : String) → (userId : Option String) →
    Prog (ConfigStore κ δ) Unit

/-- What the interface and the schemas of the tools say of the service: the lists, the probe,
the test and the reading of a setting store nothing, a proposal stores a draft. -/
structure ConfigService.Documented {κ δ : Type} (service : ConfigService κ δ) : Prop where
  listConnectors : ∀ orgId category capability status,
    (service.listConnectors orgId category capability status).Leaves id
  listConnectorTemplates : ∀ category capability,
    (service.listConnectorTemplates category capability).Leaves id
  detectConnectors : ∀ orgId template, (service.detectConnectors orgId template).Leaves id
  proposeConnector : ∀ proposal, (service.proposeConnector proposal).Leaves ConfigStore.rows
  testConnector : ∀ connectorId orgId, (service.testConnector connectorId orgId).Leaves id
  getSetting : ∀ key orgId, (service.getSetting key orgId).Leaves id

/-! ## Ops commands -/

structure OpsConnectorConfig where
  id : String
  namespaces : Option (List String)

structure OpsCommand where
  connectorId : String
  command : String
  intent : String
  sessionId : String

/-- `OpsCommandRunner`: it proposes, and runs, on the rows of plans and approvals. -/
structure OpsCommandRunner where
  listConnectors : Option (List OpsConnectorConfig)
  runCommand : OpsCommand → Prog World Json

/-- A command with intent `read` is an inspection; the connector rejects any other verb. -/
def OpsCommandRunner.Documented (runner : OpsCommandRunner) : Prop :=
  ∀ c : OpsCommand, c.intent = "read" →
    (runner.runCommand c).Leaves fun w => (w.plans, w.approvals)

/-! ## Context and state -/

structure ToolContext (κ δ : Type) extends ActionContext where
  allConnectors : List ConnectorConfig := []
  opsCommandRunner : Option OpsCommandRunner := none
  opsConnectors : Option (List OpsConnectorConfig) := none
  hasRemediationPlans : Bool := false
  approvalRequests : Option Approvals.Runtime := none
  configService : Option (ConfigService κ δ) := none

structure DrawnTool where
  dashboard : DrawnCall
  rule : DrawnRule
  folder : Folders.Drawn
  uuid : String
  now : String
  nowMs : Int
  planId : String
  /-- The date so many milliseconds from now. -/
  later : Int → String
  adapters : AdapterRegistry
  webSearch : Option (String → Int → Except String (List WebSearchResult))
  /-- `Number(v)`; a value that is no whole number is none. -/
  number : Json → Option Int

inductive RunnerEvent : Type where
  | toolBlocked (tool : String) (denial : PermissionDenial)
  | artifactProposed (tool : String) (args : Json.Record)
  | approvalRequired (tool : String) (args : Json.Record) (displayText : String)
  | toolCalled (tool : String)
  | toolCompleted (tool error : String)
  | toolResult (tool summary : String) (success : Bool)

structure AgentState (κ δ : Type) where
  session : Session
  plans : World
  config : ConfigStore κ δ
  sessionConnectorPins : List (String × String) := []
  navigateTo : Option String := none
  emitted : List RunnerEvent := []

namespace AgentState

variable {κ δ : Type}

def sessionPart : Part (AgentState κ δ) Session where
  get := session
  set t s := { s with session := t }
  get_set _ _ := rfl
  set_get _ := rfl
  set_set _ _ _ := rfl

def plansPart : Part (AgentState κ δ) World where
  get := plans
  set w s := { s with plans := w }
  get_set _ _ := rfl
  set_get _ := rfl
  set_set _ _ _ := rfl

def configPart : Part (AgentState κ δ) (ConfigStore κ δ) where
  get := config
  set c s := { s with config := c }
  get_set _ _ := rfl
  set_get _ := rfl
  set_set _ _ _ := rfl

end AgentState

/-! ## Rows -/

structure SessionRows where
  tables : Resources.Tables
  investigations : List Investigation
  investigationReports : List SavedInvestigationReport
  pendingChanges : List (String × Dashboards.PendingDashboardChange)

def Session.rows (s : Session) : SessionRows :=
  ⟨s.tables, s.investigations, s.investigationReports, s.pendingChanges⟩

namespace AgentState

variable {κ δ : Type} (s : AgentState κ δ)

def artifacts : SessionRows × κ := (s.session.rows, s.config.rows)

def proposals : List RemediationPlan × List ApprovalRequest × δ :=
  (s.plans.plans, s.plans.approvals, s.config.drafts)

def rows : (SessionRows × κ) × List RemediationPlan × List ApprovalRequest × δ :=
  (s.artifacts, s.proposals)

end AgentState

end OpenObs.Agent
