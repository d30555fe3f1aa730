import Mathlib.Data.List.Infix
import OpenObs.Dashboards.Executor
import OpenObs.Dashboards.Layout

/-!
# Sessions

What one agent session holds beside the tables: the dashboard and the
investigation it works on, the dashboards it created, what its reading tools have
found, and what it has sent to the page. The loop of a session is serial, so its
calls run one after the other on this state.
-/

namespace OpenObs.Agent

open OpenObs.Foundation OpenObs.Resources OpenObs.Rules OpenObs.Dashboards

/-- A row of `investigations`. -/
structure Investigation where
  id : String
  sessionId : String := ""
  userId : String := ""
  intent : String
  status : String := "planning"
  workspaceId : Option String := none
  archived : Bool := false
  createdAt : String := ""
  updatedAt : String := ""

structure InvestigationReportSection where
  type : String
  content : String
  panel : Option Json := none

/-- A row of `investigation_reports`; `dashboardId` is the investigation. -/
structure SavedInvestigationReport where
  id : String
  dashboardId : String
  goal : String
  summary : String
  sections : List InvestigationReportSection
  createdAt : String

/-- What `dashboard_add_panels` asks the reading tools to have done first. -/
structure BuildEvidence where
  webSearchCount : ℕ := 0
  metricDiscoveryCount : ℕ := 0
  validatedQueries : List String := []

structure Session where
  tables : Tables
  investigations : List Investigation := []
  investigationReports : List SavedInvestigationReport := []
  pendingChanges : List (String × PendingDashboardChange) := []
  activeDashboardId : Option String := none
  freshlyCreatedDashboards : List String := []
  dashboardBuildEvidence : BuildEvidence := {}
  activeInvestigationId : Option String := none
  investigationSections : List (String × List InvestigationReportSection) := []
  events : List DashboardSseEvent := []

namespace Session

def db : Part Session Tables where
  get := Session.tables
  set t s := { s with tables := t }
  get_set _ _ := rfl
  set_get _ := rfl
  set_set _ _ _ := rfl

def opened (t : Tables) (investigations : List Investigation) : Session where
  tables := t
  investigations := investigations

end Session

/-- `ctx.sendEvent`. -/
def sendEvent (e : DashboardSseEvent) : Prog Session Unit :=
  Prog.write fun s => { s with events := s.events ++ [e] }

/-- What the handlers leave to the platform: binding, upper and lower case, dates, the JSON
printer, and what the metrics backend answers. -/
structure Platform where
  driver : Driver
  toLowerCase : String → String
  getTime : String → Option Int
  stringify : Json → String
  preview : Json → String
  /-- The panel of an evidence section, with a snapshot from the metrics backend. -/
  evidencePanel : Json → Except String Json

structure ActionContext where
  caller : Caller
  sessionId : String
  platform : Platform
  /-- The dashboard store has `appendPendingChanges`. -/
  queuesPending : Bool := false
  /-- The alert-rule store has `getHistory` and `getAllHistory`. -/
  keepsHistory : Bool := false
  /-- A folder backend is configured. -/
  hasFolders : Bool := true

structure DrawnCall where
  dashboardId : String
  panelId : ℕ → String
  changeId : ℕ → String
  now : String

/-- `xs.slice(0, n)`. -/
def sliceTo {α : Type} (n : Int) (xs : List α) : List α :=
  xs.take (if n < 0 then (xs.length + n).toNat else n.toNat)

/-- `s.slice(0, n)`, the first `n` code units; a character the cut would split is left out. -/
def firstUnits : ℕ → List Char → List Char
  | _, [] => []
  | n, c :: cs =>
    if (Text.charUnits c).length ≤ n then c :: firstUnits (n - (Text.charUnits c).length) cs
    else []

def sliceText (n : ℕ) (s : String) : String := String.ofList (firstUnits n s.toList)

/-- `matchesFilter`. -/
def matchesFilter (platform : Platform) (text filter : Option String) : Bool :=
  match Folders.truthy filter with
  | none => true
  | some filter =>
    match Folders.truthy text with
    | none => false
    | some text =>
      decide ((platform.toLowerCase filter).toList <:+: (platform.toLowerCase text).toList)

/-- `accessControl.filterByPermission`. -/
def filterByPermission {α : Type} (ctx : ActionContext) (items : List α) (evaluatorOf : α → Rbac.Evaluator) :
    Prog Session (List α) :=
  Prog.read fun s => items.filter fun item => ctx.caller.allows s.tables (evaluatorOf item)

def listing (what none' filter : String) (filtered total : ℕ) (lines : List String) : String :=
  if filtered = 0 then
    if filter = "" then none'
    else "No " ++ what ++ "s match \"" ++ filter ++ "\" (" ++ toString total ++ " total)."
  else toString filtered ++ " " ++ what ++ "(s)" ++
    (if filter = "" then "" else " matching \"" ++ filter ++ "\"") ++ ":\n" ++
    "\n".intercalate lines

end OpenObs.Agent
