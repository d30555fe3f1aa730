import OpenObs.Agent.Values
import OpenObs.Dashboards.Repository

/-!
# The action executor

`agent/action-executor.ts`: one dashboard action applied to one stored dashboard.
The executor reads the row, refuses a provisioned one, computes the new panels or
variables from what it read and writes them. It does not ask who created the
dashboard.
-/

namespace OpenObs.Dashboards

open OpenObs.Foundation OpenObs.Resources OpenObs.Rules OpenObs.Agent

structure PanelLayout where
  panelId : String
  row : Json
  col : Json
  width : Json
  height : Json

inductive DashboardAction : Type where
  | addPanels (panels : List Json)
  | removePanels (panelIds : List String)
  | modifyPanel (panelId : String) (patch : Json.Record)
  | rearrange (layout : List PanelLayout)
  | addVariable («variable» : Json)
  | setTitle (title : String) (description : Option String)
  | createAlertRule
  | modifyAlertRule
  | deleteAlertRule

inductive PendingDashboardChangeOp : Type where
  | modifyPanel (panelId : String) (patch : Json.Record)
  | removePanel (panelId : String)
  | addVariable («variable» : Json)

structure PendingDashboardChange where
  id : String
  proposedAt : String
  proposedBy : String := "agent"
  sessionId : String
  summary : String
  op : PendingDashboardChangeOp

inductive DashboardSseEvent : Type where
  | panelAdded (panel : Json)
  | panelRemoved (panelId : String)
  | panelModified (panelId : String) (patch : Json.Record)
  | variableAdded («variable» : Json)
  | thinking (content : String)
  | pendingChangesProposed (dashboardId : String) (changes : List PendingDashboardChange)
  | error (message : String)

def notFoundMessage : String := "Dashboard not found"

/-- What `assertWritable` throws. -/
def provisionedMessage (kind id : String) (source : ResourceSource) : String :=
  "Cannot mutate provisioned resource " ++ kind ++ ":" ++ id ++ " (source=" ++ source.text ++
    "). Fork to your workspace, or propose a diff."

def hasId (id : String) (panel : Json) : Bool := asText (member panel "id") = some id

theorem hasId_iff {id : String} {panel : Json} :
    hasId id panel = true ↔ asText (member panel "id") = some id :=
  decide_eq_true_iff

/-- `panels.filter((p) => !panelIds.includes(p.id))`. -/
def withoutPanels (panelIds : List String) (panels : List Json) : List Json :=
  panels.filter fun p => !panelIds.any (hasId · p)

/-- `p.id === panelId ? { ...p, ...patch } : p` on every panel. -/
def patchPanel (panelId : String) (patch : Json.Record) (panels : List Json) : List Json :=
  panels.map fun p => if hasId panelId p then .obj (assign (spread p) patch) else p

def PanelLayout.patch (layout : PanelLayout) : Json.Record :=
  [("row", layout.row), ("col", layout.col), ("width", layout.width), ("height", layout.height)]

def rearranged (layout : List PanelLayout) (panels : List Json) : List Json :=
  panels.map fun p =>
    match layout.find? fun l => hasId l.panelId p with
    | some l => .obj (assign (spread p) l.patch)
    | none => p

namespace ActionExecutor

open DashboardRepository

def updatePanelsWith (now id : String) (panels : List Json)
    (change : List Json → List Json) (events : List DashboardSseEvent) :
    Prog Tables (List DashboardSseEvent) :=
  match readable panels "id" with
  | .error e => throw e
  | .ok panels => do
      let _ ← updatePanels now id (change panels)
      return events

def applyTo (now : String) (dashboard : Dashboard) (id : String) :
    DashboardAction → Prog Tables (List DashboardSseEvent)
  | .addPanels panels => do
      let _ ← updatePanels now id (dashboard.panels ++ panels)
      return panels.map .panelAdded
  | .removePanels panelIds =>
    updatePanelsWith now id dashboard.panels (withoutPanels panelIds)
      ((panelIds.filter fun panelId => dashboard.panels.any (hasId panelId)).map .panelRemoved)
  | .modifyPanel panelId patch =>
    updatePanelsWith now id dashboard.panels (patchPanel panelId patch)
      (if dashboard.panels.any (hasId panelId) then [.panelModified panelId patch] else [])
  | .rearrange layout =>
    updatePanelsWith now id dashboard.panels (rearranged layout)
      (layout.map fun l => .panelModified l.panelId l.patch)
  | .addVariable v => do
      let _ ← updateVariables now id (dashboard.variables ++ [v])
      return [.variableAdded v]
  | .setTitle title description => do
      let _ ← update now id { title := some title, description }
      return [.thinking "Dashboard title updated"]
  | .createAlertRule => return []
  | .modifyAlertRule => return []
  | .deleteAlertRule => return []

def applyAction (now id : String) (action : DashboardAction) :
    Prog Tables (List DashboardSseEvent) := do
  match ← findById id with
  | none => throw notFoundMessage
  | some dashboard =>
    if isProvisioned dashboard.source then
      throw (provisionedMessage "dashboard" dashboard.id dashboard.source)
    else applyTo now dashboard id action

/-! ## What an action leaves alone -/

section Frame

variable {t : Tables} {now id : String}

theorem findDashboardById_updatePanelsWith {panels : List Json} {change : List Json → List Json}
    {events : List DashboardSseEvent} {other : String} (hother : other ≠ id) :
    ((updatePanelsWith now id panels change events).run t).2.findDashboardById other =
      t.findDashboardById other := by
  rw [updatePanelsWith]
  split
  · rfl
  · rw [Prog.run_discard, updatePanels]
    apply findDashboardById_modify _ hother
    exact fun _ _ => rfl

theorem findDashboardById_applyTo {dashboard : Dashboard} {action : DashboardAction}
    {other : String} (hother : other ≠ id) :
    ((applyTo now dashboard id action).run t).2.findDashboardById other =
      t.findDashboardById other := by
  cases action with
  | addPanels panels =>
    rw [applyTo, Prog.run_discard, updatePanels]
    apply findDashboardById_modify _ hother
    exact fun _ _ => rfl
  | removePanels panelIds => exact findDashboardById_updatePanelsWith hother
  | modifyPanel panelId patch => exact findDashboardById_updatePanelsWith hother
  | rearrange layout => exact findDashboardById_updatePanelsWith hother
  | addVariable v =>
    rw [applyTo, Prog.run_discard, updateVariables]
    apply findDashboardById_modify _ hother
    exact fun _ _ => rfl
  | setTitle title description =>
    rw [applyTo, Prog.run_discard, update]
    apply findDashboardById_modify _ hother
    exact fun _ _ => rfl
  | createAlertRule => rfl
  | modifyAlertRule => rfl
  | deleteAlertRule => rfl

theorem findDashboardById_applyAction {action : DashboardAction} {other : String}
    (hother : other ≠ id) :
    ((applyAction now id action).run t).2.findDashboardById other = t.findDashboardById other := by
  rw [applyAction, findById, Prog.run_bind, Prog.run_read]
  cases t.findDashboardById id with
  | none => rfl
  | some row =>
    dsimp only [Option.map_some]
    split
    · rfl
    · exact findDashboardById_applyTo hother

end Frame

end ActionExecutor

end OpenObs.Dashboards
