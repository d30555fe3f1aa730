import OpenObs.Agent.Session

/-!
# The dashboard tools

`agent/handlers/dashboard.ts`. The tools work on the active dashboard of the session.
-/

namespace OpenObs.Agent

open OpenObs.Foundation OpenObs.Resources OpenObs.Rules OpenObs.Dashboards

variable (ctx : ActionContext) (drawn : DrawnCall)

def isFreshlyCreated (s : Session) (dashboardId : String) : Bool :=
  decide (dashboardId ∈ s.freshlyCreatedDashboards)

def tryUpdateDashboardStatus (dashboardId status : String) (errorMessage : Option String) :
    Prog Session Unit :=
  tryCatch
    (do
      let _ ← (DashboardRepository.updateStatus drawn.now dashboardId status errorMessage).zoom
        Session.db
      return ())
    fun e => sendEvent
      (.error ("Failed to update dashboard status to \"" ++ status ++ "\": " ++ e))

def queuePending (k : ℕ) (dashboardId summary : String) (op : PendingDashboardChangeOp) :
    Prog Session Unit := do
  let change : PendingDashboardChange :=
    { id := drawn.changeId k, proposedAt := drawn.now, sessionId := ctx.sessionId, summary, op }
  if ctx.queuesPending then
    Prog.write fun s => { s with pendingChanges := s.pendingChanges ++ [(dashboardId, change)] }
  sendEvent (.pendingChangesProposed dashboardId [change])

/-- `actionExecutor.execute` with one action. -/
def executeAction (dashboardId : String) (action : DashboardAction) : Prog Session Unit := do
  let events ← (ActionExecutor.applyAction drawn.now dashboardId action).zoom Session.db
  Prog.write fun s => { s with events := s.events ++ events }

/-! ## Lifecycle -/

def activate (dashboardId : String) : Prog Session Unit :=
  Prog.write fun s => { s with
    activeDashboardId := some dashboardId
    freshlyCreatedDashboards := s.freshlyCreatedDashboards ++ [dashboardId] }

/-- The input of `store.create`. -/
def newDashboard (title description prompt datasourceId : String) : NewDashboard where
  title := title
  description := description
  prompt := prompt
  userId := "agent"
  datasourceIds := [datasourceId]
  workspaceId := some ctx.caller.orgId
  source := some .aiGenerated

def handleDashboardCreate (args : Json.Record) : Prog Session String := do
  let title := stringOr args "title" "Untitled Dashboard"
  let description := stringOr args "description" ""
  let prompt := stringOf (orDefault (Json.field args "prompt")
    (orDefault (Json.field args "description") (.str "")))
  let datasourceId := trimmed (Json.field args "datasourceId")
  if datasourceId = "" then
    return "Error: \"datasourceId\" is required. Call connectors_list (or connectors_suggest) first to choose the primary connector for this dashboard."
  else do
    let dashboard ← (DashboardRepository.create drawn.dashboardId drawn.now
      (newDashboard ctx title description prompt datasourceId)).zoom Session.db
    activate dashboard.id
    return "Created dashboard \"" ++ dashboard.title ++ "\" (id: " ++ dashboard.id ++ ")."

def clonedPanel (targetDatasourceId id : String) (panel : Json) : Json :=
  .obj (assign (spread panel)
    [("id", .str id),
      ("queries", .arr ((arrayOr (member panel "queries")).map fun q =>
        .obj (setField (spread q) "datasourceId" (.str targetDatasourceId))))])

def clonedPanels (targetDatasourceId : String) (panels : List Json) : List Json :=
  panels.zipIdx.map fun p => clonedPanel targetDatasourceId (drawn.panelId p.2) p.1

def handleDashboardClone (args : Json.Record) : Prog Session String := do
  let sourceDashboardId := stringOr args "sourceDashboardId" ""
  let targetDatasourceId := stringOr args "targetDatasourceId" ""
  if sourceDashboardId = "" then return "Error: \"sourceDashboardId\" is required."
  else if targetDatasourceId = "" then return "Error: \"targetDatasourceId\" is required."
  else do
    match ← (DashboardRepository.findById sourceDashboardId).zoom Session.db with
    | none => return "Error: source dashboard " ++ sourceDashboardId ++ " not found."
    | some source =>
      let newTitle := trimmed (Json.field args "newTitle")
      match readable source.panels "queries" with
      | .error e => throw e
      | .ok panels => do
          let created ← (DashboardRepository.create drawn.dashboardId drawn.now
            (newDashboard ctx (if newTitle = "" then source.title ++ " (cloned)" else newTitle)
              source.description source.prompt targetDatasourceId)).zoom Session.db
          let _ ← (DashboardRepository.updatePanels drawn.now created.id
            (clonedPanels drawn targetDatasourceId panels)).zoom Session.db
          let _ ← (DashboardRepository.updateVariables drawn.now created.id
            source.variables).zoom Session.db
          tryUpdateDashboardStatus drawn created.id "ready" none
          activate created.id
          return "Cloned \"" ++ source.title ++ "\" (" ++ toString panels.length ++ " panel" ++
            (if panels.length = 1 then "" else "s") ++ ") to connector " ++
            targetDatasourceId ++ ". New dashboard id: " ++ created.id ++ "."

/-! ## Panels -/

def noActiveDashboard : String := "Error: no active dashboard. Call dashboard_create first."

def onActiveDashboard (handler : String → Prog Session String) : Prog Session String := do
  match Folders.truthy (← Prog.read Session.activeDashboardId) with
  | none => return noActiveDashboard
  | some dashboardId => handler dashboardId

/-- The queries without a `datasourceId`, by where they stand. -/
def missingIn (place : String) (queries : List Json) : List String :=
  queries.zipIdx.filterMap fun q =>
    if trimmed (member q.1 "datasourceId") = "" then
      some (place ++ "queries[" ++ toString q.2 ++ "] (refId=" ++
        stringOf (orDefault (member q.1 "refId") (.str "?")) ++ ")")
    else none

/-- `panels.flatMap((p) => Array.isArray(p.queries) ? p.queries : [])`; a `null` on the way
throws. -/
def allQueries (panels : List Json) : Except String (List Json) := do
  let panels ← readable panels "queries"
  readable (panels.flatMap fun p => arrayOr (member p "queries")) "datasourceId"

def expressions (queries : List Json) : List String :=
  (queries.map fun q => Rbac.trim (stringOf (orDefault (member q "expr") (.str "")))).filter
    (· ≠ "")

/-- What `dashboard_add_panels` says to its arguments; it goes on where it says nothing. -/
def addPanelsComplaint (evidence : BuildEvidence) (panels queries : List Json) : Option String :=
  let missing := (panels.zipIdx.map fun p =>
    missingIn ("panels[" ++ toString p.2 ++ "].") (arrayOr (member p.1 "queries"))).flatten
  let unvalidated := (expressions queries).eraseDups.filter (· ∉ evidence.validatedQueries)
  if missing ≠ [] then
    some ("Error: every query needs a datasourceId. Missing on: " ++ ", ".intercalate missing ++
      ". Pass datasourceId per query — the dashboard primary is NOT inherited automatically. For a single-source dashboard, set every query to the dashboard's primary; for compare panels, set per query.")
  else if expressions queries = [] then none
  else if evidence.webSearchCount = 0 ∧ evidence.metricDiscoveryCount = 0 then
    some "Error: dashboard_add_panels requires prior metric research. Call web_search for named-system/exporter dashboards or metrics_discover for existing metrics before adding panels."
  else if unvalidated ≠ [] then
    some ("Error: validate panel queries before dashboard_add_panels. Call metrics_validate for: " ++
      " | ".intercalate unvalidated)
  else none

/-- What comes of the arguments of `dashboard_add_panels`: a throw, an observation, or the
panels to add. -/
def panelsToAdd (evidence : BuildEvidence) (args : Json.Record) :
    Except String (String ⊕ List Json) :=
  match arrayOr (Json.field args "panels") with
  | [] => .ok (.inl "Error: \"panels\" array is required with at least one panel config.")
  | panel :: panels =>
    match allQueries (panel :: panels) with
    | .error e => .error e
    | .ok queries =>
      match addPanelsComplaint evidence (panel :: panels) queries with
      | some complaint => .ok (.inl complaint)
      | none => .ok (.inr (panel :: panels))

/-- `q.key === true`. -/
def isTrue (v : Option Json) : Bool :=
  match v with
  | some (.bool b) => b
  | _ => false

def rawQuery (q : Json) : Json :=
  .obj ([("refId", .str (stringOf (orDefault (member q "refId") (.str "A")))),
    ("expr", .str (stringOf (orDefault (member q "expr") (.str ""))))] ++
    keepField q "legendFormat" isString ++
    [("instant", .bool (isTrue (member q "instant"))),
      ("datasourceId", .str (trimmed (member q "datasourceId")))])

/-- The annotations with a time and a label; a `null` among them throws. -/
def rawAnnotations (panel : Json) : Except String Json.Record :=
  match member panel "annotations" with
  | some (.arr xs) => do
      let xs ← readable xs "time"
      let kept := xs.filter fun a =>
        ((member a "time").any isNumber) && ((member a "label").any isString)
      return [("annotations", .arr (kept.map fun a =>
        .obj (keepField a "time" isNumber ++ keepField a "label" isString ++
          keepField a "color" isString)))]
  | _ => return []

def panelHints : List (String × (Json → Bool)) :=
  [("unit", isString), ("stackMode", isString), ("fillOpacity", isNumber),
    ("decimals", isNumber), ("thresholds", isArray), ("sparkline", isBoolean),
    ("colorMode", isString), ("graphMode", isString), ("lineWidth", isNumber),
    ("legendStats", isArray), ("legendPlacement", isString), ("colorScale", isString),
    ("showPoints", isString), ("yScale", isString), ("collapseEmptyBuckets", isBoolean),
    ("barGaugeMax", isNumber), ("barGaugeMode", isString)]

def rawPanel (id : String) (p : Json) : Except String Json := do
  let annotations ← rawAnnotations p
  return .obj ([("id", .str id),
    ("title", .str (stringOf (orDefault (member p "title") (.str "Panel")))),
    ("description", .str (stringOf (orDefault (member p "description") (.str "")))),
    ("visualization", orDefault (member p "visualization") (.str "time_series")),
    ("queries", .arr ((arrayOr (member p "queries")).map rawQuery)),
    ("row", .num 0), ("col", .num 0), ("width", .num 6), ("height", .num 3)] ++
    panelHints.flatMap (fun hint => keepField p hint.1 hint.2) ++ annotations)

def rawPanels (panels : List Json) : Except String (List Json) :=
  panels.zipIdx.mapM fun p => rawPanel (drawn.panelId p.2) p.1

def titleOf (panel : Json) : String := (asText (member panel "title")).getD ""

def runAddPanels (dashboardId : String) (panels : List Json) : Prog Session String :=
  match rawPanels drawn panels with
  | .error e => throw e
  | .ok raw => do
      let existing ← (DashboardRepository.findById dashboardId).zoom Session.db
      match readable ((existing.map (·.panels)).getD []) "row" with
      | .error e => throw e
      | .ok stored => do
          let panelConfigs := (applyLayout raw).map (below (startRow stored))
          executeAction drawn dashboardId (.addPanels panelConfigs)
          tryUpdateDashboardStatus drawn dashboardId "ready" none
          Prog.write fun s => { s with events := s.events ++ panelConfigs.map .panelAdded }
          return "Added " ++ toString panelConfigs.length ++ " panel(s): " ++
            ", ".intercalate (panelConfigs.map titleOf)

def handleDashboardAddPanels (args : Json.Record) : Prog Session String :=
  onActiveDashboard fun dashboardId => do
    let evidence ← Prog.read Session.dashboardBuildEvidence
    match panelsToAdd evidence args with
    | .error e => throw e
    | .ok (.inl observation) => return observation
    | .ok (.inr panels) =>
      tryCatch (runAddPanels drawn dashboardId panels) fun e => do
        tryUpdateDashboardStatus drawn dashboardId "failed" (some e)
        throw e

def handleDashboardSetTitle (args : Json.Record) : Prog Session String :=
  onActiveDashboard fun dashboardId => do
    let title := stringOr args "title" ""
    if title = "" then return "Error: \"title\" is required."
    else do
      executeAction drawn dashboardId (.setTitle title (asText (Json.field args "description")))
      return "Title set to \"" ++ title ++ "\"."

/-- `emitToolFailure`. -/
def failingQuietly (p : Prog Session String) : Prog Session String :=
  tryCatch p fun e => return "Error: " ++ e

/-- The proposals of a `dashboard_remove_panels`, one for each panel. -/
def queueRemovals (dashboardId : String) : List (String × ℕ) → Prog Session Unit
  | [] => return ()
  | (panelId, k) :: rest => do
      queuePending ctx drawn k dashboardId ("Remove panel " ++ panelId) (.removePanel panelId)
      queueRemovals dashboardId rest

def handleDashboardRemovePanels (args : Json.Record) : Prog Session String :=
  onActiveDashboard fun dashboardId =>
    let panelIds := (arrayOr (Json.field args "panelIds")).map stringOf
    if panelIds = [] then return "Error: \"panelIds\" array is required."
    else failingQuietly do
      if ← Prog.read (isFreshlyCreated · dashboardId) then
        executeAction drawn dashboardId (.removePanels panelIds)
        Prog.write fun s => { s with events := s.events ++ panelIds.map .panelRemoved }
        return "Removed " ++ toString panelIds.length ++ " panel(s)."
      else
        queueRemovals ctx drawn dashboardId panelIds.zipIdx
        return "Proposed removal of " ++ toString panelIds.length ++
          " panel(s); pending user review."

def handleDashboardModifyPanel (args : Json.Record) : Prog Session String :=
  onActiveDashboard fun dashboardId =>
    let panelId := stringOr args "panelId" ""
    let patch := args.filter (·.1 ≠ "panelId")
    if panelId = "" then return "Error: \"panelId\" is required."
    else
      match readable (arrayOr (Json.field patch "queries")) "datasourceId" with
      | .error e => throw e
      | .ok queries =>
        if missingIn "" queries ≠ [] then
          return "Error: every query needs a datasourceId. Missing on: " ++
            ", ".intercalate (missingIn "" queries) ++
            ". Pass datasourceId per query — not inherited."
        else failingQuietly do
          if ← Prog.read (isFreshlyCreated · dashboardId) then
            executeAction drawn dashboardId (.modifyPanel panelId patch)
            sendEvent (.panelModified panelId patch)
            return "Modified panel " ++ panelId ++ "."
          else
            queuePending ctx drawn 0 dashboardId ("Modify panel " ++ panelId)
              (.modifyPanel panelId patch)
            return "Proposed modification of panel " ++ panelId ++ "; pending user review."

/-- `args.variable`, or the variable the other arguments make. -/
def variableArg (args : Json.Record) : Json :=
  orDefault (Json.field args "variable")
    (.obj ([("name", .str (stringOr args "name" "")),
      ("label", .str (stringOf (orDefault (Json.field args "label")
        (orDefault (Json.field args "name") (.str ""))))),
      ("type", orDefault (Json.field args "type") (.str "query"))] ++
      keepField (.obj args) "query" isString ++
      [("multi", .bool (isTrue (Json.field args "multi"))),
        ("includeAll", .bool (isTrue (Json.field args "includeAll")))]))

def handleDashboardAddVariable (args : Json.Record) : Prog Session String :=
  onActiveDashboard fun dashboardId =>
    let v := variableArg args
    let name := stringOf (orDefault (member v "name") .null)
    if truthyJson (member v "name") = false then return "Error: variable \"name\" is required."
    else failingQuietly do
      if ← Prog.read (isFreshlyCreated · dashboardId) then
        executeAction drawn dashboardId (.addVariable v)
        return "Added variable $" ++ name ++ "."
      else
        queuePending ctx drawn 0 dashboardId ("Add variable $" ++ name) (.addVariable v)
        return "Proposed variable $" ++ name ++ "; pending user review."

/-! ## List -/

def readDashboard (id : String) : Rbac.Evaluator :=
  .action "dashboards:read" ["dashboards:uid:" ++ id]

def dashboardLine (d : Dashboard) : String :=
  "- [" ++ d.id ++ "] \"" ++ d.title ++ "\"" ++
    (if d.description = "" then "" else " — " ++ sliceText 80 d.description)

def handleDashboardList (args : Json.Record) : Prog Session String := do
  let filter := (asText (Json.field args "filter")).getD ""
  let limit := numberOr (Json.field args "limit") 50
  let allRaw ← DashboardRepository.findAll.zoom Session.db
  let all ← filterByPermission ctx allRaw fun d => readDashboard d.id
  let filtered := all.filter fun d =>
    matchesFilter ctx.platform (some d.title) (some filter) ||
      matchesFilter ctx.platform (some d.description) (some filter)
  return listing "dashboard" "No dashboards found." filter filtered.length all.length
    ((sliceTo limit filtered).map dashboardLine)

end OpenObs.Agent
