import Mathlib.Data.List.Infix
import OpenObs.Agent.ToolContext

/-!
# The reading tools

`handlers/metrics.ts`, `metric-explore.ts`, `logs.ts`, `changes.ts`, `web.ts`, `navigation.ts`,
`connectors.ts` and the list of `folder.ts`. They ask a backend and print what it answers.
-/

namespace OpenObs.Agent

open OpenObs.Foundation OpenObs.Rules

/-! ## Printing -/

/-- The first `n` lines, and how many more there are. -/
def capped (n : ℕ) (sep before after : String) (lines : List String) : String :=
  sep.intercalate (lines.take n) ++
    (if n < lines.length then
      before ++ "... and " ++ toString (lines.length - n) ++ " more" ++ after
    else "")

/-- `labelStr || labels.__name__ || 'series'`. -/
def seriesName (labels : List (String × String)) : String :=
  let labelStr := ", ".intercalate
    ((labels.filter (·.1 ≠ "__name__")).map fun l => l.1 ++ "=\"" ++ l.2 ++ "\"")
  if labelStr ≠ "" then labelStr
  else (Folders.truthy ((labels.find? (·.1 = "__name__")).map (·.2))).getD "series"

def answered {α : Type} (failed : String) (answer : Except String α) (say : α → String) : String :=
  match answer with
  | .error e => failed ++ e
  | .ok a => say a

/-- `String(args.query ?? args.expr ?? '')`. -/
def queryOf (args : Json.Record) : String :=
  stringOf (orDefault (Json.field args "query") (orDefault (Json.field args "expr") (.str "")))

def sourceIdRequired : String :=
  "Error: \"sourceId\" is required. Call connectors_list to see available sources."

/-- What a tool has found out, for `dashboard_add_panels`. -/
def addEvidence (evidence : BuildEvidence → BuildEvidence) : Prog Session Unit :=
  Prog.write fun s => { s with dashboardBuildEvidence := evidence s.dashboardBuildEvidence }

/-! ## Metrics -/

variable (drawn : DrawnTool)

def unknownMetricsSource (sourceId : String) : String :=
  "Error: unknown metrics connector '" ++ sourceId ++
    "'. Call connectors_list to see available sources."

def onMetricsQuery (args : Json.Record) (handler : MetricsAdapter → String → Prog Session String) :
    Prog Session String :=
  let sourceId := stringOr args "sourceId" ""
  if sourceId = "" then return sourceIdRequired
  else
    match drawn.adapters.metrics sourceId with
    | none => return unknownMetricsSource sourceId
    | some adapter =>
      if queryOf args = "" then return "Error: \"query\" is required."
      else handler adapter (queryOf args)

def handleMetricsQuery (args : Json.Record) : Prog Session String :=
  onMetricsQuery drawn args fun adapter expr =>
    return answered "Query failed: "
      (adapter.instantQuery expr (Folders.truthy (asText (Json.field args "time")))) fun results =>
        if results = [] then "Query returned no data."
        else capped 20 "\n" "\n" " series" (results.map fun s => seriesName s.labels ++ ": " ++ s.value)

def rangeWindow (args : Json.Record) : RangeWindow :=
  if truthyJson (Json.field args "start") && truthyJson (Json.field args "end") then
    .between (stringOr args "start" "") (stringOr args "end" "")
  else .last (orDefault (Json.field args "duration_minutes") (.num 60))

def handleMetricsRangeQuery (args : Json.Record) : Prog Session String :=
  onMetricsQuery drawn args fun adapter expr =>
    return answered "Range query failed: "
      (adapter.rangeQuery expr (rangeWindow args) (stringOr args "step" "60s")) fun results =>
        if results = [] then "Range query returned no data."
        else capped 10 "\n" "\n" " series" (results.map fun r =>
          seriesName r.metric ++ ": " ++ toString r.values.length ++ " points, latest=" ++
            r.values.getLast?.getD "N/A")

def DISCOVER_KINDS : List String := ["labels", "values", "series", "metadata", "names"]

def discoverLabels (adapter : MetricsAdapter) (metric : Option String) : Except String String := do
  let labels ← adapter.listLabels metric
  return if labels = [] then
    "No labels found" ++ (match Folders.truthy metric with
      | some metric => " for " ++ metric
      | none => "") ++ "."
    else ", ".intercalate labels

def discoverLabelValues (adapter : MetricsAdapter) (label : String) : Except String String := do
  let values ← adapter.listLabelValues label
  return if values = [] then "No values found for label \"" ++ label ++ "\"."
    else capped 50 ", " " " "" values

def discoverSeries (adapter : MetricsAdapter) (patterns : List String) : Except String String := do
  let series ← adapter.findSeries patterns
  return if series = [] then "No series matched." else capped 50 "\n" "\n" "" series

def discoverMetadata (adapter : MetricsAdapter) (metrics : Option (List String)) :
    Except String String := do
  let entries ← adapter.fetchMetadata metrics
  return if entries = [] then "No metadata available."
    else capped 30 "\n" "\n" "" (entries.map fun m => m.1 ++ " (" ++ m.2.1 ++ "): " ++ m.2.2)

def discoverNames (toLowerCase : String → String) (adapter : MetricsAdapter)
    (filter : Option String) : Except String String := do
  let allNames ← adapter.listMetricNames
  let total := toString allNames.length
  match Folders.truthy filter with
  | none =>
    return if 500 < allNames.length then
      total ++ " metrics available (too many to list). Showing first 50:\n" ++
        "\n".intercalate (allNames.take 50) ++
        "\n\nUse metrics_discover(\x7b sourceId, kind: \"names\", match: \"keyword\" \x7d) to search for specific metrics."
    else if allNames = [] then "No metrics found."
    else total ++ " metrics (" ++ total ++ " total).\n" ++ "\n".intercalate allNames
  | some filter =>
    let matched := allNames.filter fun n => decide (filter.toList <:+: (toLowerCase n).toList)
    let names := matched.take 500
    return if names = [] then
      "No metrics matching \"" ++ filter ++ "\" (" ++ total ++ " total metrics in cluster)."
    else toString names.length ++ " metrics matching \"" ++ filter ++ "\"" ++
      (if 500 < matched.length then
        " (showing first 500 of " ++ toString matched.length ++
          " matches; refine the filter for more)"
      else "") ++ " (" ++ total ++ " total).\n" ++ "\n".intercalate names

def discover (toLowerCase : String → String) (adapter : MetricsAdapter) (kind : String)
    (args : Json.Record) : Except String String :=
  let metric := asText (Json.field args "metric")
  let patterns := (arrayOr (Json.field args "match")).map stringOf
  if kind = "labels" then discoverLabels adapter metric
  else if kind = "values" then discoverLabelValues adapter ((asText (Json.field args "label")).getD "")
  else if kind = "series" then discoverSeries adapter patterns
  else if kind = "metadata" then
    discoverMetadata adapter (match Folders.truthy metric, Json.field args "metrics" with
      | some metric, _ => some [metric]
      | none, some (.arr metrics) => some (metrics.map stringOf)
      | none, _ => none)
  else
    discoverNames toLowerCase adapter
      (match Folders.truthy (asText (Json.field args "match")) with
        | some text => some (toLowerCase text)
        | none => (asText (Json.field args "filter")).map toLowerCase)

/-- What is wrong with the arguments of `metrics_discover`. -/
def discoverComplaint (kind : String) (args : Json.Record) : Option String :=
  if kind = "" then
    some "Error: metrics_discover requires \"kind\" (one of: labels, values, series, metadata, names)."
  else if kind ∉ DISCOVER_KINDS then
    some ("Error: metrics_discover received unknown kind \"" ++ kind ++
      "\". Expected one of: labels, values, series, metadata, names.")
  else if kind = "values" ∧ Folders.truthy (asText (Json.field args "label")) = none then
    some "Error: metrics_discover with kind=\"values\" requires \"label\"."
  else if kind = "series" ∧
      Folders.truthy ((arrayOr (Json.field args "match")).map stringOf).head? = none then
    some "Error: metrics_discover with kind=\"series\" requires \"match\" (non-empty array of selectors)."
  else none

def handleMetricsDiscover (ctx : ActionContext) (args : Json.Record) : Prog Session String :=
  let sourceId := (asText (Json.field args "sourceId")).getD ""
  let kind := (asText (Json.field args "kind")).getD ""
  if sourceId = "" then
    return "Error: metrics_discover requires \"sourceId\". Call connectors_list to see available sources."
  else
    match discoverComplaint kind args, drawn.adapters.metrics sourceId with
    | some complaint, _ => return complaint
    | none, none => return unknownMetricsSource sourceId
    | none, some adapter =>
      match discover ctx.platform.toLowerCase adapter kind args with
      | .error e => return "metrics_discover (" ++ kind ++ ") failed: " ++ e
      | .ok observation => do
          addEvidence fun e => { e with metricDiscoveryCount := e.metricDiscoveryCount + 1 }
          return observation

def validated (adapter : MetricsAdapter) (expr : String) : Except String Unit := do
  let (ok, error) ← adapter.testQuery expr
  if ok then
    let _ ← adapter.rangeQuery expr (.last (.num 5)) "60s"
    return ()
  else throw (error.getD "unknown error")

def handleMetricsValidate (args : Json.Record) : Prog Session String :=
  onMetricsQuery drawn args fun adapter expr =>
    match validated adapter expr with
    | .error e => return "Invalid query: " ++ e
    | .ok () => do
        addEvidence fun e => { e with validatedQueries := e.validatedQueries ++ [expr] }
        return "Valid query: " ++ expr

def resolveDatasourceId (connectors : List ConnectorConfig) (pin : Option String)
    (explicit : Option String) : Option String :=
  let metrics := connectors.filter fun c => c.type = "prometheus" ∨ c.type = "victoria-metrics"
  (Folders.truthy explicit).or ((Folders.truthy pin).or
    (((metrics.find? (·.isDefault)).or metrics.head?).map (·.id)))

def handleMetricExplore {κ δ : Type} (ctx : ToolContext κ δ) (args : Json.Record) :
    Prog (AgentState κ δ) String := do
  let query := trimmed (Json.field args "query")
  if query = "" then return "Error: \"query\" is required."
  else do
    let pins ← Prog.read AgentState.sessionConnectorPins
    match resolveDatasourceId ctx.allConnectors
        ((pins.find? (·.1 = "prometheus")).map (·.2)) (asText (Json.field args "datasourceId")) with
    | none =>
      return "Error: no metrics datasource available. Call connectors_list to see what is configured."
    | some datasourceId =>
      match drawn.adapters.metrics datasourceId with
      | none => return "Error: unknown metrics connector '" ++ datasourceId ++ "'."
      | some adapter =>
        return answered "metric_explore failed: "
          (adapter.chart query (asText (Json.field args "timeRangeHint"))
            (asText (Json.field args "metricKind"))) id

/-! ## Logs, changes and the web -/

def unknownLogsSource (sourceId : String) : String :=
  "Error: unknown logs connector '" ++ sourceId ++
    "'. Call connectors_list to see available sources."

def onLogs (args : Json.Record) (handler : LogsAdapter → String) : Prog Session String :=
  let sourceId := stringOr args "sourceId" ""
  if sourceId = "" then return sourceIdRequired
  else
    match drawn.adapters.logs sourceId with
    | none => return unknownLogsSource sourceId
    | some adapter => return handler adapter

def linesWithin : ℕ → List String → List String
  | _, [] => []
  | room, line :: lines =>
    let length := (Text.units line.toList).length
    if room < length then [] else line :: linesWithin (room - (length + 1)) lines

def logLine (e : LogEntry) : String :=
  let labelStr := ",".intercalate (e.labels.map fun l => l.1 ++ "=" ++ l.2)
  "[" ++ e.timestamp ++ "]" ++ (if labelStr = "" then "" else " \x7b" ++ labelStr ++ "\x7d") ++
    " " ++ e.message

def LogsQueryResult.text (result : LogsQueryResult) : String :=
  let lines := linesWithin 2000 (result.entries.map logLine)
  let total := toString result.entries.length
  if result.entries = [] then "Logs query returned no entries."
  else
    (if lines.length < result.entries.length then
      toString lines.length ++ " of " ++ total ++ " log entries (truncated):"
    else total ++ " log entries:") ++ "\n" ++ "\n".intercalate lines ++
    (if result.partialResult then
      "\n(Backend indicated results were partial — narrow the time window or add filters for completeness.)"
    else "") ++
    (if result.warnings = [] then "" else "\nWarnings: " ++ "; ".intercalate result.warnings)

def handleLogsQuery (ctx : ActionContext) (args : Json.Record) : Prog Session String :=
  onLogs drawn args fun adapter =>
    let query := stringOr args "query" ""
    let start := stringOr args "start" ""
    let stop := stringOr args "end" ""
    let limit := match Json.field args "limit" with
      | some (.num n) => some (max 1 (min 1000 n))
      | _ => none
    if query = "" then "Error: \"query\" is required (backend-native — e.g. LogQL for Loki)."
    else if truthyJson (Json.field args "start") = false ∨
        truthyJson (Json.field args "end") = false then
      "Error: \"start\" and \"end\" (ISO-8601 timestamps) are required."
    else if ctx.platform.getTime start = none ∨ ctx.platform.getTime stop = none then
      "Error: \"start\" / \"end\" must be valid ISO-8601 timestamps."
    else answered "Logs query failed: " (adapter.query query start stop limit) LogsQueryResult.text

def handleLogsLabels (args : Json.Record) : Prog Session String :=
  onLogs drawn args fun adapter =>
    answered "Failed to list log labels: " adapter.listLabels fun labels =>
      if labels = [] then "No log labels available." else ", ".intercalate labels

def handleLogsLabelValues (args : Json.Record) : Prog Session String :=
  onLogs drawn args fun adapter =>
    let label := stringOr args "label" ""
    if label = "" then "Error: \"label\" is required."
    else answered "Failed to list log label values: " (adapter.listLabelValues label) fun values =>
      if values = [] then "No values found for label \"" ++ label ++ "\"."
      else capped 50 ", " " " "" values

def windowMinutes (args : Json.Record) : Int :=
  numberOr (Json.field args "window_minutes") (numberOr (Json.field args "windowMinutes") 60)

/-- What `changes_list_recent` says of the changes of a service, or of all. -/
def changesText (service : Option String) (minutes : Int) (records : List ChangeRecord) : String :=
  let of := match service with
    | some service => " for " ++ service
    | none => ""
  if records = [] then
    "No changes" ++ of ++ " in the last " ++ toString minutes ++ " minute(s)."
  else toString records.length ++ " change(s)" ++ of ++ " in last " ++ toString minutes ++ "m:\n" ++
    capped 30 "\n" "\n" "" (records.map fun r =>
      "- [" ++ r.time ++ "] " ++ r.service ++ " (" ++ r.kind ++ "): " ++ r.summary)

def handleChangesListRecent (args : Json.Record) : Prog Session String :=
  let sourceId := (Folders.truthy (asText (Json.field args "sourceId"))).or
    ((drawn.adapters.list (some "changes")).head?.map (·.id))
  let service := Folders.truthy (asText (Json.field args "service"))
  match Folders.truthy sourceId with
  | none =>
    return "No change-event connector configured. Call connectors_list to see available sources."
  | some sourceId =>
    match drawn.adapters.changes sourceId with
    | none => return "Error: unknown changes connector '" ++ sourceId ++
        "'. Call connectors_list to see available sources."
    | some listRecent =>
      return answered "Failed to list recent changes: "
        (listRecent (windowMinutes args) service) (changesText service (windowMinutes args))

def searchLine (r : WebSearchResult) : String :=
  r.title.getD "Result" ++ ": " ++ r.snippet ++ (match Folders.truthy r.url with
    | some url => " (" ++ url ++ ")"
    | none => "")

/-- `max_results`, a positive number up to 50. -/
def maxResults (args : Json.Record) : Int :=
  match orDefault (Json.field args "max_results")
      (orDefault (Json.field args "maxResults") (.num 8)) with
  | .num n => if 0 < n then min n 50 else 8
  | _ => 8

def badMaxResults (args : Json.Record) : Bool :=
  match Json.field args "max_results" with
  | none => false
  | some (.num n) => decide (n ≤ 0)
  | some _ => true

def handleWebSearch (args : Json.Record) : Prog Session String :=
  let query := trimmed (Json.field args "query")
  match drawn.webSearch with
  | none => return "Error: No web search adapter configured."
  | some search =>
    if query = "" then return "Error: \"query\" is required and must be a non-empty string."
    else if badMaxResults args then
      return "Error: \"max_results\" must be a finite positive number."
    else
      match search query (maxResults args) with
      | .error e => return "Web search failed: " ++ e
      | .ok [] => return "No results found."
      | .ok (result :: results) => do
          addEvidence fun e => { e with webSearchCount := e.webSearchCount + 1 }
          return "\n\n".intercalate ((result :: results).map searchLine)

/-! ## Folders -/

/-- `folderRepository.list`: `ORDER BY title LIMIT`; a negative limit is none. -/
def listFolders (orgId : String) (parentUid : Option String) (limit : Int)
    (t : Resources.Tables) : List Resources.Folder :=
  if limit < 0 then t.listChildren orgId parentUid
  else (t.listChildren orgId parentUid).take limit.toNat

def readFolder (f : Resources.Folder) : Rbac.Evaluator :=
  .action "folders:read" ["folders:uid:" ++ f.uid]

def folderLine (f : Resources.Folder) : String :=
  "- " ++ f.title ++ " (uid=" ++ f.uid ++ ")" ++ (match Folders.truthy f.parentUid with
    | some parentUid => ", parent=" ++ parentUid
    | none => "")

def handleFolderList (ctx : ActionContext) (args : Json.Record) : Prog Session String :=
  let parentUid := asText (Json.field args "parentUid")
  if ctx.hasFolders = false then
    return "Error: folder backend not configured on this deployment."
  else
    match drawn.number (orDefault (Json.field args "limit") (.num 50)) with
    | none => throw "datatype mismatch"
    | some limit => do
        let items ← (Prog.read (listFolders ctx.caller.orgId parentUid (min limit 200))).zoom
          Session.db
        let visible ← filterByPermission ctx items readFolder
        if visible = [] then
          return "No folders visible to you" ++ (match Folders.truthy parentUid with
            | some parentUid => " under " ++ parentUid ++ "."
            | none => ".")
        else
          return toString visible.length ++ " folders:\n" ++
            "\n".intercalate ((visible.take 20).map folderLine) ++
            (if 20 < visible.length then
              "\n... and " ++ toString (visible.length - 20) ++ " more folders"
            else "")

/-! ## The page and the connectors of the session -/

section Connectors

variable {κ δ : Type} (ctx : ToolContext κ δ)

def handleNavigate (args : Json.Record) : Prog (AgentState κ δ) String :=
  let path := stringOr args "path" ""
  if path = "" then
    return "Error: \"path\" is required (e.g., \"/dashboards/<id>\", \"/investigations/<id>\", \"/alerts\")."
  else if Text.startsWith path "/" = false then return "Error: \"path\" must start with \"/\"."
  else do
    Prog.write fun s => { s with navigateTo := some path }
    return "Navigating to " ++ path ++ "."

def handleConnectorsList (args : Json.Record) : Prog (AgentState κ δ) String :=
  let signalType := (asText (Json.field args "signalType")).filter
    (· ∈ ["metrics", "logs", "changes"])
  let infos := drawn.adapters.list signalType
  if infos = [] then
    return "No " ++ (match signalType with
      | some signalType => signalType ++ " "
      | none => "") ++ "connectors are configured."
  else return "\n".intercalate (infos.map fun d =>
    "id: " ++ d.id ++ " (" ++ d.type ++ ", " ++ d.signalType ++ ")" ++
      (if d.isDefault then " — default" else ""))

structure ConnectorView where
  id : String
  name : String
  type : String
  environment : Option String
  cluster : Option String
  isDefault : Bool

def listConnectorViews (type : Option String) : List ConnectorView :=
  let views := (drawn.adapters.list none).map fun info =>
    let cfg := (ctx.allConnectors.filter (·.id = info.id)).getLast?
    { id := info.id, name := info.name, type := info.type, isDefault := info.isDefault,
      environment := Folders.truthy (cfg.bind (·.environment)),
      cluster := Folders.truthy (cfg.bind (·.cluster)) : ConnectorView }
  match type with
  | none => views
  | some type => views.filter fun v =>
    ctx.platform.toLowerCase v.type = ctx.platform.toLowerCase type

structure SuggestResult where
  recommendedId : Option String
  name : Option String
  reason : String
  confidence : String
  alternatives : List ConnectorView

def ConnectorView.json (v : ConnectorView) : Json :=
  let optional (key : String) (value : Option String) : Json.Record :=
    match value with
    | some value => [(key, .str value)]
    | none => []
  .obj ([("id", .str v.id), ("name", .str v.name)] ++ optional "environment" v.environment ++
    optional "cluster" v.cluster)

def SuggestResult.json (r : SuggestResult) : Json :=
  let orNull (v : Option String) : Json := (v.map Json.str).getD .null
  .obj [("recommendedId", orNull r.recommendedId), ("name", orNull r.name),
    ("reason", .str r.reason), ("confidence", .str r.confidence),
    ("alternatives", .arr (r.alternatives.map ConnectorView.json))]

def toAlternatives (views : List ConnectorView) (excludeId : Option String) : List ConnectorView :=
  (views.filter fun v => some v.id ≠ excludeId).take 5

def mentioned (intent : String) (v : ConnectorView) : List String :=
  let mentions (what : String) (value : Option String) : List String :=
    match Folders.truthy value with
    | none => []
    | some value =>
      if (ctx.platform.toLowerCase value).toList <:+: intent.toList then
        [what ++ " \"" ++ value ++ "\""]
      else []
  mentions "name" (some v.name) ++ mentions "environment" v.environment ++
    mentions "cluster" v.cluster

def buildSuggestion (first : ConnectorView) (views : List ConnectorView) (userIntent : String) :
    SuggestResult :=
  let intent := ctx.platform.toLowerCase userIntent
  match (first :: views).find? fun v => intent ≠ "" ∧ mentioned ctx intent v ≠ [] with
  | some chosen =>
    ⟨some chosen.id, some chosen.name,
      "User intent mentioned " ++ ", ".intercalate (mentioned ctx intent chosen) ++ ".", "high",
      toAlternatives (first :: views) (some chosen.id)⟩
  | none =>
    match (first :: views).find? (·.isDefault) with
    | some dflt => ⟨some dflt.id, some dflt.name,
        "No explicit hint; picked the default connector.", "medium",
        toAlternatives (first :: views) (some dflt.id)⟩
    | none =>
      if views ≠ [] then
        ⟨none, none, "AMBIGUOUS — call ask_user", "low", toAlternatives (first :: views) none⟩
      else ⟨some first.id, some first.name, "no clear hint, picked first", "low", []⟩

/-- `typeof args.type === 'string' && args.type.trim() !== '' ? args.type.trim() : …`. -/
def trimmedType (args : Json.Record) : Option String :=
  Folders.truthy (some (trimmed (Json.field args "type")))

def handleConnectorsSuggest (args : Json.Record) : Prog (AgentState κ δ) String :=
  let type := trimmedType args
  let result : SuggestResult := match listConnectorViews drawn ctx type with
    | [] => ⟨none, none, "No connectors " ++ (match type with
        | some type => "of type \"" ++ type ++ "\" "
        | none => "") ++ "are configured.", "low", []⟩
    | first :: views =>
      buildSuggestion ctx first views ((asText (Json.field args "userIntent")).getD "")
  return ctx.platform.stringify result.json

def withPin (type connectorId : String) (pins : List (String × String)) : List (String × String) :=
  if type ∈ pins.map (·.1) then pins.map fun p => if p.1 = type then (type, connectorId) else p
  else pins ++ [(type, connectorId)]

def handleConnectorsPin (args : Json.Record) : Prog (AgentState κ δ) String :=
  let connectorId := trimmed (Json.field args "connectorId")
  let type := (trimmedType args).getD "prometheus"
  if connectorId = "" then return "Error: \"connectorId\" is required."
  else do
    Prog.write fun s =>
      { s with sessionConnectorPins := withPin type connectorId s.sessionConnectorPins }
    return "Pinned " ++ type ++ " connector to " ++ connectorId ++ " for this session."

def handleConnectorsUnpin (args : Json.Record) : Prog (AgentState κ δ) String := do
  let type := (trimmedType args).getD "prometheus"
  let pins ← Prog.read AgentState.sessionConnectorPins
  if type ∈ pins.map (·.1) then
    Prog.write fun s =>
      { s with sessionConnectorPins := s.sessionConnectorPins.filter (·.1 ≠ type) }
    return "Unpinned " ++ type ++ " connector for this session."
  else return "No " ++ type ++ " connector was pinned."

end Connectors

end OpenObs.Agent
