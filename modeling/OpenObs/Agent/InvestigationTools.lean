import OpenObs.Agent.Session

/-!
# The investigation tools and `folder_create`

`agent/handlers/investigation.ts` and the create of `agent/handlers/folder.ts`.
-/

namespace OpenObs.Agent

open OpenObs.Foundation OpenObs.Resources OpenObs.Rules

variable (ctx : ActionContext)

/-! ## The repository -/

namespace InvestigationRepository

def findById (id : String) : Prog Session (Option Investigation) :=
  Prog.read fun s => s.investigations.find? (·.id = id)

def create (uuid now question : String) : Prog Session Investigation :=
  Prog.attempt fun s =>
    if "inv_" ++ uuid ∈ s.investigations.map (·.id) then
      (.error "UNIQUE constraint failed: investigations.id", s)
    else
      let row : Investigation :=
        { id := "inv_" ++ uuid, sessionId := ctx.sessionId, userId := "agent", intent := question,
          workspaceId := some ctx.caller.orgId, createdAt := now, updatedAt := now }
      (.ok row, { s with investigations := s.investigations ++ [row] })

def updateStatus (now id status : String) : Prog Session Unit := do
  match ← findById id with
  | none => return ()
  | some _ => Prog.write fun s => { s with
      investigations := s.investigations.map fun i =>
        if i.id = id then { i with status, updatedAt := now } else i }

def findAll : Prog Session (List Investigation) :=
  Prog.read fun s => (s.investigations.filter (·.archived = false)).mergeSort
    fun i j => decide (j.createdAt ≤ i.createdAt)

end InvestigationRepository

/-! ## Handlers -/

def handleInvestigationCreate (uuid now : String) (args : Json.Record) : Prog Session String := do
  let question := stringOr args "question" ""
  if question = "" then return "Error: \"question\" is required."
  else do
    let investigation ← InvestigationRepository.create ctx uuid now question
    Prog.write fun s => { s with activeInvestigationId := some investigation.id }
    return "Created investigation \"" ++ sliceText 60 question ++ "\" (id: " ++ investigation.id ++
      ")."

def noActiveInvestigation : String :=
  "Error: no active investigation. Call investigation_create first."

def onActiveInvestigation (handler : String → Prog Session String) : Prog Session String := do
  match Folders.truthy (← Prog.read Session.activeInvestigationId) with
  | none => return noActiveInvestigation
  | some investigationId => handler investigationId

def sectionsOf (s : Session) (investigationId : String) : List InvestigationReportSection :=
  ((s.investigationSections.find? (·.1 = investigationId)).map (·.2)).getD []

/-- `investigationSections.set(id, [...existing, section])`. -/
def addSection (investigationId : String) (added : InvestigationReportSection) (s : Session) :
    Session :=
  { s with investigationSections :=
      s.investigationSections.filter (·.1 ≠ investigationId) ++
        [(investigationId, sectionsOf s investigationId ++ [added])] }

def sectionPanel (sectionType : String) (args : Json.Record) : Except String (Option Json) :=
  match Json.field args "panel" with
  | some (.obj p) =>
    if sectionType = "evidence" then (ctx.platform.evidencePanel (.obj p)).map some else .ok none
  | some (.arr p) =>
    if sectionType = "evidence" then (ctx.platform.evidencePanel (.arr p)).map some else .ok none
  | _ => .ok none

def handleInvestigationAddSection (args : Json.Record) : Prog Session String :=
  onActiveInvestigation fun investigationId =>
    let rawType := orDefault (Json.field args "type") (.str "text")
    let sectionType := (asText (some rawType)).getD ""
    let content := stringOr args "content" ""
    if sectionType ≠ "text" ∧ sectionType ≠ "evidence" then
      return "Error: \"type\" must be \"text\" or \"evidence\" (got " ++
        ctx.platform.stringify rawType ++ ")."
    else if content = "" then return "Error: \"content\" is required."
    else
      match sectionPanel ctx sectionType args with
      | .error e => throw e
      | .ok panel => do
          let count ← Prog.atomic fun s =>
            ((sectionsOf s investigationId).length + 1,
              addSection investigationId ⟨sectionType, content, panel⟩ s)
          return "Added " ++ sectionType ++ " section to investigation " ++ investigationId ++
            " (" ++ toString count ++ " sections total)."

/-- `investigationReportStore.save`: an `INSERT`, or an `UPDATE` where the id is taken. -/
def saveReport (report : SavedInvestigationReport) (s : Session) : Session :=
  if report.id ∈ s.investigationReports.map (·.id) then
    { s with investigationReports := s.investigationReports.map fun r =>
        if r.id = report.id then { report with createdAt := r.createdAt } else r }
  else { s with investigationReports := s.investigationReports ++ [report] }

def completeInvestigation (uuid now investigationId summary : String) :
    Prog Session String := do
  let sections ← Prog.read (sectionsOf · investigationId)
  Prog.write (saveReport ⟨uuid, investigationId, summary, summary, sections, now⟩)
  InvestigationRepository.updateStatus now investigationId "completed"
  Prog.write fun s => { s with
    investigationSections := s.investigationSections.filter (·.1 ≠ investigationId)
    activeInvestigationId := none }
  return "Investigation completed and report saved with " ++ toString sections.length ++
    " sections. Summary: " ++ summary

def handleInvestigationComplete (uuid now : String) (args : Json.Record) : Prog Session String :=
  onActiveInvestigation fun investigationId =>
    let summary := stringOr args "summary" ""
    let notFound := "Error: investigation \"" ++ investigationId ++ "\" was not found."
    if summary = "" then return "Error: \"summary\" is required."
    else do
      match ← InvestigationRepository.findById investigationId with
      | none => return notFound
      | some investigation =>
        if investigation.workspaceId ≠ some ctx.caller.orgId then return notFound
        else completeInvestigation uuid now investigationId summary

def readInvestigation (id : String) : Rbac.Evaluator :=
  .action "investigations:read" ["investigations:uid:" ++ id]

def investigationLine (i : Investigation) : String :=
  "- [" ++ i.id ++ "]" ++ (if i.status = "" then "" else " (" ++ i.status ++ ")") ++ " \"" ++
    sliceText 100 i.intent ++ "\""

def handleInvestigationList (args : Json.Record) : Prog Session String := do
  let filter := (asText (Json.field args "filter")).getD ""
  let limit := numberOr (Json.field args "limit") 50
  let allRaw ← InvestigationRepository.findAll
  let all ← filterByPermission ctx allRaw fun i => readInvestigation i.id
  let filtered := all.filter fun i => matchesFilter ctx.platform (some i.intent) (some filter)
  return listing "investigation" "No investigations found." filter filtered.length all.length
    ((sliceTo limit filtered).map investigationLine)

/-! ## Folders -/

/-- `replace(/[^a-z0-9]+/g, '-')`; `inRun` says that the last character was replaced. -/
def dashRuns (inRun : Bool) : List Char → List Char
  | [] => []
  | c :: cs =>
    if Folders.isSlugChar c then c :: dashRuns false cs
    else if inRun then dashRuns true cs
    else '-' :: dashRuns true cs

/-- `replace(/^-|-$/g, '')`, on a text without two dashes in a row. -/
def trimDashes (cs : List Char) : List Char :=
  ((cs.dropWhile (· = '-')).reverse.dropWhile (· = '-')).reverse

def folderSlug (random title : String) : String :=
  let slug := (trimDashes (dashRuns false (title.toList.flatMap Folders.lowerChar))).take 40
  if slug = [] then "folder-" ++ random else String.ofList slug

def requestedParent (args : Json.Record) : Option String :=
  Folders.truthy (asText (Json.field args "parentUid"))

def handleFolderCreate (drawn : Folders.Drawn) (args : Json.Record) : Prog Session String :=
  let title := Rbac.trim (stringOr args "title" "")
  let parentUid := requestedParent args
  if ctx.hasFolders = false then
    return "Error: folder backend not configured on this deployment."
  else if title = "" then return "Error: \"title\" is required."
  else do
    let slug := folderSlug drawn.random title
    let taken ← (Folders.FolderRepository.findByUid ctx.caller.orgId slug).zoom Session.db
    let uid := if taken.isSome then slug ++ "-" ++ drawn.suffix else slug
    let folder ← (Folders.FolderRepository.create drawn.id drawn.now
      { uid
        orgId := ctx.caller.orgId
        title
        parentUid
        createdBy := ctx.caller.userId
        updatedBy := ctx.caller.userId
        source := some .aiGenerated }).zoom Session.db
    return "Folder \"" ++ folder.title ++ "\" created (uid=" ++ folder.uid ++ ")" ++
      (match Folders.truthy folder.parentUid with
        | some parentUid => " under " ++ parentUid
        | none => " at root") ++ "."

end OpenObs.Agent
