import OpenObs.Dashboards.Executor
import OpenObs.Dashboards.Fork
import OpenObs.Folders.Routes

/-!
# The editing routes

`POST /:id/panels`, `DELETE /:id/panels/:panelId` and `PUT /:id` of `routes/dashboard/router.ts`,
beside the actions of the agent. Each loads the dashboard, and the store loads it once more before
it writes.
-/

namespace OpenObs.Dashboards

open OpenObs.Foundation OpenObs.Resources OpenObs.Rules OpenObs.Agent

/-! ## Routes -/

/-- The answer of `refuseIfProvisioned`. -/
def provisionedDashboard (d : Dashboard) : DashboardReply :=
  ⟨409, some "PROVISIONED_RESOURCE", provisionedMessage "dashboard" d.id d.source, none⟩

/-- `!body.title || typeof body.title !== 'string'`. -/
def lacksTitle (body : Json.Record) : Bool := (asText (Json.field body "title")).getD "" = ""

def titleRequired : DashboardReply := ⟨400, some "INVALID_INPUT", "title is required", none⟩

def panelNotFound : DashboardReply := ⟨404, some "NOT_FOUND", "Panel not found", none⟩

def stored (status : ℕ) : Option Dashboard → DashboardReply
  | none => dashboardNotFound
  | some d => { status, dashboard := some d }

/-- `{ ...body, id }`. -/
def newPanel (id : String) (body : Json.Record) : Json := .obj (assign body [("id", .str id)])

def postPanel (panelId now : String) (caller : Caller) (id : String) (body : Json.Record) :
    Prog Tables DashboardReply :=
  permitted caller (.action "dashboards:write" (dashboardScope id)) forbidden do
    match ← loadOwnedDashboard caller id with
    | none => return dashboardNotFound
    | some d =>
      if isProvisioned d.source then return provisionedDashboard d
      else if lacksTitle body then return titleRequired
      else do
        let updated ← DashboardRepository.updatePanels now id (d.panels ++ [newPanel panelId body])
        return stored 201 updated

def deletePanel (now : String) (caller : Caller) (id panelId : String) :
    Prog Tables DashboardReply :=
  permitted caller (.action "dashboards:write" (dashboardScope id)) forbidden do
    match ← loadOwnedDashboard caller id with
    | none => return dashboardNotFound
    | some d =>
      if isProvisioned d.source then return provisionedDashboard d
      else
        match readable d.panels "id" with
        | .error e => throw e
        | .ok readPanels =>
          let panels := withoutPanels [panelId] readPanels
          if panels.length = readPanels.length then return panelNotFound
          else do
            let _ ← DashboardRepository.updatePanels now id panels
            return { status := 204 }

/-- The columns a `PUT` names; the driver may refuse to bind the folder. -/
def putPatch (driver : Driver) (body : Json.Record) : Except String DashboardPatch := do
  let folder ← Folders.clearable driver (Json.field body "folder")
  return { title := (asText (Json.field body "title")).map Rbac.trim
           description := asText (Json.field body "description")
           folder }

/-- The update of a `PUT`; the store reads before it binds. -/
def putUpdate (driver : Driver) (now id : String) (body : Json.Record) :
    Prog Tables (Option Dashboard) :=
  match putPatch driver body with
  | .ok patch => DashboardRepository.update now id patch
  | .error e => do
      match ← DashboardRepository.findById id with
      | none => return none
      | some _ => throw e

def putDashboard (driver : Driver) (now : String) (caller : Caller) (id : String)
    (body : Json.Record) : Prog Tables DashboardReply :=
  permitted caller (.action "dashboards:write" (dashboardScope id)) forbidden do
    match ← loadOwnedDashboard caller id with
    | none => return dashboardNotFound
    | some d =>
      if isProvisioned d.source then return provisionedDashboard d
      else do
        let updated ← putUpdate driver now id body
        return stored 200 updated

/-! ## Edits of one dashboard -/

inductive DashboardEdit : Type where
  | postPanel (panelId now : String) (caller : Caller) (body : Json.Record)
  | deletePanel (now : String) (caller : Caller) (panelId : String)
  | put (now : String) (caller : Caller) (body : Json.Record)
  | action (now : String) (change : DashboardAction)

inductive EditAnswer : Type where
  | reply (r : DashboardReply)
  | events (sent : List DashboardSseEvent)

namespace DashboardEdit

def code (driver : Driver) (id : String) : DashboardEdit → Prog Tables EditAnswer
  | .postPanel panelId now caller body =>
    Dashboards.postPanel panelId now caller id body >>= fun r => pure (.reply r)
  | .deletePanel now caller panelId =>
    Dashboards.deletePanel now caller id panelId >>= fun r => pure (.reply r)
  | .put now caller body => putDashboard driver now caller id body >>= fun r => pure (.reply r)
  | .action now change =>
    ActionExecutor.applyAction now id change >>= fun sent => pure (.events sent)

def acknowledged : Except String EditAnswer → Bool
  | .ok (.reply r) => r.status < 300
  | .ok (.events _) => true
  | .error _ => false

/-! ## What an edit is about -/

def Adds (panelId : String) : DashboardEdit → Prop
  | .postPanel newId _ _ _ => newId = panelId
  | .action _ (.addPanels panels) => panels.any (hasId panelId) = true
  | _ => False

def Removes (panelId : String) : DashboardEdit → Prop
  | .deletePanel _ _ gone => gone = panelId
  | .action _ (.removePanels panelIds) => panelId ∈ panelIds
  | _ => False

def Renames (panelId : String) (newId : Json) : DashboardEdit → Prop
  | .action _ (.modifyPanel old patch) => old = panelId ∧ lastValue patch "id" = some newId
  | _ => False

def Takes (panelId : String) (edit : DashboardEdit) : Prop :=
  edit.Removes panelId ∨ ∃ newId, edit.Renames panelId newId ∧ asText (some newId) ≠ some panelId

def Brings (panelId : String) (edit : DashboardEdit) : Prop :=
  edit.Adds panelId ∨ ∃ old, edit.Renames old (.str panelId)

def title : DashboardEdit → Option String
  | .put _ _ body => (asText (Json.field body "title")).map Rbac.trim
  | .action _ (.setTitle title _) => some title
  | _ => none

end DashboardEdit

end OpenObs.Dashboards
