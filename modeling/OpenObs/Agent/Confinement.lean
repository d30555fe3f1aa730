import OpenObs.Agent.InvestigationPlaces
import OpenObs.Agent.RulePlaces

/-!
# Gate and handler

The conditions of the tools put together: what a check names is where its call
writes.
-/

namespace OpenObs.Agent

open OpenObs.Foundation OpenObs.Resources OpenObs.Rules OpenObs.Dashboards
open OpenObs.Rbac hiding Folder

theorem confinedByGrant_of_confined {ctx : ActionContext} {s : Session} {call : ScopedCall}
    (h : call.Confined ctx s) : call.ConfinedByGrant ctx s := by
  intro db orgId hforest g hg action scope hbuilt hauth place htouch
  exact place_under_grant hforest hg (namedBy_action.mp (h _ hbuilt place htouch)) hauth

/-- **Gate and handler.** Whatever a call writes is in the place its check names, exactly on the
condition of its tool; and then a grant on one folder lets a call write in that folder and
below it only. -/
theorem gate_names_places_iff (ctx : ActionContext) (call : ScopedCall) (s : Session)
    (hrules : RuleKeys s.tables) (hreports : (s.investigationReports.map (·.id)).Nodup) :
    (call.Confined ctx s ↔ call.NamesPlaces ctx s) ∧
      (call.NamesPlaces ctx s → call.ConfinedByGrant ctx s) := by
  have hiff : call.Confined ctx s ↔ call.NamesPlaces ctx s := by
    cases call with
    | dashboardCreate drawn args => exact confined_dashboardCreate
    | dashboardClone drawn args => exact confined_dashboardClone
    | folderCreate drawn args => exact confined_folderCreate
    | investigationAddSection args => exact confined_addSection
    | investigationComplete uuid now args => exact confined_complete hreports
    | alertRuleWrite drawn drawnFolder args => exact confined_ruleWrite hrules
  exact ⟨hiff, fun h => confinedByGrant_of_confined (hiff.mpr h)⟩

/-- A workspace with the folder `ops`, and a rule in it. -/
def opsSession : Session := Session.opened
  { orgs := ["org_a"]
    users := ["ann"]
    folders := [⟨"f1", "ops", "org_a", "Ops", none, none, "", "", none, none, .manual, none⟩]
    alertRules :=
      [{ id := "alert_1", name := "High latency", description := "", condition := .null,
         workspaceId := some "org_a", folderUid := some "ops" }] } []

/-- A folder in `ops`. -/
def opsFolder : ScopedCall :=
  .folderCreate ⟨"f2", "2026-01-01", "0", "1"⟩
    [("title", .str "On call"), ("parentUid", .str "ops")]

theorem gate_names_places_iff_ops :
    opsFolder.Confined teamContext opsSession ∧ opsFolder.ConfinedByGrant teamContext opsSession := by
  have hrules : RuleKeys opsSession.tables := by
    show ["alert_1"].Nodup
    decide
  have hnames : opsFolder.NamesPlaces teamContext opsSession := by
    intro hparent
    exact absurd hparent (by decide)
  obtain ⟨hiff, hgrant⟩ := gate_names_places_iff teamContext opsFolder opsSession hrules (by decide)
  exact ⟨hiff.mpr hnames, hgrant hnames⟩

/-- The check of a new dashboard names the folder of its arguments; the row is in none. -/
theorem dashboard_create_outside_folder :
    ¬ ∀ (ctx : ActionContext) (call : ScopedCall) (s : Session), RuleKeys s.tables →
      (s.investigationReports.map (·.id)).Nodup → call.Confined ctx s := by
  intro hall
  have hkeys : RuleKeys opsSession.tables := by
    show ["alert_1"].Nodup
    decide
  have hconfined := hall teamContext
    (.dashboardCreate (drawnAt "d2" "2026-01-01")
      [("title", .str "Latency"), ("datasourceId", .str "prom"), ("folderUid", .str "ops")])
    opsSession hkeys (by decide)
  have hstar := confined_dashboardCreate.mp hconfined (by decide +kernel) (by decide)
  exact absurd hstar (by decide)

end OpenObs.Agent
