import OpenObs.Foundation.Parts
import OpenObs.Resources.Tables

/-!
# The dashboard repository

`repository/sqlite/dashboard.ts`. An `INSERT` names neither `org_id` nor
`folder_uid`, so a new row has the default of the first and none of the second.
Every write looks its row up first; the statement and the read-back follow in one
section.
-/

namespace OpenObs.Dashboards

open OpenObs.Foundation OpenObs.Resources

structure NewDashboard where
  title : String
  description : String
  prompt : String
  userId : String
  datasourceIds : List String
  useExistingMetrics : Option Bool := none
  folder : Option String := none
  workspaceId : Option String := none
  source : Option ResourceSource := none
  provenance : Option Json := none

/-- An absent field keeps its column; an explicit `null` clears the folder. -/
structure DashboardPatch where
  type : Option String := none
  title : Option String := none
  description : Option String := none
  panels : Option (List Json) := none
  «variables» : Option (List Json) := none
  refreshIntervalSec : Option ℕ := none
  folder : Option (Option String) := none

def rowToDashboard (row : Dashboard) : Dashboard :=
  { row with
    type := if row.type = "" then "dashboard" else row.type
    folderUid := none }

namespace DashboardRepository

def newRow (id now : String) (input : NewDashboard) : Dashboard where
  id := id
  title := input.title
  description := input.description
  prompt := input.prompt
  userId := input.userId
  datasourceIds := input.datasourceIds
  useExistingMetrics := input.useExistingMetrics.getD true
  folder := input.folder
  workspaceId := input.workspaceId
  source := input.source.getD .manual
  provenance := input.provenance
  createdAt := now
  updatedAt := now

/-- The `INSERT` and the read-back. -/
def create (id now : String) (input : NewDashboard) : Prog Tables Dashboard :=
  Prog.attempt fun t =>
    if id ∈ t.dashboards.map (·.id) then (.error "UNIQUE constraint failed: dashboards.id", t)
    else
      (.ok (rowToDashboard (newRow id now input)),
        { t with dashboards := t.dashboards ++ [newRow id now input] })

def findById (id : String) : Prog Tables (Option Dashboard) :=
  Prog.read fun t => (t.findDashboardById id).map rowToDashboard

/-- The table after an `UPDATE … WHERE id = …`. -/
def edited (id : String) (edit : Dashboard → Dashboard) (t : Tables) : Tables :=
  { t with dashboards := t.dashboards.map fun d => if d.id = id then edit d else d }

def store (id : String) (edit : Dashboard → Dashboard) : Prog Tables (Option Dashboard) :=
  Prog.atomic fun t =>
    (((edited id edit t).findDashboardById id).map rowToDashboard, edited id edit t)

def modify (id : String) (edit : Dashboard → Dashboard → Dashboard) :
    Prog Tables (Option Dashboard) := do
  match ← findById id with
  | none => return none
  | some existing => store id (edit existing)

/-- The columns of an `update`. -/
def merge (now : String) (patch : DashboardPatch) (existing row : Dashboard) : Dashboard :=
  { row with
    type := patch.type.getD existing.type
    title := patch.title.getD existing.title
    description := patch.description.getD existing.description
    panels := patch.panels.getD existing.panels
    «variables» := patch.variables.getD existing.variables
    refreshIntervalSec := patch.refreshIntervalSec.getD existing.refreshIntervalSec
    folder := patch.folder.getD existing.folder
    updatedAt := now }

def update (now id : String) (patch : DashboardPatch) : Prog Tables (Option Dashboard) :=
  modify id (merge now patch)

/-- An absent `error` leaves its column alone. -/
def updateStatus (now id status : String) (error : Option String) :
    Prog Tables (Option Dashboard) :=
  modify id fun _ row => { row with status, error := error.or row.error, updatedAt := now }

def updatePanels (now id : String) (panels : List Json) : Prog Tables (Option Dashboard) :=
  modify id fun _ row => { row with panels, updatedAt := now }

def updateVariables (now id : String) («variables» : List Json) :
    Prog Tables (Option Dashboard) :=
  modify id fun _ row => { row with «variables», updatedAt := now }

def findAll : Prog Tables (List Dashboard) :=
  Prog.read fun t =>
    (t.dashboards.mergeSort fun d e => decide (e.createdAt ≤ d.createdAt)).map rowToDashboard

end DashboardRepository

/-! ## What the writes do -/

section Writes

variable {t : Tables} {id now : String}

theorem run_create (t : Tables) (id now : String) (input : NewDashboard) :
    (∃ e, (DashboardRepository.create id now input).run t = (.error e, t)) ∨
    id ∉ t.dashboards.map (·.id) ∧
      (DashboardRepository.create id now input).run t =
        (.ok (rowToDashboard (DashboardRepository.newRow id now input)),
          { t with dashboards := t.dashboards ++ [DashboardRepository.newRow id now input] }) := by
  rw [DashboardRepository.create, Prog.run_attempt]
  split
  · exact Or.inl ⟨_, rfl⟩
  · rename_i hid
    exact Or.inr ⟨hid, rfl⟩

theorem run_modify (t : Tables) (id : String) (edit : Dashboard → Dashboard → Dashboard) :
    (t.findDashboardById id = none ∧
      (DashboardRepository.modify id edit).run t = (.ok none, t)) ∨
    ∃ row, t.findDashboardById id = some row ∧
      (DashboardRepository.modify id edit).run t =
        (.ok (((DashboardRepository.edited id (edit (rowToDashboard row)) t).findDashboardById
            id).map rowToDashboard),
          DashboardRepository.edited id (edit (rowToDashboard row)) t) := by
  rw [DashboardRepository.modify, DashboardRepository.findById, Prog.run_bind, Prog.run_read]
  cases hrow : t.findDashboardById id with
  | none => exact Or.inl ⟨rfl, rfl⟩
  | some row => exact Or.inr ⟨row, rfl, rfl⟩

theorem findDashboardById_edited {edit : Dashboard → Dashboard} (hedit : ∀ d, (edit d).id = d.id)
    {other : String} (hother : other ≠ id) :
    (DashboardRepository.edited id edit t).findDashboardById other =
      t.findDashboardById other := by
  rw [Tables.findDashboardById, Tables.findDashboardById, DashboardRepository.edited,
    List.find?_map]
  have hsame : ((fun d : Dashboard => decide (d.id = other)) ∘
      fun d => if d.id = id then edit d else d) = fun d => decide (d.id = other) := by
    ext d
    show decide ((if d.id = id then edit d else d).id = other) = decide (d.id = other)
    split
    · rw [hedit]
    · rfl
  rw [hsame]
  cases hd : t.dashboards.find? fun d => decide (d.id = other) with
  | none => rfl
  | some d =>
    have hid : d.id = other := by simpa using List.find?_some hd
    rw [Option.map_some, if_neg (by rw [hid]; exact hother)]

theorem findDashboardById_edited_self {edit : Dashboard → Dashboard}
    (hedit : ∀ d, (edit d).id = d.id) :
    (DashboardRepository.edited id edit t).findDashboardById id =
      (t.findDashboardById id).map edit := by
  rw [Tables.findDashboardById, Tables.findDashboardById, DashboardRepository.edited,
    List.find?_map]
  have hsame : ((fun d : Dashboard => decide (d.id = id)) ∘
      fun d => if d.id = id then edit d else d) = fun d => decide (d.id = id) := by
    ext d
    show decide ((if d.id = id then edit d else d).id = id) = decide (d.id = id)
    split
    · rw [hedit]
    · rfl
  rw [hsame]
  cases hd : t.dashboards.find? fun d => decide (d.id = id) with
  | none => rfl
  | some d =>
    have hid : d.id = id := by simpa using List.find?_some hd
    rw [Option.map_some, if_pos hid, Option.map_some]

theorem findDashboardById_modify {edit : Dashboard → Dashboard → Dashboard}
    (hedit : ∀ existing d, (edit existing d).id = d.id) {other : String} (hother : other ≠ id) :
    ((DashboardRepository.modify id edit).run t).2.findDashboardById other =
      t.findDashboardById other := by
  rcases run_modify t id edit with ⟨-, hrun⟩ | ⟨row, -, hrun⟩
  · rw [hrun]
  · rw [hrun]
    apply findDashboardById_edited (hedit _) hother

theorem run_modify_found (edit : Dashboard → Dashboard → Dashboard)
    (hedit : ∀ existing d, (edit existing d).id = d.id) {row : Dashboard}
    (hrow : t.findDashboardById id = some row) :
    (DashboardRepository.modify id edit).run t =
        (.ok (some (rowToDashboard (edit (rowToDashboard row) row))),
          DashboardRepository.edited id (edit (rowToDashboard row)) t) ∧
      (DashboardRepository.edited id (edit (rowToDashboard row)) t).findDashboardById id =
        some (edit (rowToDashboard row) row) := by
  have hself := @findDashboardById_edited_self t id _ (hedit (rowToDashboard row))
  rw [hrow, Option.map_some] at hself
  rcases run_modify t id edit with ⟨hnone, -⟩ | ⟨row', hrow', hrun⟩
  · rw [hrow] at hnone
    cases hnone
  · rw [hrow] at hrow'
    cases hrow'
    rw [hrun, hself]
    exact ⟨rfl, rfl⟩

theorem findDashboardById_create {input : NewDashboard} {other : String} {row : Dashboard}
    (hrow : t.findDashboardById other = some row) :
    ((DashboardRepository.create id now input).run t).2.findDashboardById other = some row := by
  rcases run_create t id now input with ⟨e, herr⟩ | ⟨-, hok⟩
  · rw [herr, hrow]
  · rw [hok, Tables.findDashboardById, List.find?_append]
    rw [Tables.findDashboardById] at hrow
    rw [hrow]
    rfl

end Writes

end OpenObs.Dashboards
