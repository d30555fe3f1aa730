import OpenObs.Dashboards.Repository
import OpenObs.Rules.Routes

/-!
# The fork of a dashboard

`POST /api/dashboards/:id/fork` of `routes/dashboard/router.ts`. The copy goes to the
personal folder of the caller, as a text in the `folder` column; its panels and
variables are written afterwards. The gate asks for read on the source.
-/

namespace OpenObs.Dashboards

open OpenObs.Foundation OpenObs.Resources OpenObs.Rules

structure DashboardReply where
  status : ℕ
  code : Option String := none
  message : String := ""
  dashboard : Option Dashboard := none

def dashboardNotFound : DashboardReply := ⟨404, some "NOT_FOUND", "Dashboard not found", none⟩

def forbidden : DashboardReply := { status := 403, code := some "FORBIDDEN" }

def loadOwnedDashboard (caller : Caller) (id : String) : Prog Tables (Option Dashboard) := do
  match ← DashboardRepository.findById id with
  | none => return none
  | some dashboard =>
    if dashboard.workspaceId ≠ some caller.orgId then return none else return some dashboard

structure DrawnDashboard where
  id : String
  now : String

def personalFolder (caller : Caller) : String := "personal-" ++ caller.userId.getD "anonymous"

def forkTitle (source : Dashboard) (body : Json.Record) : String :=
  let title := trimmed (Json.field body "newTitle")
  if title = "" then source.title ++ " (forked)" else title

/-- The input of `store.create` for a fork. -/
def forkedDashboard (caller : Caller) (body : Json.Record) (source : Dashboard) :
    NewDashboard where
  title := forkTitle source body
  description := source.description
  prompt := source.prompt
  userId := caller.userId.getD "anonymous"
  datasourceIds := source.datasourceIds
  useExistingMetrics := some source.useExistingMetrics
  folder := some (personalFolder caller)
  workspaceId := some caller.orgId
  source := some .manual
  provenance := some (.obj [("forkedFrom", .str source.id)])

def copyPanels (drawn : DrawnDashboard) (id : String) (source : Dashboard) : Prog Tables Unit :=
  if 0 < source.panels.length then do
    let _ ← DashboardRepository.updatePanels drawn.now id source.panels
    return ()
  else return ()

def copyVariables (drawn : DrawnDashboard) (id : String) (source : Dashboard) : Prog Tables Unit :=
  if 0 < source.variables.length then do
    let _ ← DashboardRepository.updateVariables drawn.now id source.variables
    return ()
  else return ()

def dashboardScope (id : String) : List String := ["dashboards:uid:" ++ id]

def forkDashboard (drawn : DrawnDashboard) (caller : Caller) (id : String) (body : Json.Record) :
    Prog Tables DashboardReply :=
  permitted caller (.action "dashboards:read" (dashboardScope id)) forbidden do
    match ← loadOwnedDashboard caller id with
    | none => return dashboardNotFound
    | some source => do
        let created ← DashboardRepository.create drawn.id drawn.now
          (forkedDashboard caller body source)
        copyPanels drawn created.id source
        copyVariables drawn created.id source
        let full ← DashboardRepository.findById created.id
        return { status := 201, dashboard := some (full.getD created) }

/-! ## What a fork leaves -/

section Forks

variable {t t' : Tables} {row : Dashboard}

structure Adds (t t' : Tables) (row : Dashboard) : Prop where
  tables : t' = { t with dashboards := t.dashboards ++ [row] }
  fresh : row.id ∉ t.dashboards.map (·.id)

theorem Adds.found (h : Adds t t' row) : t'.findDashboardById row.id = some row := by
  have hold : t.dashboards.find? (·.id = row.id) = none := by
    rw [List.find?_eq_none]
    intro d hd hmatch
    exact h.fresh (of_decide_eq_true hmatch ▸ List.mem_map_of_mem hd)
  rw [h.tables, Tables.findDashboardById, List.find?_append, hold, Option.none_or,
    List.find?_singleton, decide_eq_true rfl]
  rfl

theorem Adds.modify (h : Adds t t' row) (edit : Dashboard → Dashboard → Dashboard)
    (hid : ∀ existing d, (edit existing d).id = d.id) :
    ∃ found t'', (DashboardRepository.modify row.id edit).run t' = (.ok found, t'') ∧
      Adds t t'' (edit (rowToDashboard row) row) := by
  obtain ⟨hrun, -⟩ := run_modify_found edit hid h.found
  refine ⟨_, _, hrun, ?_, ?_⟩
  · have hold : ∀ d ∈ t.dashboards,
        (if d.id = row.id then edit (rowToDashboard row) d else d) = d := by
      intro d hd
      exact if_neg fun heq : d.id = row.id => h.fresh (heq ▸ List.mem_map_of_mem hd)
    rw [DashboardRepository.edited, h.tables]
    simp [List.map_congr_left hold]
  · rw [hid]
    exact h.fresh

theorem Adds.copyPanels (h : Adds t t' row) (drawn : DrawnDashboard) (source : Dashboard) :
    ∃ t'' row', (copyPanels drawn row.id source).run t' = (.ok (), t'') ∧ Adds t t'' row' ∧
      row'.id = row.id ∧ row'.folder = row.folder ∧ row'.folderUid = row.folderUid := by
  rw [Dashboards.copyPanels]
  split
  · obtain ⟨found, t₁, hrun, hadds⟩ := h.modify
      (fun _ d => { d with panels := source.panels, updatedAt := drawn.now }) (fun _ _ => rfl)
    refine ⟨t₁, _, ?_, hadds, rfl, rfl, rfl⟩
    rw [Prog.run_bind, DashboardRepository.updatePanels, hrun]
    rfl
  · exact ⟨t', row, rfl, h, rfl, rfl, rfl⟩

theorem Adds.copyVariables (h : Adds t t' row) (drawn : DrawnDashboard) (source : Dashboard) :
    ∃ t'' row', (copyVariables drawn row.id source).run t' = (.ok (), t'') ∧ Adds t t'' row' ∧
      row'.id = row.id ∧ row'.folder = row.folder ∧ row'.folderUid = row.folderUid := by
  rw [Dashboards.copyVariables]
  split
  · obtain ⟨found, t₁, hrun, hadds⟩ := h.modify
      (fun _ d => { d with «variables» := source.variables, updatedAt := drawn.now })
      (fun _ _ => rfl)
    refine ⟨t₁, _, ?_, hadds, rfl, rfl, rfl⟩
    rw [Prog.run_bind, DashboardRepository.updateVariables, hrun]
    rfl
  · exact ⟨t', row, rfl, h, rfl, rfl, rfl⟩

variable {drawn : DrawnDashboard} {caller : Caller} {id : String} {body : Json.Record}

structure ReadsSource (caller : Caller) (t : Tables) (id : String) (source : Dashboard) : Prop where
  allowed : caller.allows t (.action "dashboards:read" (dashboardScope id)) = true
  found : t.findDashboardById id = some source
  owned : source.workspaceId = some caller.orgId

theorem run_forkDashboard :
    (¬ ((∃ source, ReadsSource caller t id source) ∧ drawn.id ∉ t.dashboards.map (·.id)) ∧
      ((forkDashboard drawn caller id body).run t).2 = t) ∨
    ((∃ source, ReadsSource caller t id source) ∧ drawn.id ∉ t.dashboards.map (·.id)) ∧
      ∃ row, Adds t ((forkDashboard drawn caller id body).run t).2 row ∧
        row.folder = some (personalFolder caller) ∧ row.folderUid = none := by
  rw [forkDashboard, permitted, Prog.run_bind, Prog.run_read]
  dsimp only
  by_cases hpass : caller.allows t (.action "dashboards:read" (dashboardScope id)) = true
  · rw [if_pos hpass, Prog.run_bind, loadOwnedDashboard, DashboardRepository.findById,
      Prog.run_bind, Prog.run_read]
    cases hfound : t.findDashboardById id with
    | none =>
      refine Or.inl ⟨?_, rfl⟩
      rintro ⟨⟨source, hsource⟩, -⟩
      rw [hsource.found] at hfound
      cases hfound
    | some source =>
      dsimp only [Option.map_some]
      by_cases hown : source.workspaceId = some caller.orgId
      · have hown' : ¬ (rowToDashboard source).workspaceId ≠ some caller.orgId :=
          not_not.mpr hown
        rw [if_neg hown', Prog.run_pure]
        dsimp only
        rw [Prog.run_bind]
        rcases run_create t drawn.id drawn.now
          (forkedDashboard caller body (rowToDashboard source)) with ⟨e, herr⟩ | ⟨hid, hok⟩
        · have htaken : drawn.id ∈ t.dashboards.map (·.id) := by
            by_contra hfree
            rw [DashboardRepository.create, Prog.run_attempt, if_neg hfree] at herr
            cases herr
          rw [herr]
          exact Or.inl ⟨fun h => h.2 htaken, rfl⟩
        · rw [hok]
          dsimp only
          have hadds : Adds t _ (DashboardRepository.newRow drawn.id drawn.now
            (forkedDashboard caller body (rowToDashboard source))) := ⟨rfl, hid⟩
          obtain ⟨t₁, row₁, hrun₁, hadds₁, hid₁, hfolder₁, huid₁⟩ :=
            hadds.copyPanels drawn (rowToDashboard source)
          obtain ⟨t₂, row₂, hrun₂, hadds₂, -, hfolder₂, huid₂⟩ :=
            hadds₁.copyVariables drawn (rowToDashboard source)
          refine Or.inr ⟨⟨⟨source, hpass, hfound, hown⟩, hid⟩, row₂, ?_, hfolder₂.trans hfolder₁,
            huid₂.trans huid₁⟩
          rw [hid₁] at hrun₂
          rw [Prog.run_bind]
          erw [hrun₁]
          dsimp only
          rw [Prog.run_bind]
          erw [hrun₂]
          exact hadds₂
      · have hown' : (rowToDashboard source).workspaceId ≠ some caller.orgId := hown
        rw [if_pos hown', Prog.run_pure]
        refine Or.inl ⟨?_, rfl⟩
        rintro ⟨⟨source', hsource⟩, -⟩
        rw [hsource.found] at hfound
        cases hfound
        exact hown hsource.owned
  · rw [if_neg hpass]
    exact Or.inl ⟨fun h => hpass h.1.choose_spec.allowed, rfl⟩

end Forks

end OpenObs.Dashboards
