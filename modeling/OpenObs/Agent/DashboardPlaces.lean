import OpenObs.Agent.Places

/-!
# The places of new dashboards and folders

`dashboard_create` and `dashboard_clone` leave their row outside of every folder,
whatever folder the check was for. `folder_create` goes under the parent of the
check where that is a text, and to the root where it is anything else.
-/

namespace OpenObs.Agent

open OpenObs.Foundation OpenObs.Resources OpenObs.Rules OpenObs.Dashboards
open OpenObs.Rbac hiding Folder

/-! ## Dashboards -/

section Dashboards

variable {ctx : ActionContext} {s s' : Session} {drawn : DrawnCall} {args : Json.Record}

structure AddsDashboard (s s' : Session) (row : Dashboard) : Prop where
  tables : s'.tables = { s.tables with dashboards := s.tables.dashboards ++ [row] }
  investigations : s'.investigations = s.investigations
  reports : s'.investigationReports = s.investigationReports
  sections : s'.investigationSections = s.investigationSections
  fresh : row.id ∉ s.tables.dashboards.map (·.id)
  folder : row.folderUid = none

theorem AddsDashboard.activate {row : Dashboard} (h : AddsDashboard s s' row) (id : String) :
    AddsDashboard s ((activate id).run s').2 row :=
  { h with }

theorem AddsDashboard.modify {row : Dashboard} (h : AddsDashboard s s' row)
    (edit : Dashboard → Dashboard → Dashboard)
    (hid : ∀ existing d, (edit existing d).id = d.id)
    (hfolder : ∀ existing d, (edit existing d).folderUid = d.folderUid) :
    ∃ found s'' row', ((DashboardRepository.modify row.id edit).zoom Session.db).run s' =
      (.ok found, s'') ∧ AddsDashboard s s'' row' ∧ row'.id = row.id := by
  have hrow : s'.tables.findDashboardById row.id = some row := by
    have hold : (s.tables.dashboards.find? (·.id = row.id)) = none := by
      rw [List.find?_eq_none]
      intro d hd hmatch
      exact h.fresh (of_decide_eq_true hmatch ▸ List.mem_map_of_mem hd)
    rw [h.tables, Tables.findDashboardById, List.find?_append, hold, Option.none_or,
      List.find?_singleton, decide_eq_true rfl]
    rfl
  obtain ⟨hrun, -⟩ := run_modify_found edit hid hrow
  have hzoom : ((DashboardRepository.modify row.id edit).zoom Session.db).run s' =
      (.ok (some (rowToDashboard (edit (rowToDashboard row) row))), Session.db.set
        (DashboardRepository.edited row.id (edit (rowToDashboard row)) s'.tables) s') := by
    rw [Prog.run_zoom]
    show (((DashboardRepository.modify row.id edit).run s'.tables).1, Session.db.set
      ((DashboardRepository.modify row.id edit).run s'.tables).2 s') = _
    rw [hrun]
  have hold : ∀ d ∈ s.tables.dashboards,
      (if d.id = row.id then edit (rowToDashboard row) d else d) = d := by
    intro d hd
    exact if_neg fun heq : d.id = row.id => h.fresh (heq ▸ List.mem_map_of_mem hd)
  refine ⟨_, _, edit (rowToDashboard row) row, hzoom, ?_, hid _ _⟩
  exact
    { tables := by
        show DashboardRepository.edited row.id (edit (rowToDashboard row)) s'.tables = _
        rw [DashboardRepository.edited, h.tables]
        simp [List.map_congr_left hold]
      investigations := h.investigations
      reports := h.reports
      sections := h.sections
      fresh := by
        rw [hid]
        exact h.fresh
      folder := by
        rw [hfolder]
        exact h.folder }

theorem run_createDashboard (s : Session) (drawn : DrawnCall) (input : NewDashboard) :
    (drawn.dashboardId ∈ s.tables.dashboards.map (·.id) ∧
      ∃ e, ((DashboardRepository.create drawn.dashboardId drawn.now input).zoom Session.db).run s =
        (.error e, s)) ∨
    ∃ dashboard s' row, dashboard.id = row.id ∧ row.id = drawn.dashboardId ∧
      ((DashboardRepository.create drawn.dashboardId drawn.now input).zoom Session.db).run s =
        (.ok dashboard, s') ∧ AddsDashboard s s' row := by
  by_cases hid : drawn.dashboardId ∈ s.tables.dashboards.map (·.id)
  · refine Or.inl ⟨hid, "UNIQUE constraint failed: dashboards.id", ?_⟩
    rw [Prog.run_zoom, DashboardRepository.create, Prog.run_attempt]
    show (_, Session.db.set _ s) = _
    have hmem : drawn.dashboardId ∈ (Session.db.get s).dashboards.map (·.id) := hid
    rw [if_pos hmem]
    rfl
  · refine Or.inr ⟨rowToDashboard (DashboardRepository.newRow drawn.dashboardId drawn.now input),
      Session.db.set { s.tables with dashboards := s.tables.dashboards ++
        [DashboardRepository.newRow drawn.dashboardId drawn.now input] } s,
      DashboardRepository.newRow drawn.dashboardId drawn.now input, rfl, rfl, ?_, ?_⟩
    · rw [Prog.run_zoom, DashboardRepository.create, Prog.run_attempt]
      have hmem : drawn.dashboardId ∉ (Session.db.get s).dashboards.map (·.id) := hid
      rw [if_neg hmem]
      rfl
    · exact
        { tables := rfl
          investigations := rfl
          reports := rfl
          sections := rfl
          fresh := hid
          folder := rfl }

def AddsIf (cond : Prop) (s s' : Session) : Prop :=
  (¬ cond ∧ s' = s) ∨ (cond ∧ ∃ row, AddsDashboard s s' row)

theorem run_dashboardCreate :
    AddsIf (trimmed (Json.field args "datasourceId") ≠ "" ∧
        drawn.dashboardId ∉ s.tables.dashboards.map (·.id))
      s ((handleDashboardCreate ctx drawn args).run s).2 := by
  rw [handleDashboardCreate]
  by_cases hdatasource : trimmed (Json.field args "datasourceId") = ""
  · rw [if_pos hdatasource]
    exact Or.inl ⟨fun h => h.1 hdatasource, rfl⟩
  · rw [if_neg hdatasource, Prog.run_bind]
    rcases run_createDashboard s drawn (newDashboard ctx (stringOr args "title" "Untitled Dashboard")
      (stringOr args "description" "") _ (trimmed (Json.field args "datasourceId"))) with
      ⟨hid, e, herr⟩ | ⟨dashboard, s', row, -, hid, hok, hadds⟩
    · rw [herr]
      exact Or.inl ⟨fun h => h.2 hid, rfl⟩
    · rw [hok]
      exact Or.inr ⟨⟨hdatasource, hid ▸ hadds.fresh⟩, row, hadds.activate _⟩

theorem AddsDashboard.status {row : Dashboard} (h : AddsDashboard s s' row) (drawn : DrawnCall)
    (status : String) (error : Option String) :
    ∃ s'' row', (tryUpdateDashboardStatus drawn row.id status error).run s' = (.ok (), s'') ∧
      AddsDashboard s s'' row' ∧ row'.id = row.id := by
  obtain ⟨found, s'', row', hrun, hadds, hid⟩ := h.modify
    (fun _ d => { d with status, error := error.or d.error, updatedAt := drawn.now })
    (fun _ _ => rfl) (fun _ _ => rfl)
  refine ⟨s'', row', ?_, hadds, hid⟩
  rw [tryUpdateDashboardStatus, Prog.run_tryCatch, Prog.run_bind, DashboardRepository.updateStatus,
    hrun]
  rfl

theorem run_dashboardClone :
    AddsIf (stringOr args "sourceDashboardId" "" ≠ "" ∧ stringOr args "targetDatasourceId" "" ≠ "" ∧
        (∃ source,
          s.tables.findDashboardById (stringOr args "sourceDashboardId" "") = some source ∧
          source.panels.any isNull = false) ∧
        drawn.dashboardId ∉ s.tables.dashboards.map (·.id))
      s ((handleDashboardClone ctx drawn args).run s).2 := by
  rw [handleDashboardClone]
  dsimp only
  by_cases hsource : stringOr args "sourceDashboardId" "" = ""
  · rw [if_pos hsource]
    exact Or.inl ⟨fun h => h.1 hsource, rfl⟩
  rw [if_neg hsource]
  by_cases htarget : stringOr args "targetDatasourceId" "" = ""
  · rw [if_pos htarget]
    exact Or.inl ⟨fun h => h.2.1 htarget, rfl⟩
  rw [if_neg htarget, Prog.run_bind, run_findDashboard]
  cases hfound : s.tables.findDashboardById (stringOr args "sourceDashboardId" "") with
  | none =>
    refine Or.inl ⟨?_, rfl⟩
    rintro ⟨-, -, ⟨source, hsource', -⟩, -⟩
    cases hsource'
  | some source =>
    dsimp only [Option.map_some]
    have hpanels : (rowToDashboard source).panels = source.panels := rfl
    rw [readable, hpanels]
    by_cases hnull : source.panels.any isNull = true
    · rw [if_pos hnull]
      refine Or.inl ⟨?_, rfl⟩
      rintro ⟨-, -, ⟨source', hsource', hread⟩, -⟩
      cases hsource'
      rw [hnull] at hread
      cases hread
    · rw [if_neg hnull]
      dsimp only
      rw [Prog.run_bind]
      rcases run_createDashboard s drawn (newDashboard ctx _
        (rowToDashboard source).description (rowToDashboard source).prompt
        (stringOr args "targetDatasourceId" "")) with
        ⟨hid, e, herr⟩ | ⟨created, s₁, row, hcreated, hid, hok, hadds⟩
      · rw [herr]
        exact Or.inl ⟨fun h => h.2.2.2 hid, rfl⟩
      · rw [hok]
        dsimp only
        -- the panels, the variables and the status of the new row
        obtain ⟨_, s₂, row₂, hpanels, hadds₂, hid₂⟩ := hadds.modify
          (fun _ d => { d with
            panels := clonedPanels drawn (stringOr args "targetDatasourceId" "") source.panels
            updatedAt := drawn.now })
          (fun _ _ => rfl) (fun _ _ => rfl)
        obtain ⟨_, s₃, row₃, hvariables, hadds₃, hid₃⟩ := hadds₂.modify
          (fun _ d => { d with
            «variables» := (rowToDashboard source).variables
            updatedAt := drawn.now })
          (fun _ _ => rfl) (fun _ _ => rfl)
        obtain ⟨s₄, row₄, hstatus, hadds₄, hid₄⟩ := hadds₃.status drawn "ready" none
        rw [hcreated, Prog.run_bind, DashboardRepository.updatePanels, hpanels]
        dsimp only
        rw [← hid₂, Prog.run_bind, DashboardRepository.updateVariables, hvariables]
        dsimp only
        rw [← hid₃, Prog.run_bind, hstatus]
        refine Or.inr ⟨⟨hsource, htarget, ⟨source, rfl, ?_⟩, hid ▸ hadds.fresh⟩, row₄,
          hadds₄.activate _⟩
        simpa using hnull

theorem AddsDashboard.touches {row : Dashboard} (h : AddsDashboard s s' row)
    {folderPlace : Folder → Option String} {place : Place} :
    Touches folderPlace s s' place ↔ place = .folder none := by
  have hnew : row ∉ s.tables.dashboards := fun hmem => h.fresh (List.mem_map_of_mem hmem)
  constructor
  · intro htouch
    cases htouch with
    | dashboard hd =>
      rw [h.tables] at hd
      rw [(touched_append hnew).mp hd, h.folder]
    | folder hf =>
      rw [h.tables] at hf
      exact absurd hf not_touched_self
    | alertRule hr =>
      rw [h.tables] at hr
      exact absurd hr not_touched_self
    | investigation hi =>
      rw [h.investigations] at hi
      exact absurd hi not_touched_self
    | report hr =>
      rw [h.reports] at hr
      exact absurd hr not_touched_self
    | reportSection hid =>
      rw [sectionsOf, sectionsOf, h.sections] at hid
      exact absurd rfl hid
  · rintro rfl
    rw [← h.folder]
    apply Touches.dashboard
    rw [h.tables]
    exact (touched_append hnew).mpr rfl

end Dashboards

section Confinement

variable {ctx : ActionContext} {s : Session} {call : ScopedCall} {x action : String}

theorem confined_addsIf {cond : Prop}
    (hbuilt : ((buildToolEvaluator ctx call.tool call.args).run s).1 =
      .ok (some (.action action ["folders:uid:" ++ x])))
    (hadds : AddsIf cond s ((call.handler ctx).run s).2) :
    call.Confined ctx s ↔ (cond → x = "*") := by
  rcases hadds with ⟨hcond, hsame⟩ | ⟨hcond, row, hadds⟩
  · exact ⟨fun _ h => absurd h hcond, fun _ => confined_of_unchanged hsame⟩
  · rw [confined_iff hbuilt]
    constructor
    · intro h _
      have hnone := names_folder.mp (h (.folder none) (hadds.touches.mpr rfl))
      simpa using hnone
    · intro hx place htouch
      rw [hadds.touches.mp htouch]
      exact names_folder.mpr (Or.inl (hx hcond))

theorem confined_dashboardCreate {drawn : DrawnCall} {args : Json.Record} :
    (ScopedCall.dashboardCreate drawn args).Confined ctx s ↔
      (ScopedCall.dashboardCreate drawn args).NamesPlaces ctx s := by
  have hiff := @confined_addsIf ctx s (.dashboardCreate drawn args) (stringOr args "folderUid" "*")
    "dashboards:create" _ rfl run_dashboardCreate
  rw [hiff, ScopedCall.NamesPlaces, and_imp]

theorem confined_dashboardClone {drawn : DrawnCall} {args : Json.Record} :
    (ScopedCall.dashboardClone drawn args).Confined ctx s ↔
      (ScopedCall.dashboardClone drawn args).NamesPlaces ctx s := by
  have hiff := @confined_addsIf ctx s (.dashboardClone drawn args) (stringOr args "folderUid" "*")
    "dashboards:create" _ rfl run_dashboardClone
  rw [hiff, ScopedCall.NamesPlaces]
  simp only [and_imp, forall_exists_index]

end Confinement

/-! ## Folders -/

section Folders

variable {ctx : ActionContext} {s : Session} {t : Tables} {drawn : Folders.Drawn}
  {args : Json.Record}

theorem run_insertFolder {row : Folder} {userId : Option String} (hcreated : row.createdBy = userId)
    (hupdated : row.updatedBy = userId) :
    (¬ Fits t row.orgId userId row.id row.uid ∧
      ∃ e, (Folders.FolderRepository.insert row).run t = (.error e, t)) ∨
    (Fits t row.orgId userId row.id row.uid ∧ (Folders.FolderRepository.insert row).run t =
      (.ok row, { t with folders := t.folders ++ [row] })) := by
  rw [Folders.FolderRepository.insert, Prog.run_attempt, hcreated, hupdated]
  split
  · rename_i hid
    exact Or.inl ⟨fun h => h.id hid, _, rfl⟩
  · rename_i hid
    split
    · rename_i huid
      refine Or.inl ⟨fun h => ?_, _, rfl⟩
      rw [h.uid] at huid
      cases huid
    · rename_i huid
      split
      · rename_i hforeign
        refine Or.inl ⟨fun h => ?_, _, rfl⟩
        rcases hforeign with horg | huser | huser
        · exact horg h.org
        · exact absurd h.user (by rw [huser]; decide)
        · exact absurd h.user (by rw [huser]; decide)
      · rename_i hforeign
        push Not at hforeign
        exact Or.inr ⟨⟨hid, by simpa using huid, hforeign.1, by simpa using hforeign.2.1⟩, rfl⟩

theorem requestedParent_eq_some {p : String} (h : requestedParent args = some p) :
    stringOr args "parentUid" "*" = p := by
  obtain ⟨htext, -⟩ := Folders.truthy_eq_some.mp h
  exact stringOr_of_str (asText_eq_some htext)

theorem run_createFolder {id now : String} {input : Folders.NewFolder} {userId : Option String}
    (hcreated : input.createdBy = userId) (hupdated : input.updatedBy = userId) :
    (¬ (Folders.truthy input.parentUid = none ∧ Fits t input.orgId userId id input.uid) ∧
      ∃ e, (Folders.FolderRepository.create id now input).run t = (.error e, t)) ∨
    (Fits t input.orgId userId id input.uid ∧
      (Folders.FolderRepository.create id now input).run t =
        (.ok (Folders.FolderRepository.newRow id now input),
          { t with folders := t.folders ++ [Folders.FolderRepository.newRow id now input] })) := by
  have hinsert := @run_insertFolder t (Folders.FolderRepository.newRow id now input) userId
    hcreated hupdated
  rw [Folders.FolderRepository.create]
  cases hparent : Folders.truthy input.parentUid with
  | none =>
    rcases hinsert with ⟨hfits, herr⟩ | ⟨hfits, hok⟩
    · exact Or.inl ⟨fun h => hfits h.2, herr⟩
    · exact Or.inr ⟨hfits, hok⟩
  | some parentUid =>
    dsimp only
    rcases Folders.reads_assertParentAndDepth.run_bind
      (fun _ => Folders.FolderRepository.insert (Folders.FolderRepository.newRow id now input)) t
      with ⟨e, -, herr⟩ | ⟨_, -, hok⟩
    · exact Or.inl ⟨fun h => absurd h.1 (by simp), e, herr⟩
    · rw [hok]
      rcases hinsert with ⟨hfits, herr⟩ | ⟨hfits, hok⟩
      · exact Or.inl ⟨fun h => hfits h.2, herr⟩
      · exact Or.inr ⟨hfits, hok⟩

/-- The row `folder_create` inserts. -/
def newFolder (ctx : ActionContext) (drawn : Folders.Drawn) (args : Json.Record) (t : Tables) :
    Folder :=
  Folders.FolderRepository.newRow drawn.id drawn.now
    { uid := newFolderUid ctx drawn args t
      orgId := ctx.caller.orgId
      title := Rbac.trim (stringOr args "title" "")
      parentUid := requestedParent args
      createdBy := ctx.caller.userId
      updatedBy := ctx.caller.userId
      source := some .aiGenerated }

theorem run_folderCreate :
    (((handleFolderCreate ctx drawn args).run s).2 = s ∧
      ¬ (requestedParent args = none ∧ ctx.hasFolders = true ∧
        Rbac.trim (stringOr args "title" "") ≠ "" ∧
        Fits s.tables ctx.caller.orgId ctx.caller.userId drawn.id
          (newFolderUid ctx drawn args s.tables))) ∨
    (((handleFolderCreate ctx drawn args).run s).2 = Session.db.set
        { s.tables with folders := s.tables.folders ++ [newFolder ctx drawn args s.tables] } s ∧
      ctx.hasFolders = true ∧ Rbac.trim (stringOr args "title" "") ≠ "" ∧
      Fits s.tables ctx.caller.orgId ctx.caller.userId drawn.id
        (newFolderUid ctx drawn args s.tables)) := by
  rw [handleFolderCreate]
  dsimp only
  by_cases hbackend : ctx.hasFolders = false
  · rw [if_pos hbackend]
    refine Or.inl ⟨rfl, fun h => ?_⟩
    rw [hbackend] at h
    cases h.2.1
  rw [if_neg hbackend]
  by_cases htitle : Rbac.trim (stringOr args "title" "") = ""
  · rw [if_pos htitle]
    exact Or.inl ⟨rfl, fun h => h.2.2.1 htitle⟩
  rw [if_neg htitle, Prog.run_bind]
  have hfind : ((Folders.FolderRepository.findByUid ctx.caller.orgId
      (folderSlug drawn.random (Rbac.trim (stringOr args "title" "")))).zoom Session.db).run s =
      (.ok (s.tables.findFolderByUid ctx.caller.orgId
        (folderSlug drawn.random (Rbac.trim (stringOr args "title" "")))), s) := rfl
  rw [hfind]
  dsimp only
  rw [Prog.run_discard, Prog.run_zoom]
  show Session.db.set ((Folders.FolderRepository.create drawn.id drawn.now _).run s.tables).2 s = s ∧
    _ ∨ Session.db.set ((Folders.FolderRepository.create drawn.id drawn.now _).run s.tables).2 s =
    _ ∧ _
  rcases @run_createFolder s.tables drawn.id drawn.now
    { uid := newFolderUid ctx drawn args s.tables
      orgId := ctx.caller.orgId
      title := Rbac.trim (stringOr args "title" "")
      parentUid := requestedParent args
      createdBy := ctx.caller.userId
      updatedBy := ctx.caller.userId
      source := some .aiGenerated } ctx.caller.userId rfl rfl with ⟨hfits, e, herr⟩ | ⟨hfits, hok⟩
  · refine Or.inl ⟨congrArg (Session.db.set · s) (congrArg Prod.snd herr), fun h => ?_⟩
    have hparent : Folders.truthy (requestedParent args) = none := by
      rw [h.1]
      rfl
    exact hfits ⟨hparent, h.2.2.2⟩
  · exact Or.inr ⟨congrArg (Session.db.set · s) (congrArg Prod.snd hok), by simpa using hbackend,
      htitle, hfits⟩

theorem touches_folder {folderPlace : Folder → Option String} {place : Place} {row : Folder}
    (hrow : row ∉ s.tables.folders) :
    Touches folderPlace s
        (Session.db.set { s.tables with folders := s.tables.folders ++ [row] } s) place ↔
      place = .folder (folderPlace row) := by
  constructor
  · intro htouch
    cases htouch with
    | folder hf => rw [(touched_append hrow).mp hf]
    | dashboard hd => exact absurd hd not_touched_self
    | alertRule hr => exact absurd hr not_touched_self
    | investigation hi => exact absurd hi not_touched_self
    | report hr => exact absurd hr not_touched_self
    | reportSection hid => exact absurd rfl hid
  · rintro rfl
    exact Touches.folder ((touched_append hrow).mpr rfl)

theorem confined_folderCreate :
    (ScopedCall.folderCreate drawn args).Confined ctx s ↔
      (ScopedCall.folderCreate drawn args).NamesPlaces ctx s := by
  rw [ScopedCall.NamesPlaces]
  rcases @run_folderCreate ctx s drawn args with ⟨hsame, hcond⟩ | ⟨hset, hbackend, htitle, hfits⟩
  · constructor
    · intro _ hparent hbackend htitle hfits
      exact absurd ⟨hparent, hbackend, htitle, hfits⟩ hcond
    · intro _
      exact confined_of_unchanged hsame
  · have hrow : newFolder ctx drawn args s.tables ∉ s.tables.folders :=
      fun hmem => hfits.id (List.mem_map_of_mem hmem)
    have hbuilt : ((buildToolEvaluator ctx (ScopedCall.folderCreate drawn args).tool args).run s).1 =
        .ok (some (.action "folders:create"
          ["folders:uid:" ++ stringOr args "parentUid" "*"])) := rfl
    rw [confined_iff hbuilt]
    constructor
    · intro h hparent _ _ _
      have hplace := h (.folder (requestedParent args)) (by
        rw [ScopedCall.handler, hset]
        exact (touches_folder hrow).mpr rfl)
      rw [hparent] at hplace
      simpa using names_folder.mp hplace
    · intro h place htouch
      rw [ScopedCall.handler, hset] at htouch
      rw [(touches_folder hrow).mp htouch]
      apply names_folder.mpr
      cases hparent : requestedParent args with
      | none => exact Or.inl (h hparent hbackend htitle hfits)
      | some p =>
        right
        rw [requestedParent_eq_some hparent]
        exact hparent

end Folders

end OpenObs.Agent
