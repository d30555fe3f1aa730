import OpenObs.Dashboards.Repository
import OpenObs.Folders.Deletion
import OpenObs.Foundation.Views
import OpenObs.Rules.Tenancy

/-!
# The folder of a dashboard

A row names its folder in `folder`, which the routes write and move, and in `folder_uid`, which the
folder lookup, the folder counts, the deletion of a folder and the cascade of folder grants read.
-/

namespace OpenObs.Dashboards

open OpenObs.Foundation OpenObs.Resources OpenObs.Rbac OpenObs.Folders

namespace DashboardRepository

def getFolderUid (orgId dashboardId : String) : Prog Tables (Option String) :=
  Prog.read fun t =>
    (t.dashboards.find? fun d => d.orgId = orgId ∧ d.id = dashboardId).bind (·.folderUid)

end DashboardRepository

/-! ## Belonging to a folder -/

/-- The count `getFolderCounts` reports for a folder; one without an entry has none. -/
def reportedDashboards (t : Tables) (orgId : String) (uids : List String) (uid : String) : ℕ :=
  match ((FolderService.getFolderCounts orgId uids).run t).1 with
  | .ok counts => ((counts.find? (·.1 = uid)).map (·.2.dashboards)).getD 0
  | .error _ => 0

def without (t : Tables) (dashboardId : String) : Tables :=
  { t with dashboards := t.dashboards.filter (·.id ≠ dashboardId) }

structure BelongsTo (t : Tables) (orgId folderUid dashboardId : String) : Prop where
  folder : (DashboardRepository.getFolderUid orgId dashboardId).run t = (.ok (some folderUid), t)
  elsewhere : ∀ org, org ≠ orgId →
    (DashboardRepository.getFolderUid org dashboardId).run t = (.ok none, t)
  counted : ∀ uids, folderUid ∈ uids →
    reportedDashboards t orgId uids folderUid =
      reportedDashboards (without t dashboardId) orgId uids folderUid + 1
  removed : ∀ fuel force t', (FolderService.delete fuel orgId folderUid force).run t = (.ok (), t') →
    t'.findDashboardById dashboardId = none
  cascade : folderUid ≠ "" → ∀ action,
    authorises t.accessDb orgId ⟨action, "folders:uid:" ++ folderUid⟩ action
      ("dashboards:uid:" ++ dashboardId) = true

/-! ## What may happen to the row -/

inductive DashboardWrite : Type where
  | create (id now : String) (input : NewDashboard)
  | update (now id : String) (patch : DashboardPatch)
  | updateStatus (now id status : String) (error : Option String)
  | updatePanels (now id : String) (panels : List Json)
  | updateVariables (now id : String) («variables» : List Json)
  | deleteFolder (fuel : ℕ) (orgId uid : String) (forceDeleteRules : Bool)

def DashboardWrite.code : DashboardWrite → Prog Tables Unit
  | .create id now input => do let _ ← DashboardRepository.create id now input
  | .update now id patch => do let _ ← DashboardRepository.update now id patch
  | .updateStatus now id status error => do
      let _ ← DashboardRepository.updateStatus now id status error
  | .updatePanels now id panels => do let _ ← DashboardRepository.updatePanels now id panels
  | .updateVariables now id «variables» => do
      let _ ← DashboardRepository.updateVariables now id «variables»
  | .deleteFolder fuel orgId uid force => FolderService.delete fuel orgId uid force

structure Unfiled (workspaceId : Option String) (id : String) (t : Tables) : Prop where
  found : ∃ row, t.findDashboardById id = some row ∧ row.workspaceId = workspaceId
  unfiled : ∀ row ∈ t.dashboards, row.id = id → row.folderUid = none

section Steps

variable {workspaceId : Option String} {id : String} {t : Tables}

theorem unfiled_modify (h : Unfiled workspaceId id t) {target : String}
    {edit : Dashboard → Dashboard → Dashboard}
    (hedit : ∀ existing d, (edit existing d).id = d.id ∧
      (edit existing d).workspaceId = d.workspaceId ∧ (edit existing d).folderUid = d.folderUid) :
    Unfiled workspaceId id ((DashboardRepository.modify target edit).run t).2 := by
  rcases run_modify t target edit with ⟨-, hrun⟩ | ⟨row, -, hrun⟩
  · rw [hrun]
    exact h
  rw [hrun]
  have hid : ∀ d, (edit (rowToDashboard row) d).id = d.id := fun d => (hedit _ d).1
  refine ⟨?_, fun r hr hrid => ?_⟩
  · obtain ⟨own, hown, hws⟩ := h.found
    by_cases htarget : id = target
    · subst htarget
      refine ⟨_, (findDashboardById_edited_self hid).trans (by rw [hown]; rfl), ?_⟩
      exact (hedit _ own).2.1.trans hws
    · exact ⟨own, (findDashboardById_edited hid htarget).trans hown, hws⟩
  · obtain ⟨d, hd, rfl⟩ := List.mem_map.mp hr
    split at hrid
    · rw [if_pos (by assumption)]
      rw [hid] at hrid
      exact (hedit _ d).2.2.trans (h.unfiled d hd hrid)
    · rw [if_neg (by assumption)]
      exact h.unfiled d hd hrid

theorem unfiled_create (h : Unfiled workspaceId id t) {newId now : String}
    {input : NewDashboard} :
    Unfiled workspaceId id ((DashboardRepository.create newId now input).run t).2 := by
  refine ⟨?_, fun r hr hrid => ?_⟩
  · obtain ⟨own, hown, hws⟩ := h.found
    exact ⟨own, findDashboardById_create hown, hws⟩
  · rcases run_create t newId now input with ⟨e, herr⟩ | ⟨-, hok⟩
    · rw [herr] at hr
      exact h.unfiled r hr hrid
    · rw [hok] at hr
      rcases List.mem_append.mp hr with hr | hr
      · exact h.unfiled r hr hrid
      · rw [List.mem_singleton.mp hr]
        rfl

theorem unfiled_delete (h : Unfiled workspaceId id t) {fuel : ℕ} {orgId uid : String}
    {force : Bool} :
    Unfiled workspaceId id ((FolderService.delete fuel orgId uid force).run t).2 := by
  have hremoved : ∀ uids, Unfiled workspaceId id (FolderService.removed t orgId uids) := by
    intro uids
    obtain ⟨own, hown, hws⟩ := h.found
    refine ⟨⟨own, Eq.trans ?_ hown, hws⟩, fun r hr hrid => ?_⟩
    · refine find?_filter_of_imp fun d hd hdid => ?_
      rw [h.unfiled d hd (by simpa using hdid)]
      simp [inside]
    · exact h.unfiled r (List.mem_filter.mp hr).1 hrid
  rcases @FolderService.run_delete_listed t orgId uid fuel force with
    ⟨e, herr⟩ | ⟨uids, -, -, -, -, hok⟩
  · rw [herr]
    exact h
  · rw [hok]
    exact hremoved uids

/-- **No write fills the column.** -/
theorem unfiled_step (write : DashboardWrite) (h : Unfiled workspaceId id t) :
    Unfiled workspaceId id (write.code.run t).2 := by
  have hdrop : ∀ {α : Type} (p : Prog Tables α),
      ((p >>= fun _ => pure ()).run t).2 = (p.run t).2 := by
    intro α p
    rw [Prog.run_bind]
    rcases p.run t with ⟨e | a, t'⟩
    · rfl
    · rfl
  cases write with
  | create newId now input =>
    rw [DashboardWrite.code, hdrop]
    exact unfiled_create h
  | update now target patch =>
    rw [DashboardWrite.code, hdrop]
    exact unfiled_modify h fun _ _ => ⟨rfl, rfl, rfl⟩
  | updateStatus now target status error =>
    rw [DashboardWrite.code, hdrop]
    exact unfiled_modify h fun _ _ => ⟨rfl, rfl, rfl⟩
  | updatePanels now target panels =>
    rw [DashboardWrite.code, hdrop]
    exact unfiled_modify h fun _ _ => ⟨rfl, rfl, rfl⟩
  | updateVariables now target «variables» =>
    rw [DashboardWrite.code, hdrop]
    exact unfiled_modify h fun _ _ => ⟨rfl, rfl, rfl⟩
  | deleteFolder fuel orgId uid force => exact unfiled_delete h

theorem unfiled_created {now : String} {input : NewDashboard} {d : Dashboard} {t' : Tables}
    (hcreate : (DashboardRepository.create id now input).run t = (.ok d, t')) :
    d.id = id ∧ Unfiled input.workspaceId id t' := by
  rcases run_create t id now input with ⟨e, herr⟩ | ⟨hfresh, hok⟩
  · rw [herr] at hcreate
    cases hcreate
  rw [hok] at hcreate
  cases hcreate
  have hold : t.dashboards.find? (fun d => decide (d.id = id)) = none := by
    rw [List.find?_eq_none]
    intro d hd hdid
    exact hfresh (List.mem_map.mpr ⟨d, hd, by simpa using hdid⟩)
  refine ⟨rfl, ⟨DashboardRepository.newRow id now input, ?_, rfl⟩, fun row hrow hid => ?_⟩
  · rw [Tables.findDashboardById, List.find?_append, hold, Option.none_or]
    simp [DashboardRepository.newRow]
  · rcases List.mem_append.mp hrow with hrow | hrow
    · exact absurd (List.mem_map.mpr ⟨row, hrow, hid⟩) hfresh
    · rw [List.mem_singleton.mp hrow]
      rfl

end Steps

/-! ## What the readers of the column see -/

section Readers

variable {workspaceId : Option String} {id : String} {t : Tables}

theorem lookup_unfiled (h : Unfiled workspaceId id t) (orgId : String) :
    (t.dashboards.find? fun d => d.orgId = orgId ∧ d.id = id).bind (·.folderUid) = none := by
  cases hfind : t.dashboards.find? fun d => d.orgId = orgId ∧ d.id = id with
  | none => rfl
  | some d =>
    have hid : d.orgId = orgId ∧ d.id = id := by simpa using List.find?_some hfind
    rw [Option.bind_some, h.unfiled d (List.mem_of_find?_eq_some hfind) hid.2]

theorem run_getFolderUid (h : Unfiled workspaceId id t) (orgId : String) :
    (DashboardRepository.getFolderUid orgId id).run t = (.ok none, t) := by
  rw [DashboardRepository.getFolderUid, Prog.run_read, lookup_unfiled h]

theorem reportedDashboards_eq {orgId uid : String} {uids : List String} (huid : uid ∈ uids) :
    reportedDashboards t orgId uids uid =
      (t.dashboards.filter fun d => d.orgId = orgId ∧ d.folderUid = some uid).length := by
  have hne : ¬ uids.length = 0 := fun h => by
    rw [List.length_eq_zero_iff.mp h] at huid
    cases huid
  rw [reportedDashboards, FolderService.getFolderCounts, if_neg hne]
  show ((List.find? _ (List.filterMap _ uids.eraseDups)).map _).getD 0 = _
  rw [Rules.find?_filterMap_key, if_pos (List.mem_eraseDups.mpr huid)]
  · split
    · rename_i hzero
      exact hzero.1.symm
    · rfl
  · intro x p hp
    split at hp
    · cases hp
    · cases hp
      rfl

theorem reportedDashboards_without (h : Unfiled workspaceId id t) {orgId uid : String}
    {uids : List String} (huid : uid ∈ uids) :
    reportedDashboards t orgId uids uid = reportedDashboards (without t id) orgId uids uid := by
  rw [reportedDashboards_eq huid, reportedDashboards_eq huid, without, List.filter_filter]
  congr 1
  refine List.filter_congr fun d hd => ?_
  by_cases hid : d.id = id
  · simp [h.unfiled d hd hid, hid]
  · simp [hid]

theorem not_authorises_folder (h : Unfiled workspaceId id t) (hid : id ≠ "*")
    {orgId folderUid action : String} (hfolder : folderUid ≠ "*") :
    authorises t.accessDb orgId ⟨action, "folders:uid:" ++ folderUid⟩ action
      ("dashboards:uid:" ++ id) = false := by
  have hnone : Db.folderUidOf t.accessDb.dashboards orgId id = none := by
    have hsame : Db.folderUidOf t.accessDb.dashboards orgId id =
        (t.dashboards.find? fun d => d.orgId = orgId ∧ d.id = id).bind (·.folderUid) := by
      rw [Db.folderUidOf, Tables.accessDb, List.find?_map]
      show ((t.dashboards.find? fun d => decide (d.orgId = orgId ∧ d.id = id)).map _).bind _ = _
      cases t.dashboards.find? fun d => decide (d.orgId = orgId ∧ d.id = id) <;> rfl
    rw [hsame, lookup_unfiled h]
  rw [Bool.eq_false_iff, ne_eq, authorises_iff, covers_dashboards_cascade hfolder hid,
    Resolvers.cascade, hnone]
  rintro ⟨want, hwant, -⟩
  cases hwant

end Readers

/-- **A dashboard is in no folder.** After its creation and any writes it is still of its
workspace, and whatever org and folder one takes: the lookup answers that it has no folder,
the counts leave it out, the deletion of the folder leaves it there, and a grant on the
folder does not reach it. -/
theorem dashboard_belongs_nowhere (t t' w : Tables) (id now : String) (input : NewDashboard)
    (d : Dashboard) (hcreate : (DashboardRepository.create id now input).run t = (.ok d, t'))
    (hrun : Serial DashboardWrite.code (fun _ _ => True) t' w) :
    (∃ row, w.findDashboardById d.id = some row ∧ row.workspaceId = input.workspaceId) ∧
    ∀ orgId folderUid, ¬ BelongsTo w orgId folderUid d.id ∧
      (DashboardRepository.getFolderUid orgId d.id).run w = (.ok none, w) ∧
      (∀ uids, folderUid ∈ uids → reportedDashboards w orgId uids folderUid =
        reportedDashboards (without w d.id) orgId uids folderUid) ∧
      (∀ fuel force, ((FolderService.delete fuel orgId folderUid force).run w).2.findDashboardById
        d.id ≠ none) ∧
      (d.id ≠ "*" → folderUid ≠ "*" → ∀ action, authorises w.accessDb orgId
        ⟨action, "folders:uid:" ++ folderUid⟩ action ("dashboards:uid:" ++ d.id) = false) := by
  obtain ⟨rfl, hnew⟩ := unfiled_created hcreate
  have hw : Unfiled input.workspaceId d.id w :=
    Serial.invariant hnew (fun write _ h _ => unfiled_step write h) hrun
  refine ⟨hw.found, fun orgId folderUid => ⟨fun hbelongs => ?_, run_getFolderUid hw orgId,
    fun uids huid => reportedDashboards_without hw huid, fun fuel force => ?_,
    fun hid hfolder action => not_authorises_folder hw hid hfolder⟩⟩
  · have hlookup := (run_getFolderUid hw orgId).symm.trans hbelongs.folder
    cases (Prod.mk.inj hlookup).1
  · obtain ⟨row, hrow, -⟩ := (unfiled_delete hw).found
    rw [hrow]
    exact Option.some_ne_none row

/-! ### A dashboard of the folder `ops` -/

def latencyInput : NewDashboard where
  title := "Latency"
  description := ""
  prompt := ""
  userId := "ann"
  datasourceIds := ["prom"]
  folder := some "ops"
  workspaceId := some "org_main"

def outAndBack : List DashboardWrite :=
  [.update "2026-01-02" "d1" { folder := some none },
    .update "2026-01-03" "d1" { folder := some (some "ops") }]

theorem dashboard_belongs_nowhere_ops :
    ∃ d t', (DashboardRepository.create "d1" "2026-01-01" latencyInput).run Rules.twoOrgs =
        (.ok d, t') ∧
      ((DashboardRepository.getFolderUid "org_main" d.id).run
        (serveAll DashboardWrite.code outAndBack t')).1 = .ok none := by
  refine ⟨_, _, rfl, ?_⟩
  have hrun : ∀ t', Serial DashboardWrite.code (fun _ _ => True) t'
      (serveAll DashboardWrite.code outAndBack t') :=
    fun t' => Serial.of_allServed outAndBack .init ⟨trivial, trivial, trivial⟩
  rw [((dashboard_belongs_nowhere Rules.twoOrgs _ _ "d1" "2026-01-01" latencyInput _ rfl
    (hrun _)).2 "org_main" "ops").2.1]

/-- **The dashboard is not in the folder it was created in.** -/
theorem dashboard_of_folder_lost :
    ¬ ∀ (t t' : Tables) (id now : String) (input : NewDashboard) (d : Dashboard)
      (orgId folderUid : String),
      (DashboardRepository.create id now input).run t = (.ok d, t') →
      input.workspaceId = some orgId → input.folder = some folderUid →
      BelongsTo t' orgId folderUid d.id := by
  intro hall
  have hbelongs := hall Rules.twoOrgs _ "d1" "2026-01-01" latencyInput _ "org_main" "ops" rfl rfl rfl
  cases (Prod.mk.inj hbelongs.folder).1

end OpenObs.Dashboards
