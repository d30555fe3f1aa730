import OpenObs.Rules.Routes
import OpenObs.Rules.Tenancy

/-!
# Deletion and the tenant columns

`delete` finds the subtree by the parent links, and its contents by the column `org_id`. A rule
carries the constant `org_main` there, and the org it was created for in `workspace_id`.
-/

namespace OpenObs.Folders

open OpenObs.Foundation OpenObs.Foundation.Forest OpenObs.Resources

/-! ## What a deletion is to do -/

open Classical in
/-- The rows that are not gone. -/
noncomputable def without {α : Type} (l : List α) (gone : α → Prop) : List α :=
  l.filter fun x => decide (¬ gone x)

theorem mem_without {α : Type} {l : List α} {gone : α → Prop} {x : α} :
    x ∈ without l gone ↔ x ∈ l ∧ ¬ gone x := by
  classical
  rw [without, List.mem_filter, decide_eq_true_eq]

theorem filter_not_eq_without {α : Type} {l : List α} {test : α → Bool} {gone : α → Prop} :
    l.filter (fun x => !test x) = without l gone ↔ ∀ x ∈ l, (test x = true ↔ gone x) := by
  classical
  constructor
  · intro h x hx
    have hiff : x ∈ l.filter (fun x => !test x) ↔ x ∈ without l gone := by rw [h]
    rw [List.mem_filter, mem_without, Bool.not_eq_true', ← Bool.not_eq_true] at hiff
    constructor
    · intro htest
      by_contra hgone
      exact (hiff.mpr ⟨hx, hgone⟩).2 htest
    · intro hgone
      by_contra htest
      exact (hiff.mp ⟨hx, htest⟩).2 hgone
  · intro h
    apply List.filter_congr
    intro x hx
    rw [Bool.eq_iff_iff, Bool.not_eq_true', ← Bool.not_eq_true, decide_eq_true_eq, h x hx]

section Spec

variable (t : Tables) (orgId uid : String)

def LiesIn (folderUid : Option String) : Prop :=
  ∃ x, folderUid = some x ∧ Under (parentOf t orgId) x uid

def IsCut (f : Folder) : Prop := f.orgId = orgId ∧ Under (parentOf t orgId) f.uid uid

/-- `t'` is `t` without the subtree of `uid` and what the org has in it. -/
structure CutExactly (t' : Tables) : Prop where
  folders : t'.folders = without t.folders (IsCut t orgId uid)
  dashboards : t'.dashboards = without t.dashboards fun d =>
    d.workspaceId = some orgId ∧ LiesIn t orgId uid d.folderUid
  alertRules : t'.alertRules = without t.alertRules fun r =>
    r.workspaceId = some orgId ∧ LiesIn t orgId uid r.folderUid
  alertHistory : t'.alertHistory = without t.alertHistory fun h => ∃ r ∈ t.alertRules,
    (r.workspaceId = some orgId ∧ LiesIn t orgId uid r.folderUid) ∧ r.id = h.ruleId
  dashboardAcl : t'.dashboardAcl = without t.dashboardAcl fun a =>
    a.orgId = orgId ∧ ∃ f ∈ t.folders, IsCut t orgId uid f ∧ a.folderId = some f.id
  orgs : t'.orgs = t.orgs
  users : t'.users = t.users

/-- An outcome of a deletion: it throws and changes nothing, or it cuts exactly, leaves no
rule and no dashboard of the org behind in a folder that is gone, and had no rule of the org
to remove unless it was forced. -/
def Deletes (force : Bool) (outcome : Except String Unit × Tables) : Prop :=
  (∃ e, outcome = (.error e, t)) ∨
  ∃ t', outcome = (.ok (), t') ∧ CutExactly t orgId uid t' ∧
    (∀ r ∈ t'.alertRules, r.workspaceId = some orgId → ¬ LiesIn t orgId uid r.folderUid) ∧
    (∀ d ∈ t'.dashboards, d.workspaceId = some orgId → ¬ LiesIn t orgId uid d.folderUid) ∧
    (force = false →
      ∀ r ∈ t.alertRules, r.workspaceId = some orgId → ¬ LiesIn t orgId uid r.folderUid)

def ColumnsAgree (force : Bool) : Prop :=
  t.findFolderByUid orgId uid = none ∨
  (force = false ∧ orgId = "org_main" ∧ ∃ r ∈ t.alertRules, LiesIn t orgId uid r.folderUid) ∨
  ((∀ r ∈ t.alertRules, LiesIn t orgId uid r.folderUid →
      (orgId = "org_main" ↔ r.workspaceId = some orgId)) ∧
    ∀ d ∈ t.dashboards, LiesIn t orgId uid d.folderUid →
      (d.orgId = orgId ↔ d.workspaceId = some orgId))

end Spec

/-! ## States made of folders and rules -/

structure Built (t : Tables) : Prop extends FolderKeys t where
  org : ∀ r ∈ t.alertRules, r.orgId = "org_main"

/-- A folder or a rule is created, by the service, by the route that needs a default folder,
or by the repository. -/
inductive BuildCall : Type where
  | folder (orgId : String) (drawn : Drawn) (input : CreateFolderInput) (userId : String)
  | defaultFolder (drawn : Drawn) (workspaceId : String) (userId requested : Option String)
  | rule (drawn : Rules.DrawnRule) (data : Rules.NewAlertRule)

def BuildCall.code (driver : Rules.Driver) : BuildCall → Prog Tables Unit
  | .folder orgId drawn input userId => do
      let _ ← FolderService.create drawn orgId input userId
      return ()
  | .defaultFolder drawn workspaceId userId requested => do
      let _ ← Rules.resolveAlertRuleFolderUid drawn workspaceId userId requested
      return ()
  | .rule drawn data => do
      let _ ← Rules.AlertRuleRepository.create driver drawn data
      return ()

section Built

variable {t : Tables}

theorem Built.addFolder (h : Built t) {row : Folder} (hid : row.id ∉ t.folders.map (·.id))
    (huid : t.findFolderByUid row.orgId row.uid = none) (hname : row.uid ≠ "") :
    Built (addFolder t row) where
  toFolderKeys := keys_addFolder h.toFolderKeys hid huid hname
  org := h.org

theorem built_create (h : Built t) (drawn : Drawn) (orgId : String) (input : CreateFolderInput)
    (userId : String) : Built ((FolderService.create drawn orgId input userId).run t).2 := by
  rw [FolderService.create]
  split
  · exact h
  refine FolderService.reads_chooseUid.run_post (P := Built) h fun uid huid => ?_
  refine FolderService.reads_checkParent.run_post (P := Built) h fun _ _ => ?_
  rcases run_create drawn.id drawn.now _ with ⟨e, herr⟩ | ⟨hid, hfree, hrow⟩
  · rw [herr]
    exact h
  · rw [hrow]
    exact h.addFolder hid hfree (FolderService.chooseUid_ne huid)

theorem built_default (h : Built t) (drawn : Drawn) (workspaceId : String)
    (userId requested : Option String) :
    Built ((Rules.resolveAlertRuleFolderUid drawn workspaceId userId requested).run t).2 := by
  rw [Rules.resolveAlertRuleFolderUid]
  split
  · exact h
  · refine (Reads.read _).run_post (P := Built) h fun found _ => ?_
    cases found with
    | some existing => exact h
    | none =>
      dsimp only
      rw [Reads.run_snd fun _ => Reads.pure _]
      rcases run_create drawn.id drawn.now _ with ⟨e, herr⟩ | ⟨hid, hfree, hrow⟩
      · rw [herr]
        exact h
      · rw [hrow]
        exact h.addFolder hid hfree (show "alerts" ≠ "" by decide)

theorem built_rule (h : Built t) (driver : Rules.Driver) (drawn : Rules.DrawnRule)
    (data : Rules.NewAlertRule) :
    Built ((Rules.AlertRuleRepository.create driver drawn data).run t).2 := by
  rcases Rules.AlertRuleRepository.run_create driver drawn data t with
    ⟨e, herr⟩ | ⟨row, hrow, -, hok⟩
  · rw [herr]
    exact h
  · rw [hok]
    obtain ⟨-, horg, -, -⟩ := Rules.AlertRuleRepository.newRow_ok hrow
    refine ⟨⟨h.id, h.uid, h.named⟩, fun r hr => ?_⟩
    rcases List.mem_append.mp hr with hr | hr
    · exact h.org r hr
    · rw [List.mem_singleton.mp hr, horg]

theorem built_call (h : Built t) (driver : Rules.Driver) (call : BuildCall) :
    Built ((call.code driver).run t).2 := by
  cases call with
  | folder orgId drawn input userId =>
    rw [BuildCall.code, Reads.run_snd fun _ => Reads.pure ()]
    exact built_create h drawn orgId input userId
  | defaultFolder drawn workspaceId userId requested =>
    rw [BuildCall.code, Reads.run_snd fun _ => Reads.pure ()]
    exact built_default h drawn workspaceId userId requested
  | rule drawn data =>
    rw [BuildCall.code, Reads.run_snd fun _ => Reads.pure ()]
    exact built_rule h driver drawn data

end Built

/-! ## The deletion of a folder that is there -/

section Delete

variable {t : Tables} {orgId uid : String} {uids : List String}

theorem inside_iff (hmem : ∀ x, x ∈ uids ↔ Under (parentOf t orgId) x uid)
    {folderUid : Option String} : inside uids folderUid = true ↔ LiesIn t orgId uid folderUid := by
  cases folderUid with
  | none =>
    constructor
    · intro h
      cases h
    · rintro ⟨x, hx, -⟩
      cases hx
  | some x =>
    rw [inside, Option.any_some, decide_eq_true_eq, hmem]
    constructor
    · exact fun h => ⟨x, rfl, h⟩
    · rintro ⟨y, hy, h⟩
      cases hy
      exact h

theorem guards_iff (hkeys : FolderKeys t) (hmem : ∀ x, x ∈ uids ↔ Under (parentOf t orgId) x uid)
    {a : FolderAcl} : guards t orgId uids a = true ↔
      ∃ f ∈ t.folders, IsCut t orgId uid f ∧ a.folderId = some f.id := by
  rw [guards, List.any_eq_true]
  constructor
  · rintro ⟨x, hx, hfound⟩
    obtain ⟨f, hf, hid⟩ := Option.any_eq_true _ _ |>.mp hfound
    obtain ⟨hfmem, horg, rfl⟩ := findFolderByUid_eq_some hf
    exact ⟨f, hfmem, ⟨horg, (hmem f.uid).mp hx⟩, by simpa using hid⟩
  · rintro ⟨f, hf, ⟨horg, hunder⟩, hid⟩
    refine ⟨f.uid, (hmem f.uid).mpr hunder, ?_⟩
    rw [findFolderByUid_of_mem hkeys hf horg, hid]
    simp

theorem removed_cutExactly (hkeys : FolderKeys t)
    (hmem : ∀ x, x ∈ uids ↔ Under (parentOf t orgId) x uid)
    (hrules : ∀ r ∈ t.alertRules, LiesIn t orgId uid r.folderUid →
      (r.orgId = orgId ↔ r.workspaceId = some orgId))
    (hdashboards : ∀ d ∈ t.dashboards, LiesIn t orgId uid d.folderUid →
      (d.orgId = orgId ↔ d.workspaceId = some orgId)) :
    CutExactly t orgId uid (FolderService.removed t orgId uids) where
  folders := filter_not_eq_without.mpr fun f _ => by
    rw [Bool.and_eq_true, beq_iff_eq, decide_eq_true_eq, hmem, IsCut]
  dashboards := filter_not_eq_without.mpr fun d hd => by
    rw [Bool.and_eq_true, beq_iff_eq, inside_iff hmem]
    exact and_congr_left fun hlies => hdashboards d hd hlies
  alertRules := filter_not_eq_without.mpr fun r hr => by
    rw [Bool.and_eq_true, beq_iff_eq, inside_iff hmem]
    exact and_congr_left fun hlies => hrules r hr hlies
  alertHistory := filter_not_eq_without.mpr fun h _ => by
    rw [List.any_eq_true]
    constructor
    · rintro ⟨r, hr, hgone⟩
      rw [Bool.and_eq_true, Bool.and_eq_true, beq_iff_eq, beq_iff_eq, inside_iff hmem] at hgone
      obtain ⟨⟨horg, hlies⟩, hid⟩ := hgone
      exact ⟨r, hr, ⟨(hrules r hr hlies).mp horg, hlies⟩, hid⟩
    · rintro ⟨r, hr, ⟨hworkspace, hlies⟩, hid⟩
      refine ⟨r, hr, ?_⟩
      rw [Bool.and_eq_true, Bool.and_eq_true, beq_iff_eq, beq_iff_eq, inside_iff hmem]
      exact ⟨⟨(hrules r hr hlies).mpr hworkspace, hlies⟩, hid⟩
  dashboardAcl := filter_not_eq_without.mpr fun a _ => by
    rw [Bool.and_eq_true, beq_iff_eq, guards_iff hkeys hmem]
  orgs := rfl
  users := rfl

theorem agree_of_cutExactly (hmem : ∀ x, x ∈ uids ↔ Under (parentOf t orgId) x uid)
    (h : CutExactly t orgId uid (FolderService.removed t orgId uids)) :
    (∀ r ∈ t.alertRules, LiesIn t orgId uid r.folderUid →
      (r.orgId = orgId ↔ r.workspaceId = some orgId)) ∧
    ∀ d ∈ t.dashboards, LiesIn t orgId uid d.folderUid →
      (d.orgId = orgId ↔ d.workspaceId = some orgId) := by
  constructor
  · intro r hr hlies
    have hsame := filter_not_eq_without.mp h.alertRules r hr
    rw [Bool.and_eq_true, beq_iff_eq, inside_iff hmem] at hsame
    exact ⟨fun horg => (hsame.mp ⟨horg, hlies⟩).1, fun hws => (hsame.mpr ⟨hws, hlies⟩).1⟩
  · intro d hd hlies
    have hsame := filter_not_eq_without.mp h.dashboards d hd
    rw [Bool.and_eq_true, beq_iff_eq, inside_iff hmem] at hsame
    exact ⟨fun horg => (hsame.mp ⟨horg, hlies⟩).1, fun hws => (hsame.mpr ⟨hws, hlies⟩).1⟩

theorem run_delete_subtree (hkeys : FolderKeys t) {fuel : ℕ} (hfuel : t.folders.length < fuel)
    {force : Bool} {folder : Folder} (hfolder : t.findFolderByUid orgId uid = some folder) :
    ∃ uids, (∀ x, x ∈ uids ↔ Under (parentOf t orgId) x uid) ∧
      ((force = false ∧ FolderService.HoldsRule t orgId uids ∧
          ∃ e, (FolderService.delete fuel orgId uid force).run t = (.error e, t)) ∨
        ((force = true ∨ ¬ FolderService.HoldsRule t orgId uids) ∧
          (FolderService.delete fuel orgId uid force).run t =
            (.ok (), FolderService.removed t orgId uids))) := by
  obtain ⟨descendants, hlist⟩ :=
    @FolderService.listDescendantUids_terminates t orgId uid fuel hfuel
  obtain ⟨uids, hmem, hrun⟩ :=
    @FolderService.run_delete_found t orgId uid fuel force folder descendants hfolder hlist
  refine ⟨uids, fun x => ?_, hrun⟩
  rw [hmem, FolderService.listDescendantUids_exact hkeys hlist, under_iff_eq_or_above]

end Delete

/-- **Deletion is exact where the columns agree.** In every state that creations of folders
and rules reach from a store without either, a call of `delete` with room for its traversal
does what it is to do exactly if it throws, or `org_id` and `workspace_id` agree on
everything in the subtree. -/
theorem delete_exact_iff (driver : Rules.Driver) (t₀ : Tables) (hfolders : t₀.folders = [])
    (hrules : t₀.alertRules = []) (t : Tables)
    (hreach : Serial (BuildCall.code driver) (fun _ _ => True) t₀ t) (orgId uid : String)
    (force : Bool) (fuel : ℕ) (hfuel : t.folders.length < fuel) :
    Deletes t orgId uid force ((FolderService.delete fuel orgId uid force).run t) ↔
      ColumnsAgree t orgId uid force := by
  have hbuilt : Built t := by
    refine Serial.invariant (I := Built) ⟨?_, by simp [hrules]⟩
      (fun call s h _ => built_call h driver call) hreach
    exact (@FolderTree.of_empty t₀ orgId hfolders).toFolderKeys
  cases hfolder : t.findFolderByUid orgId uid with
  | none =>
    obtain ⟨e, herr⟩ := @FolderService.run_delete_missing t orgId uid fuel force hfolder
    rw [herr]
    exact ⟨fun _ => Or.inl hfolder, fun _ => Or.inl ⟨e, rfl⟩⟩
  | some folder =>
    obtain ⟨uids, hmem, hrun⟩ :=
      @run_delete_subtree t orgId uid hbuilt.toFolderKeys fuel hfuel force folder hfolder
    have hholds : FolderService.HoldsRule t orgId uids ↔
        orgId = "org_main" ∧ ∃ r ∈ t.alertRules, LiesIn t orgId uid r.folderUid := by
      constructor
      · rintro ⟨r, hr, horg, hin⟩
        exact ⟨horg.symm.trans (hbuilt.org r hr), r, hr, (inside_iff hmem).mp hin⟩
      · rintro ⟨horg, r, hr, hlies⟩
        exact ⟨r, hr, (hbuilt.org r hr).trans horg.symm, (inside_iff hmem).mpr hlies⟩
    have hcolumn (r : AlertRule) (hr : r ∈ t.alertRules) :
        r.orgId = orgId ↔ orgId = "org_main" := by
      rw [hbuilt.org r hr]
      exact eq_comm
    rcases hrun with ⟨hforce, hrule, e, herr⟩ | ⟨hallowed, hok⟩
    · rw [herr]
      exact ⟨fun _ => Or.inr (Or.inl ⟨hforce, hholds.mp hrule⟩), fun _ => Or.inl ⟨e, rfl⟩⟩
    · rw [hok]
      constructor
      · rintro (⟨e, herr⟩ | ⟨t', ht', hcut, -⟩)
        · cases herr
        · cases ht'
          obtain ⟨hr, hd⟩ := agree_of_cutExactly hmem hcut
          refine Or.inr (Or.inr ⟨fun r hmemr hlies => ?_, hd⟩)
          rw [← hcolumn r hmemr]
          exact hr r hmemr hlies
      · rintro (hnone | ⟨hforce, hrule⟩ | ⟨hr, hd⟩)
        · rw [hfolder] at hnone
          cases hnone
        · rcases hallowed with htrue | hno
          · rw [hforce] at htrue
            cases htrue
          · exact absurd (hholds.mpr hrule) hno
        · have hcut := removed_cutExactly hbuilt.toFolderKeys hmem
            (fun r hmemr hlies => (hcolumn r hmemr).trans (hr r hmemr hlies)) hd
          refine Or.inr ⟨_, rfl, hcut, fun r hmemr hws hlies => ?_, fun d hmemd hws hlies => ?_,
            fun hforce r hmemr hws hlies => ?_⟩
          · rw [hcut.alertRules, mem_without] at hmemr
            exact hmemr.2 ⟨hws, hlies⟩
          · rw [hcut.dashboards, mem_without] at hmemd
            exact hmemd.2 ⟨hws, hlies⟩
          · rcases hallowed with htrue | hno
            · rw [hforce] at htrue
              cases htrue
            · exact hno (hholds.mpr ⟨(hr r hmemr hlies).mpr hws, r, hmemr, hlies⟩)

def twoEmptyOrgs : Tables := { orgs := ["org_main", "org_b"], users := ["ann"] }

def ruleInFolder (orgId : String) : List BuildCall :=
  [.folder orgId ⟨"f1", "2026-01-01", "r1", "s1"⟩ ⟨none, "Ops", none, none, none, none⟩ "ann",
    .rule ⟨"1", "2026-01-01"⟩ (Rules.ruleOf orgId)]

theorem reach_ruleInFolder (orgId : String) :
    Serial (BuildCall.code Rules.sqliteDriver) (fun _ _ => True) twoEmptyOrgs
      (serveAll (BuildCall.code Rules.sqliteDriver) (ruleInFolder orgId) twoEmptyOrgs) :=
  Serial.serveAll (fun _ _ => trivial) _ .init

theorem delete_exact_iff_main :
    Deletes (serveAll (BuildCall.code Rules.sqliteDriver) (ruleInFolder "org_main") twoEmptyOrgs)
      "org_main" "ops" true ((FolderService.delete 9 "org_main" "ops" true).run
        (serveAll (BuildCall.code Rules.sqliteDriver) (ruleInFolder "org_main") twoEmptyOrgs)) := by
  refine (delete_exact_iff Rules.sqliteDriver twoEmptyOrgs rfl rfl _ (reach_ruleInFolder "org_main")
    "org_main" "ops" true 9 (by decide +kernel)).mpr (Or.inr (Or.inr ⟨fun r hr _ => ?_, ?_⟩))
  · have hall : (serveAll (BuildCall.code Rules.sqliteDriver) (ruleInFolder "org_main")
        twoEmptyOrgs).alertRules.all (·.workspaceId = some "org_main") = true := by decide +kernel
    exact ⟨fun _ => of_decide_eq_true (List.all_eq_true.mp hall r hr), fun _ => rfl⟩
  · have hnone : (serveAll (BuildCall.code Rules.sqliteDriver) (ruleInFolder "org_main")
        twoEmptyOrgs).dashboards.length = 0 := by decide +kernel
    rw [List.length_eq_zero_iff.mp hnone]
    simp

/-- The folder of another org goes, unforced, and the rule in it stays. -/
theorem delete_leaves_rule_behind :
    ¬ ∀ (driver : Rules.Driver) (t₀ : Tables), t₀.folders = [] → t₀.alertRules = [] → ∀ t,
      Serial (BuildCall.code driver) (fun _ _ => True) t₀ t →
      ∀ (orgId uid : String) (force : Bool) (fuel : ℕ), t.folders.length < fuel →
        Deletes t orgId uid force ((FolderService.delete fuel orgId uid force).run t) := by
  intro hall
  have hdeletes := hall Rules.sqliteDriver twoEmptyOrgs rfl rfl _ (reach_ruleInFolder "org_b")
    "org_b" "ops" false 9 (by decide +kernel)
  have hok : ((FolderService.delete 9 "org_b" "ops" false).run (serveAll
      (BuildCall.code Rules.sqliteDriver) (ruleInFolder "org_b") twoEmptyOrgs)).1.isOk = true := by
    decide +kernel
  have hrule : (serveAll (BuildCall.code Rules.sqliteDriver) (ruleInFolder "org_b")
      twoEmptyOrgs).alertRules.any
        (fun r => r.workspaceId = some "org_b" ∧ r.folderUid = some "ops") = true := by
    decide +kernel
  rcases hdeletes with ⟨e, herr⟩ | ⟨t', -, -, -, -, hguard⟩
  · rw [herr] at hok
    cases hok
  · obtain ⟨r, hr, hcols⟩ := List.any_eq_true.mp hrule
    obtain ⟨hworkspace, hfolder⟩ := of_decide_eq_true hcols
    exact hguard rfl r hr hworkspace ⟨"ops", hfolder, 0, climb_zero⟩

end OpenObs.Folders
