import OpenObs.Agent.RulePlaces
import OpenObs.Foundation.Views

/-!
# The rows of an org

What an org has in a session, and what the others have.
-/

namespace OpenObs.Agent

open OpenObs.Foundation OpenObs.Resources OpenObs.Rules OpenObs.Dashboards
open OpenObs.Rbac hiding Folder

/-! ## Own and foreign rows -/

section Rows

variable (orgId : String)

def ownFolder (f : Folder) : Bool := f.orgId = orgId

def ownDashboard (d : Dashboard) : Bool := d.workspaceId = some orgId

def ownRule (r : AlertRule) : Bool := r.workspaceId = some orgId

def ownInvestigation (i : Investigation) : Bool := i.workspaceId = some orgId

def foreignEntry (t : Tables) (h : AlertHistoryEntry) : Bool :=
  t.alertRules.any fun r => !ownRule orgId r && r.id == h.ruleId

def ownTables (t : Tables) : Tables :=
  { t with
    folders := t.folders.filter (ownFolder orgId)
    dashboards := t.dashboards.filter (ownDashboard orgId)
    alertRules := t.alertRules.filter (ownRule orgId)
    alertHistory := t.alertHistory.filter fun h => !foreignEntry orgId t h }

def ownPart (s : Session) : Session :=
  { s with
    tables := ownTables orgId s.tables
    investigations := s.investigations.filter (ownInvestigation orgId) }

structure ForeignTables where
  folders : List Folder
  dashboards : List Dashboard
  alertRules : List AlertRule
  alertHistory : List AlertHistoryEntry

def foreignTables (t : Tables) : ForeignTables where
  folders := t.folders.filter fun f => !ownFolder orgId f
  dashboards := t.dashboards.filter fun d => !ownDashboard orgId d
  alertRules := t.alertRules.filter fun r => !ownRule orgId r
  alertHistory := t.alertHistory.filter (foreignEntry orgId t)

structure ForeignRows extends ForeignTables where
  investigations : List Investigation

def foreignRows (s : Session) : ForeignRows :=
  { foreignTables orgId s.tables with
    investigations := s.investigations.filter fun i => !ownInvestigation orgId i }

end Rows

/-! ## The caller -/

def withRows (access : Db) (t : Tables) : Db :=
  { access with
    folders := t.accessDb.folders
    dashboards := t.accessDb.dashboards
    alertRules := t.accessDb.alertRules }

def callerOf (access : Db) (identity : Identity) : Caller where
  orgId := identity.orgId
  userId := some identity.userId
  allows t e := AccessControl.evaluate (.gateway (withRows access t)) (withRows access t) identity e

def ActionContext.asking (ctx : ActionContext) (access : Db) (identity : Identity) :
    ActionContext :=
  { ctx with caller := callerOf access identity }

def HidesDashboard (orgId : String) (t : Tables) (uid : String) : Prop :=
  ∃ d ∈ t.dashboards, ownDashboard orgId d = false ∧ d.orgId = orgId ∧ d.id = uid

def HidesRule (orgId : String) (t : Tables) (uid : String) : Prop :=
  ∃ r ∈ t.alertRules, ownRule orgId r = false ∧ r.orgId = orgId ∧ r.id = uid

structure Clean (orgId : String) (t : Tables) (e : Evaluator) : Prop where
  dashboards : ∀ scope ∈ e.scopes, (parseScope scope).kind = "dashboards" →
    ∀ uid, Resolvers.concreteUid scope = some uid → ¬ HidesDashboard orgId t uid
  alertRules : ∀ scope ∈ e.scopes, (parseScope scope).kind = "alert.rules" →
    ∀ uid, Resolvers.concreteUid scope = some uid → ¬ HidesRule orgId t uid
  target : ∀ target, extractDashboardAclTarget e = some target →
    ¬ HidesDashboard orgId t target.uid

section Access

variable {access : Db} {orgId : String} {t : Tables}

theorem findFolderByUid_own {uid : String} :
    (withRows access (ownTables orgId t)).findFolderByUid orgId uid =
      (withRows access t).findFolderByUid orgId uid := by
  show ((t.folders.filter (ownFolder orgId)).map _).find? _ = (t.folders.map _).find? _
  rw [List.find?_map, List.find?_map]
  congr 1
  apply find?_filter_of_imp
  intro f _ hf
  simp only [Function.comp, decide_eq_true_eq] at hf
  simpa [ownFolder] using hf.1

theorem ancestorsFrom_own {n : ℕ} : ∀ {f : Rbac.Folder},
    (withRows access (ownTables orgId t)).ancestorsFrom orgId n f =
      (withRows access t).ancestorsFrom orgId n f := by
  induction n with
  | zero => exact rfl
  | succ n ih =>
    intro f
    rw [Db.ancestorsFrom, Db.ancestorsFrom]
    cases f.parentUid.filter (· ≠ "") with
    | none => rfl
    | some parentUid =>
      dsimp only
      rw [findFolderByUid_own]
      cases (withRows access t).findFolderByUid orgId parentUid with
      | none => rfl
      | some parent =>
        dsimp only
        rw [ih]

theorem listAncestors_own {uid : String} :
    (withRows access (ownTables orgId t)).listAncestors orgId uid =
      (withRows access t).listAncestors orgId uid := by
  rw [Db.listAncestors, Db.listAncestors, findFolderByUid_own]
  cases (withRows access t).findFolderByUid orgId uid with
  | none => rfl
  | some folder => exact ancestorsFrom_own

theorem folderUidOf_dashboards {uid : String} (h : ¬ HidesDashboard orgId t uid) :
    Db.folderUidOf (withRows access (ownTables orgId t)).dashboards orgId uid =
      Db.folderUidOf (withRows access t).dashboards orgId uid := by
  rw [Db.folderUidOf, Db.folderUidOf]
  congr 1
  show ((t.dashboards.filter (ownDashboard orgId)).map _).find? _ = (t.dashboards.map _).find? _
  rw [List.find?_map, List.find?_map]
  congr 1
  apply find?_filter_of_imp
  intro d hd hmatch
  simp only [Function.comp, decide_eq_true_eq] at hmatch
  by_contra hforeign
  exact h ⟨d, hd, by simpa using hforeign, hmatch.1, hmatch.2⟩

theorem folderUidOf_rules {uid : String} (h : ¬ HidesRule orgId t uid) :
    Db.folderUidOf (withRows access (ownTables orgId t)).alertRules orgId uid =
      Db.folderUidOf (withRows access t).alertRules orgId uid := by
  rw [Db.folderUidOf, Db.folderUidOf]
  congr 1
  show ((t.alertRules.filter (ownRule orgId)).map _).find? _ = (t.alertRules.map _).find? _
  rw [List.find?_map, List.find?_map]
  congr 1
  apply find?_filter_of_imp
  intro r hr hmatch
  simp only [Function.comp, decide_eq_true_eq] at hmatch
  by_contra hforeign
  exact h ⟨r, hr, by simpa using hforeign, hmatch.1, hmatch.2⟩

theorem folderScopes_own {folderUid : String} :
    Resolvers.folderScopes (withRows access (ownTables orgId t)) orgId folderUid =
      Resolvers.folderScopes (withRows access t) orgId folderUid := by
  rw [Resolvers.folderScopes, Resolvers.folderScopes, listAncestors_own]

theorem resolveDashboards_own {scope : String}
    (h : (parseScope scope).kind = "dashboards" →
      ∀ uid, Resolvers.concreteUid scope = some uid → ¬ HidesDashboard orgId t uid) :
    Resolvers.dashboards (withRows access (ownTables orgId t)) orgId scope =
      Resolvers.dashboards (withRows access t) orgId scope := by
  rw [Resolvers.dashboards, Resolvers.dashboards]
  by_cases hkind : (parseScope scope).kind = "dashboards"
  · rw [if_neg (not_not.mpr hkind), if_neg (not_not.mpr hkind)]
    cases huid : Resolvers.concreteUid scope with
    | none => rfl
    | some uid =>
      dsimp only
      rw [Resolvers.cascade, Resolvers.cascade, folderUidOf_dashboards (h hkind uid huid)]
      simp only [folderScopes_own]
  · rw [if_pos hkind, if_pos hkind]

theorem resolveRules_own {scope : String}
    (h : (parseScope scope).kind = "alert.rules" →
      ∀ uid, Resolvers.concreteUid scope = some uid → ¬ HidesRule orgId t uid) :
    Resolvers.alertRules (withRows access (ownTables orgId t)) orgId scope =
      Resolvers.alertRules (withRows access t) orgId scope := by
  rw [Resolvers.alertRules, Resolvers.alertRules]
  by_cases hkind : (parseScope scope).kind = "alert.rules"
  · rw [if_neg (not_not.mpr hkind), if_neg (not_not.mpr hkind)]
    cases huid : Resolvers.concreteUid scope with
    | none => rfl
    | some uid =>
      dsimp only
      rw [Resolvers.cascade, Resolvers.cascade, folderUidOf_rules (h hkind uid huid)]
      simp only [folderScopes_own]
  · rw [if_pos hkind, if_pos hkind]

theorem resolveFolders_own {scope : String} :
    Resolvers.folders (withRows access (ownTables orgId t)) orgId scope =
      Resolvers.folders (withRows access t) orgId scope := by
  rw [Resolvers.folders, Resolvers.folders]
  simp only [listAncestors_own]

theorem registry_own {scope : String}
    (hdashboards : (parseScope scope).kind = "dashboards" →
      ∀ uid, Resolvers.concreteUid scope = some uid → ¬ HidesDashboard orgId t uid)
    (hrules : (parseScope scope).kind = "alert.rules" →
      ∀ uid, Resolvers.concreteUid scope = some uid → ¬ HidesRule orgId t uid) :
    registry (withRows access (ownTables orgId t)) orgId scope =
      registry (withRows access t) orgId scope := by
  have hkind : ∀ kind, Resolvers.byKind (withRows access (ownTables orgId t)) orgId kind scope =
      Resolvers.byKind (withRows access t) orgId kind scope := by
    intro kind
    rw [Resolvers.byKind, Resolvers.byKind]
    split
    · exact resolveDashboards_own hdashboards
    · split
      · exact resolveFolders_own
      · split
        · exact resolveRules_own hrules
        · rfl
  rw [registry, registry, resolve, resolve, hkind]

theorem getForDashboard_own {uid : String} (h : ¬ HidesDashboard orgId t uid) :
    getForDashboard (withRows access (ownTables orgId t)) orgId uid =
      getForDashboard (withRows access t) orgId uid := by
  rw [getForDashboard, getForDashboard, folderUidOf_dashboards h]
  simp only [findFolderByUid_own, listAncestors_own]
  rfl

theorem allows_own {identity : Identity} {e : Evaluator} (h : Clean identity.orgId t e) :
    (callerOf access identity).allows (ownTables identity.orgId t) e =
      (callerOf access identity).allows t e := by
  have heffective : effective (.gateway (withRows access (ownTables identity.orgId t)))
      identity.orgId e = effective (.gateway (withRows access t)) identity.orgId e := by
    rw [effective, effective]
    apply Evaluator.mutate_congr
    intro scope hscope
    rw [registry_own (h.dashboards scope hscope) (h.alertRules scope hscope)]
  show AccessControl.evaluate _ _ identity e = AccessControl.evaluate _ _ identity e
  rw [AccessControl.evaluate, AccessControl.evaluate, heffective]
  cases htarget : extractDashboardAclTarget e with
  | none => rfl
  | some target =>
    dsimp only
    rw [grantsAtLeast, grantsAtLeast, getForDashboard_own (h.target target htarget)]
    rfl

end Access

/-! ## Local programs -/

section Locals

variable {α : Type} {orgId : String} {s : Session} {t : Tables}

theorem local_zoom {p : Prog Tables α}
    (h : Local (ownTables orgId) (foreignTables orgId) p s.tables) :
    Local (ownPart orgId) (foreignRows orgId) (p.zoom Session.db) s := by
  constructor
  · rw [Prog.run_zoom, Prog.run_zoom]
    show ((p.run (ownTables orgId s.tables)).1, Session.db.set (p.run (ownTables orgId s.tables)).2
      (ownPart orgId s)) = _
    rw [h.sees]
    rfl
  · rw [Prog.run_zoom]
    show ({ foreignTables orgId (p.run s.tables).2 with
      investigations := s.investigations.filter fun i => !ownInvestigation orgId i } :
        ForeignRows) = _
    rw [h.leaves]
    rfl

/-! ### Rules -/

def OwnRuleId (orgId : String) (t : Tables) (id : String) : Prop :=
  ∀ r ∈ t.alertRules, r.id = id → ownRule orgId r = true

theorem findRuleById_own {id : String} (hown : OwnRuleId orgId t id) :
    (ownTables orgId t).findRuleById id = t.findRuleById id := by
  apply find?_filter_of_imp
  intro r hr hid
  exact hown r hr (by simpa using hid)

theorem ruleFolderUid_own {id : String} (h : ¬ HidesRule orgId t id) :
    (ownTables orgId t).ruleFolderUid orgId id = t.ruleFolderUid orgId id := by
  rw [Tables.ruleFolderUid, Tables.ruleFolderUid]
  congr 1
  apply find?_filter_of_imp
  intro r hr hmatch
  simp only [decide_eq_true_eq] at hmatch
  by_contra hforeign
  exact h ⟨r, hr, by simpa using hforeign, hmatch.1, hmatch.2⟩

theorem editRules_parts {id : String} {edit : AlertRule → AlertRule} (hown : OwnRuleId orgId t id)
    (hedit : ∀ r ∈ t.alertRules, r.id = id → ownRule orgId (edit r) = true)
    (hid : ∀ r, (edit r).id = r.id) :
    editRules id edit (ownTables orgId t) = ownTables orgId (editRules id edit t) ∧
      foreignTables orgId (editRules id edit t) = foreignTables orgId t := by
  have hsame : ∀ r ∈ t.alertRules,
      ownRule orgId (if r.id = id then edit r else r) = ownRule orgId r := by
    intro r hr
    split
    · rename_i hrid
      rw [hedit r hr hrid, hown r hr hrid]
    · rfl
  have hentry : ∀ h, foreignEntry orgId (editRules id edit t) h = foreignEntry orgId t h := by
    intro h
    rw [foreignEntry, foreignEntry, editRules, List.any_map]
    apply any_congr_of_mem
    intro r hr
    show (!ownRule orgId (if r.id = id then edit r else r) &&
      (if r.id = id then edit r else r).id == h.ruleId) = _
    rw [hsame r hr]
    split
    · rw [hid]
    · rfl
  constructor
  · rw [editRules, ownTables, ownTables]
    simp only [hentry]
    congr 1
    show (t.alertRules.filter (ownRule orgId)).map _ = (t.alertRules.map _).filter (ownRule orgId)
    rw [List.filter_map]
    congr 1
    exact List.filter_congr fun r hr => (hsame r hr).symm
  · rw [foreignTables, foreignTables]
    congr 1
    · show (t.alertRules.map fun r => if r.id = id then edit r else r).filter _ = _
      rw [List.filter_map]
      have hpred : t.alertRules.filter ((fun r => !ownRule orgId r) ∘
          fun r => if r.id = id then edit r else r) =
          t.alertRules.filter fun r => !ownRule orgId r :=
        List.filter_congr fun r hr => congrArg (!·) (hsame r hr)
      have hfix : ∀ r ∈ t.alertRules.filter fun r => !ownRule orgId r,
          (if r.id = id then edit r else r) = r := by
        intro r hr
        obtain ⟨hmem, hforeign⟩ := List.mem_filter.mp hr
        apply if_neg
        intro hrid
        rw [hown r hmem hrid] at hforeign
        cases hforeign
      rw [hpred, List.map_congr_left hfix, List.map_id']
    · exact List.filter_congr fun h _ => hentry h

theorem deleteRules_parts {id : String} (hown : OwnRuleId orgId t id) :
    Folders.FolderService.deleteRules (·.id == id) (ownTables orgId t) =
        ownTables orgId (Folders.FolderService.deleteRules (·.id == id) t) ∧
      foreignTables orgId (Folders.FolderService.deleteRules (·.id == id) t) =
        foreignTables orgId t := by
  have hgone : ∀ r ∈ t.alertRules, r.id = id → ownRule orgId r = true := hown
  -- the entries of the deleted rules, as the rules of the org and as all rules have them
  have hentries : ∀ h : AlertHistoryEntry,
      (t.alertRules.filter (ownRule orgId)).any (fun r => r.id == id && r.id == h.ruleId) =
        t.alertRules.any fun r => r.id == id && r.id == h.ruleId := by
    intro h
    rw [List.any_filter]
    apply any_congr_of_mem
    intro r hr
    by_cases hrid : r.id = id
    · rw [hgone r hr hrid, Bool.true_and]
    · simp [hrid]
  have hforeign : ∀ h : AlertHistoryEntry,
      foreignEntry orgId (Folders.FolderService.deleteRules (·.id == id) t) h =
        foreignEntry orgId t h := by
    intro h
    rw [foreignEntry, foreignEntry, Folders.FolderService.deleteRules, List.any_filter]
    apply any_congr_of_mem
    intro r hr
    by_cases hrid : r.id = id
    · rw [hgone r hr hrid]
      simp
    · simp [hrid]
  constructor
  · rw [Folders.FolderService.deleteRules, Folders.FolderService.deleteRules, ownTables, ownTables]
    congr 1
    · show (t.alertRules.filter (ownRule orgId)).filter _ = (t.alertRules.filter _).filter _
      rw [List.filter_filter, List.filter_filter]
      exact List.filter_congr fun r _ => Bool.and_comm _ _
    · show (t.alertHistory.filter fun h => !foreignEntry orgId t h).filter _ =
        (t.alertHistory.filter _).filter _
      rw [List.filter_filter, List.filter_filter]
      apply List.filter_congr
      intro h _
      have hf := hforeign h
      rw [Folders.FolderService.deleteRules] at hf
      rw [hf, hentries h, Bool.and_comm]
  · rw [foreignTables, foreignTables]
    congr 1
    · show (t.alertRules.filter _).filter _ = _
      rw [List.filter_filter]
      apply List.filter_congr
      intro r hr
      by_cases hrid : r.id = id
      · rw [hgone r hr hrid]
        rfl
      · simp [hrid]
    · show (t.alertHistory.filter _).filter _ = _
      rw [List.filter_filter]
      apply List.filter_congr
      intro h _
      rw [hforeign h]
      cases hentry : foreignEntry orgId t h with
      | false => rfl
      | true =>
        -- its rule is foreign, so it is not the deleted one
        rw [foreignEntry, List.any_eq_true] at hentry
        obtain ⟨r, hr, hmatch⟩ := hentry
        simp only [Bool.and_eq_true, beq_iff_eq, Bool.not_eq_true'] at hmatch
        rw [Bool.true_and, Bool.not_eq_true', List.any_eq_false]
        intro r' hr' hgone'
        simp only [Bool.and_eq_true, beq_iff_eq] at hgone'
        have hrid : r.id = id := hmatch.2.trans (hgone'.2.symm.trans hgone'.1)
        rw [hgone r hr hrid] at hmatch
        cases hmatch.1

end Locals

end OpenObs.Agent
