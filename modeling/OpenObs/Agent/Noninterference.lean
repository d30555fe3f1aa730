import OpenObs.Agent.Isolation

/-!
# Two runs of one org

The calls of an identity on two stores that agree on the rows of its org. As long as each call stays
at home the two runs say the same, and leave the rows of the other workspaces as they are.
-/

namespace OpenObs.Agent

open OpenObs.Foundation OpenObs.Resources OpenObs.Rules OpenObs.Dashboards
open OpenObs.Rbac hiding Folder

/-! ## Checks of one scope -/

section Checks

variable {orgId : String} {t : Tables} {action scope : String}

theorem clean_all (hdashboards : Resolvers.concreteUid scope = none)
    (htarget : extractDashboardAclTarget (.action action [scope]) = none) :
    Clean orgId t (.action action [scope]) := by
  have hnone : ∀ s ∈ (Evaluator.action action [scope]).scopes, Resolvers.concreteUid s = none := by
    intro s hs
    rw [List.mem_singleton.mp hs]
    exact hdashboards
  exact
    { dashboards := by
        intro s hs _ uid huid
        rw [hnone s hs] at huid
        cases huid
      alertRules := by
        intro s hs _ uid huid
        rw [hnone s hs] at huid
        cases huid
      target := by
        intro target h
        rw [htarget] at h
        cases h }

theorem clean_listRules : Clean orgId t (.action "alert.rules:read" ["alert.rules:*"]) :=
  clean_all (by decide +kernel) (by decide +kernel)

theorem clean_listDashboards : Clean orgId t (.action "dashboards:read" ["dashboards:*"]) :=
  clean_all (by decide +kernel) (by decide +kernel)

theorem clean_listInvestigations :
    Clean orgId t (.action "investigations:read" ["investigations:*"]) :=
  clean_all (by decide +kernel) (by decide +kernel)

end Checks

/-! ## Every call -/

section Calls

variable {access : Db} {identity : Identity} {s : Session} {ctx : ActionContext}

theorem built_ruleCheck {args : Json.Record} (hverb : opOf args = "update" ∨ opOf args = "delete") :
    (buildToolEvaluator ctx .alertRuleWrite args).run s =
      (.ok (some (ruleCheck ctx.caller.orgId args s.tables)), s) := by
  show (do
    let e ← alertRuleWriteEvaluator ctx args
    return some e : Prog Session (Option Evaluator)).run s = _
  have hcreate : opOf args ≠ "create" := by
    rcases hverb with hop | hop
    · rw [hop]
      decide
    · rw [hop]
      decide
  rw [alertRuleWriteEvaluator, if_neg hcreate, if_pos hverb, ruleCheck, lookupAlertRuleFolderUid]
  by_cases hid : stringOr args "ruleId" "" = ""
  · rw [if_pos hid, if_pos hid]
    rfl
  · rw [if_neg hid, if_neg hid]
    rfl

theorem ruleCheck_own {args : Json.Record}
    (hhidden : ¬ HidesRule identity.orgId s.tables (stringOr args "ruleId" "")) :
    ruleCheck identity.orgId args (ownTables identity.orgId s.tables) =
      ruleCheck identity.orgId args s.tables := by
  rw [ruleCheck, ruleCheck, ruleFolderUid_own hhidden]

theorem local_call {call : TenantCall} (h : call.StaysHome (ctx.asking access identity) s) :
    Local (ownPart identity.orgId) (foreignRows identity.orgId)
      (call.code (ctx.asking access identity)) s := by
  cases call with
  | ruleWrite drawn drawnFolder args hverb =>
    obtain ⟨hhidden, hclean, hown⟩ := h
    apply local_gated (e := ruleCheck identity.orgId args s.tables)
    · exact built_ruleCheck hverb
    · have hbuilt := @built_ruleCheck (ownPart identity.orgId s) (ctx.asking access identity) args
        hverb
      rw [← ruleCheck_own hhidden]
      exact hbuilt
    · exact hclean
    · exact fun hpass => local_ruleWrite hverb hhidden hclean (hown hpass)
  | ruleList args =>
    exact local_gated rfl rfl clean_listRules fun hpass => local_ruleList (h hpass)
  | ruleHistory nowMs args =>
    obtain ⟨hclean, hown⟩ := h
    exact local_gated rfl rfl hclean fun hpass => local_ruleHistory (hown hpass)
  | dashboardList args =>
    exact local_gated rfl rfl clean_listDashboards fun hpass => local_dashboardList (h hpass)
  | dashboardClone drawn args =>
    obtain ⟨hclean, hown⟩ := h
    exact local_gated rfl rfl hclean fun hpass => local_dashboardClone (hown hpass)
  | investigationList args =>
    exact local_gated rfl rfl clean_listInvestigations fun hpass =>
      local_investigationList (h hpass)

def TenantCall.LetThrough (ctx : ActionContext) (call : TenantCall) (s : Session) : Prop :=
  ((checkPermission ctx call.tool call.args).run s).1 = .ok none

/-- **Tools and other workspaces.** In runs whose calls all stay at home the rows of the other
workspaces are never changed, and what is said depends on the rows of the org only. -/
theorem other_workspaces_untouched_unseen (access : Db) (identity : Identity) (ctx : ActionContext)
    (calls : List TenantCall) (s₁ s₂ : Session)
    (h₁ : AllServed (TenantCall.code (ctx.asking access identity))
      (TenantCall.StaysHome (ctx.asking access identity)) calls s₁)
    (h₂ : AllServed (TenantCall.code (ctx.asking access identity))
      (TenantCall.StaysHome (ctx.asking access identity)) calls s₂)
    (hview : ownPart identity.orgId s₁ = ownPart identity.orgId s₂) :
    foreignRows identity.orgId (serveAll (TenantCall.code (ctx.asking access identity)) calls s₁) =
        foreignRows identity.orgId s₁ ∧
      observe (TenantCall.code (ctx.asking access identity)) calls s₁ =
        observe (TenantCall.code (ctx.asking access identity)) calls s₂ := by
  have hlocal : ∀ (call : TenantCall) (s : Session),
      call.StaysHome (ctx.asking access identity) s →
      Local (ownPart identity.orgId) (foreignRows identity.orgId)
        (call.code (ctx.asking access identity)) s := fun _ _ h => local_call h
  constructor
  · exact rest_serveAll hlocal calls h₁
  · exact observe_agree hlocal calls h₁ h₂ hview

end Calls

/-! ## Two workspaces -/

/-- An identity of `org_main` that may delete the rules of every folder. -/
def ruleCleaner : Identity :=
  ⟨"ann", "org_main", .viewer, false, some [⟨"alert.rules:delete", "folders:*"⟩]⟩

def ownAlert : AlertRule :=
  { id := "alert_1", name := "Own", description := "", condition := .null,
    workspaceId := some "org_main" }

def foreignAlert : AlertRule :=
  { id := "alert_2", name := "Foreign", description := "", condition := .null,
    workspaceId := some "org_b" }

def oneWorkspace : Session := Session.opened { alertRules := [ownAlert] } []

def twoWorkspaces : Session := Session.opened { alertRules := [ownAlert, foreignAlert] } []

def deleteCall (ruleId : String) : TenantCall :=
  .ruleWrite ⟨"", "2026-01-01"⟩ ⟨"f1", "2026-01-01", "0", "1"⟩
    [("op", .str "delete"), ("ruleId", .str ruleId)] (Or.inr (by rfl))

/-- The same deletion of the own rule with and without a neighbour. -/
theorem other_workspaces_untouched_unseen_delete :
    foreignRows "org_main" (serveAll (TenantCall.code (teamContext.asking {} ruleCleaner))
        [deleteCall "alert_1"] twoWorkspaces) = foreignRows "org_main" twoWorkspaces ∧
      observe (TenantCall.code (teamContext.asking {} ruleCleaner)) [deleteCall "alert_1"]
        twoWorkspaces = observe (TenantCall.code (teamContext.asking {} ruleCleaner))
        [deleteCall "alert_1"] oneWorkspace := by
  have hfolder : ∀ s, s = twoWorkspaces ∨ s = oneWorkspace →
      (deleteCall "alert_1").StaysHome (teamContext.asking {} ruleCleaner) s := by
    intro s hs
    have hids : ∀ r ∈ s.tables.alertRules, r.id = "alert_1" → ownRule "org_main" r = true := by
      rcases hs with rfl | rfl
      · decide
      · decide
    refine ⟨?_, ?_, fun _ => hids⟩
    · rintro ⟨r, hr, hforeign, -, hid⟩
      have hown := hids r hr hid
      rw [ownRule] at hown hforeign
      exact absurd (hown.symm.trans hforeign) (by decide)
    · have hcheck : ruleCheck "org_main" [("op", .str "delete"), ("ruleId", .str "alert_1")]
          s.tables = .action "alert.rules:delete" ["folders:uid:*"] := by
        rcases hs with rfl | rfl
        · rfl
        · rfl
      show Clean "org_main" s.tables (ruleCheck "org_main" _ s.tables)
      rw [hcheck]
      exact clean_all (by decide +kernel) (by decide +kernel)
  exact other_workspaces_untouched_unseen {} ruleCleaner teamContext [deleteCall "alert_1"]
    twoWorkspaces oneWorkspace ⟨hfolder _ (Or.inl rfl), trivial⟩ ⟨hfolder _ (Or.inr rfl), trivial⟩
    rfl

/-- The rule of another workspace is deleted under the grant of this one. -/
theorem foreign_rule_deleted :
    ¬ ∀ (access : Db) (identity : Identity) (ctx : ActionContext) (calls : List TenantCall)
      (s₁ s₂ : Session),
      AllServed (TenantCall.code (ctx.asking access identity))
        (TenantCall.LetThrough (ctx.asking access identity)) calls s₁ →
      AllServed (TenantCall.code (ctx.asking access identity))
        (TenantCall.LetThrough (ctx.asking access identity)) calls s₂ →
      ownPart identity.orgId s₁ = ownPart identity.orgId s₂ →
      foreignRows identity.orgId
          (serveAll (TenantCall.code (ctx.asking access identity)) calls s₁) =
        foreignRows identity.orgId s₁ ∧
      observe (TenantCall.code (ctx.asking access identity)) calls s₁ =
        observe (TenantCall.code (ctx.asking access identity)) calls s₂ := by
  intro hall
  have hlet : (deleteCall "alert_2").LetThrough (teamContext.asking {} ruleCleaner)
      twoWorkspaces := by
    show ((checkPermission _ _ _).run _).1 = _
    decide +kernel
  have hrows := (hall {} ruleCleaner teamContext [deleteCall "alert_2"] twoWorkspaces twoWorkspaces
    ⟨hlet, trivial⟩ ⟨hlet, trivial⟩ rfl).1
  have hcount : (foreignRows "org_main" twoWorkspaces).alertRules.map (·.id) = ["alert_2"] := rfl
  have hgone : (foreignRows "org_main" (serveAll (TenantCall.code
      (teamContext.asking {} ruleCleaner)) [deleteCall "alert_2"] twoWorkspaces)).alertRules.map
      (·.id) = [] := by
    decide +kernel
  have hids := congrArg (fun rows : ForeignRows => rows.alertRules.map (·.id)) hrows
  exact absurd (hgone.symm.trans (hids.trans hcount)) (by decide)

end OpenObs.Agent
