import OpenObs.Rbac.GrantListing
import OpenObs.Rules.Listing

/-!
# The team an approval is asked for

`resolveRequesterTeamId` of `app/domain-routes.ts`: the rule that an investigation is linked from,
and the team that its folder gives. The rules of `findAll` do not carry the folder of their rows,
and so no team is ever found.
-/

namespace OpenObs.Approvals

open OpenObs.Foundation OpenObs.Rbac OpenObs.Resources OpenObs.Rules

/-- `repos` of the wiring: the tables of the resources, and those of the access control. -/
structure Repos where
  tables : Tables
  db : Db

def hasTeam (e : ResourcePermissionEntry) : Bool := (present e.teamId).isSome

def resolveRequesterTeamId (toLowerCase : String → String) (repos : Repos)
    (orgId investigationId : String) : Except String (Option String) := do
  let page ← AlertRuleRepository.findAll toLowerCase {} repos.tables
  match page.list.find? (·.investigationId = some investigationId) with
  | none => return none
  | some rule =>
    match present rule.folderUid with
    | none => return none
    | some folderUid =>
      let entries := ResourcePermissionService.list repos.db orgId .alertRules folderUid none
      let teamEntry := (entries.find? fun e =>
        hasTeam e && decide (PermissionLevel.edit.value ≤ e.permission.value)).or
          (entries.find? hasTeam)
      return teamEntry.bind (·.teamId)

/-! ## Who owns a rule -/

def resourcesOf (db : Db) (orgId : String) (rule : AlertRule) : List (ResourceKind × String) :=
  (.alertRules, rule.id) ::
    match present rule.folderUid with
    | none => []
    | some folderUid =>
      (.folders, folderUid) :: (db.listAncestors orgId folderUid).map fun f => (.folders, f.uid)

def HasAction (db : Db) (orgId team scope action : String) : Prop :=
  ∃ row ∈ db.permissions, row.scope = scope ∧ row.action = action ∧
    ∃ role ∈ db.roles, role.id = row.roleId ∧ role.orgId = orgId ∧
      role.name = managedRoleNameFor (.team team)

def Holds (db : Db) (orgId : String) (rule : AlertRule) (level : PermissionLevel)
    (team : String) : Prop :=
  (∃ row ∈ db.teams, row.id = team ∧ row.orgId = orgId) ∧
    ∃ resource ∈ resourcesOf db orgId rule, ∀ action ∈ actionsForLevel resource.1 level,
      HasAction db orgId team (resource.1.text ++ ":uid:" ++ resource.2) action

/-- Whom an approval for the rule is to be asked of: a team that holds a grant, one with `Edit` if
there is one; nobody where there is no such team, or the rule is another org's. -/
def Attributed (db : Db) (orgId : String) (rule : AlertRule) : Option String → Prop
  | some team => rule.workspaceId = some orgId ∧ Holds db orgId rule .view team ∧
      ((∃ other, Holds db orgId rule .edit other) → Holds db orgId rule .edit team)
  | none => rule.workspaceId = some orgId → ∀ team, ¬ Holds db orgId rule .view team

/-! ## Nobody -/

section Nobody

variable {toLowerCase : String → String} {repos : Repos} {orgId investigationId : String}

theorem folderUid_of_findAll {t : Tables} {filter : AlertRuleFindAllOptions} {page : RulePage}
    (h : AlertRuleRepository.findAll toLowerCase filter t = .ok page) :
    ∀ rule ∈ page.list, rule.folderUid = none := by
  intro rule hrule
  unfold AlertRuleRepository.findAll at h
  cases hrows : filterRows (searchRow toLowerCase filter) (orderedRows filter t) with
  | error e =>
    rw [hrows] at h
    cases h
  | ok rows =>
    rw [hrows] at h
    cases h
    obtain ⟨row, -, rfl⟩ := List.mem_map.mp hrule
    rfl

theorem findAll_ok (toLowerCase : String → String) (t : Tables) :
    ∃ page, AlertRuleRepository.findAll toLowerCase {} t = .ok page := by
  have hsearch : ∀ row ∈ orderedRows {} t, ∃ keep, searchRow toLowerCase {} row = .ok keep :=
    fun row _ => ⟨true, rfl⟩
  rw [AlertRuleRepository.findAll, filterRows_ok hsearch]
  exact ⟨_, rfl⟩

theorem resolveRequesterTeamId_eq :
    resolveRequesterTeamId toLowerCase repos orgId investigationId = .ok none := by
  obtain ⟨page, hpage⟩ := findAll_ok toLowerCase repos.tables
  rw [resolveRequesterTeamId, hpage]
  simp only [bind, Except.bind, pure, Except.pure]
  split
  · rfl
  · rename_i rule hrule
    -- the rule has come without its folder
    rw [folderUid_of_findAll hpage rule (List.mem_of_find?_eq_some hrule)]
    rfl

end Nobody

/-- **Attribution.** The answer is right just where nobody is to be asked. -/
theorem attributed_iff (toLowerCase : String → String) (repos : Repos)
    (orgId investigationId : String) (rule : AlertRule) :
    (∃ team, resolveRequesterTeamId toLowerCase repos orgId investigationId = .ok team ∧
      Attributed repos.db orgId rule team) ↔
    (rule.workspaceId = some orgId → ∀ team, ¬ Holds repos.db orgId rule .view team) := by
  rw [resolveRequesterTeamId_eq]
  constructor
  · rintro ⟨team, hteam, hattributed⟩
    cases hteam
    exact hattributed
  · exact fun h => ⟨none, rfl, h⟩

def checkoutRule : AlertRule where
  id := "r1"
  name := "Checkout latency"
  description := ""
  condition := .null
  investigationId := some "inv1"
  workspaceId := some "org_a"
  orgId := "org_a"
  folderUid := some "payments"

def checkoutDb : Db where
  teams := [{ id := "t1", orgId := "org_a" }]
  roles := [{ id := "role1", orgId := "org_a", uid := managedRoleUidFor (.team "t1")
              name := managedRoleNameFor (.team "t1") }]
  permissions := (actionsForLevel .folders .edit).map fun action =>
    ⟨action, "role1", action, "folders:uid:payments"⟩
  folders := [⟨"f1", "org_a", "payments", none⟩]

theorem holds_checkout : Holds checkoutDb "org_a" checkoutRule .view "t1" := by
  refine ⟨⟨_, List.mem_cons_self, rfl, rfl⟩, (.folders, "payments"),
    List.mem_cons_of_mem _ List.mem_cons_self, fun action haction => ?_⟩
  have hedit : ∀ action ∈ actionsForLevel .folders .view, action ∈ actionsForLevel .folders .edit :=
    by decide
  exact ⟨_, List.mem_map_of_mem (hedit action haction), rfl, rfl, _, List.mem_cons_self, rfl, rfl, rfl⟩

/-- The team's approvals are asked of nobody. -/
theorem owning_team_not_found : ¬ ∀ (toLowerCase : String → String) (repos : Repos)
    (orgId investigationId : String), ∀ rule ∈ repos.tables.alertRules,
      rule.investigationId = some investigationId → rule.workspaceId = some orgId →
      ∃ team, resolveRequesterTeamId toLowerCase repos orgId investigationId = .ok team ∧
        Attributed repos.db orgId rule team := by
  intro hall
  obtain ⟨team, hteam, hattributed⟩ := hall id ⟨{ alertRules := [checkoutRule] }, checkoutDb⟩
    "org_a" "inv1" checkoutRule (List.mem_singleton.mpr rfl) rfl rfl
  rw [resolveRequesterTeamId_eq] at hteam
  cases hteam
  exact hattributed rfl "t1" holds_checkout

end OpenObs.Approvals
