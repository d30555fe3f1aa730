import OpenObs.Rbac.Rendering
import OpenObs.Rbac.Tables

/-!
# The access-control service

`services/accesscontrol-service.ts`: the permissions an identity resolves to and the evaluation of a
tree against them.
-/

namespace OpenObs.Rbac

structure Identity where
  userId : String
  orgId : String
  orgRole : OrgRole
  isServerAdmin : Bool
  permissions : Option (List ResolvedPermission) := none

/-! ## The permissions of an identity -/

def roleIds (db : Db) (identity : Identity) : List String :=
  (if identity.orgRole = .none then []
    else ((db.listBuiltinRoles identity.orgId).filter
      (·.role = identity.orgRole.text)).map (·.roleId)) ++
  (if identity.isServerAdmin then
    ((db.listBuiltinRoles "").filter (·.role = "Server Admin")).map (·.roleId) else []) ++
  (db.listUserRoles identity.userId identity.orgId).map (·.roleId) ++
  (db.listTeamsRoles
    ((db.listTeamsForUser identity.userId identity.orgId).map (·.teamId))
    identity.orgId).map (·.roleId)

def Permission.key (p : Permission) : String := p.action ++ "|" ++ p.scope

def dedupe (seen : List String) : List Permission → List ResolvedPermission
  | [] => []
  | p :: ps =>
    if p.key ∈ seen then dedupe seen ps
    else ⟨p.action, p.scope⟩ :: dedupe (p.key :: seen) ps

def getUserPermissions (db : Db) (identity : Identity) : List ResolvedPermission :=
  dedupe [] (db.listPermissionsByRoles (roleIds db identity))

def ensurePermissions (db : Db) (identity : Identity) : List ResolvedPermission :=
  identity.permissions.getD (getUserPermissions db identity)

/-! ## The legacy ACL of a dashboard -/

/-- The rows on the dashboard itself, then those of its folder and of the
folder's ancestors. -/
def getForDashboard (db : Db) (orgId dashboardUid : String) : List DashboardAcl :=
  db.dashboardAcl.filter (·.dashboardId = some dashboardUid) ++
  (match present (Db.folderUidOf db.dashboards orgId dashboardUid) with
    | none => []
    | some folderUid =>
      match db.findFolderByUid orgId folderUid with
      | none => []
      | some folder => (folder :: db.listAncestors orgId folderUid).flatMap fun f =>
        db.dashboardAcl.filter (·.folderId = some f.id))

def DashboardAcl.names (db : Db) (orgId : String) (identity : Identity)
    (entry : DashboardAcl) : Bool :=
  present entry.userId = some identity.userId ||
  (present entry.teamId).any
    (· ∈ (db.listTeamsForUser identity.userId orgId).map (·.teamId)) ||
  present entry.role = some identity.orgRole.text

def grantsAtLeast (db : Db) (orgId dashboardUid : String) (identity : Identity)
    (requiredLevel : ℕ) : Bool :=
  (getForDashboard db orgId dashboardUid).any fun entry =>
    decide (requiredLevel ≤ entry.permission) && entry.names db orgId identity

/-! ## Evaluation -/

structure AccessControlDeps where
  resolvers : Option (String → String → List String)
  legacyAcl : Bool

def AccessControlDeps.gateway (db : Db) : AccessControlDeps :=
  { resolvers := some (registry db), legacyAcl := true }

def effective (deps : AccessControlDeps) (orgId : String) (e : Evaluator) : Evaluator :=
  match deps.resolvers with
  | none => e
  | some resolvers =>
    e.mutate fun s => if s ∈ collectScopes e then resolvers orgId s else [s]

namespace AccessControl

def evaluate (deps : AccessControlDeps) (db : Db) (identity : Identity) (e : Evaluator) :
    Bool :=
  if (effective deps identity.orgId e).evaluate (ensurePermissions db identity) then true
  else if deps.legacyAcl then
    match extractDashboardAclTarget e with
    | none => false
    | some target => grantsAtLeast db identity.orgId target.uid identity target.level
  else false

theorem evaluate_iff {deps : AccessControlDeps} {db : Db} {identity : Identity}
    {e : Evaluator} :
    evaluate deps db identity e = true ↔
      (effective deps identity.orgId e).evaluate (ensurePermissions db identity) = true ∨
      (deps.legacyAcl = true ∧ ∃ target, extractDashboardAclTarget e = some target ∧
        grantsAtLeast db identity.orgId target.uid identity target.level = true) := by
  unfold evaluate
  cases (effective deps identity.orgId e).evaluate (ensurePermissions db identity) <;>
    cases deps.legacyAcl <;> cases extractDashboardAclTarget e <;> simp

end AccessControl

/-! ## What the cache does -/

/-- The registry as the cache passes it on: scopes that are no token by
themselves are never resolved. -/
def tokenResolver (resolve : String → List String) (s : String) : List String :=
  if IsToken s.toList then resolve s else [s]

def AccessControlDeps.resolver (deps : AccessControlDeps) (orgId : String) :
    String → List String :=
  match deps.resolvers with
  | none => fun s => [s]
  | some resolvers => tokenResolver (resolvers orgId)

namespace Evaluator

theorem mutate_congr {r r' : String → List String} {e : Evaluator}
    (h : ∀ s ∈ e.scopes, r s = r' s) : e.mutate r = e.mutate r' := by
  induction e using tree_induction with
  | action a scopes =>
    have hmap : scopes.map r = scopes.map r' := List.map_congr_left h
    simp only [mutate, hmap]
  | resolvedAction a resolvedScopes => rfl
  | all children ih =>
    simp only [mutate, mutateList_eq, Evaluator.all.injEq]
    refine List.map_congr_left fun c hc => ih c hc fun s hs => h s ?_
    rw [scopes, scopesList_eq]
    exact List.mem_flatMap.mpr ⟨c, hc, hs⟩
  | any children ih =>
    simp only [mutate, mutateList_eq, Evaluator.any.injEq]
    refine List.map_congr_left fun c hc => ih c hc fun s hs => h s ?_
    rw [scopes, scopesList_eq]
    exact List.mem_flatMap.mpr ⟨c, hc, hs⟩

theorem evaluate_mutate_self {permissions : List ResolvedPermission} {e : Evaluator} :
    evaluate permissions (e.mutate fun s => [s]) = evaluate permissions e := by
  induction e using tree_induction with
  | action a scopes =>
    cases scopes with
    | nil => rfl
    | cons s rest => simp [mutate, evaluate, Function.comp_def]
  | resolvedAction a resolvedScopes => rfl
  | all children ih =>
    simp only [mutate, evaluate, evaluateAll_eq, mutateList_eq, List.all_map]
    rw [Bool.eq_iff_iff, List.all_eq_true, List.all_eq_true]
    exact forall₂_congr fun c hc => by rw [Function.comp_apply, ih c hc]
  | any children ih =>
    simp only [mutate, evaluate, evaluateAny_eq, mutateList_eq, List.any_map]
    rw [Bool.eq_iff_iff, List.any_eq_true, List.any_eq_true]
    exact exists_congr fun c => and_congr_right fun hc => by
      rw [Function.comp_apply, ih c hc]

end Evaluator

theorem evaluate_effective {deps : AccessControlDeps} {orgId : String} {e : Evaluator}
    {permissions : List ResolvedPermission} :
    (effective deps orgId e).evaluate permissions =
      (e.mutate (deps.resolver orgId)).evaluate permissions := by
  unfold effective AccessControlDeps.resolver
  cases deps.resolvers with
  | none => exact Evaluator.evaluate_mutate_self.symm
  | some resolvers =>
    refine congrArg (Evaluator.evaluate permissions) (Evaluator.mutate_congr fun s hs => ?_)
    simp only [tokenResolver, mem_collectScopes hs]

/-! ## The reference semantics -/

namespace Evaluator

mutual

/-- The meaning of a tree under a registry, without rendering it: every scope
of an atom may be covered through any of its alternatives. -/
def reference (resolve : String → List String) (permissions : List ResolvedPermission) :
  Evaluator → Bool
| .action a scopes =>
    holds permissions a && scopes.all fun s => (resolve s).any (grants permissions a)
| .resolvedAction a resolvedScopes =>
    holds permissions a && resolvedScopes.all (·.any (grants permissions a))
| .all children => referenceAll resolve permissions children
| .any children => referenceAny resolve permissions children

def referenceAll (resolve : String → List String) (permissions : List ResolvedPermission) :
  List Evaluator → Bool
| [] => true
| e :: es => reference resolve permissions e && referenceAll resolve permissions es

def referenceAny (resolve : String → List String) (permissions : List ResolvedPermission) :
  List Evaluator → Bool
| [] => false
| e :: es => reference resolve permissions e || referenceAny resolve permissions es

end

theorem referenceAll_eq {resolve : String → List String}
    {permissions : List ResolvedPermission} {children : List Evaluator} :
    referenceAll resolve permissions children =
      children.all (reference resolve permissions) := by
  induction children with
  | nil => rfl
  | cons c cs ih => simp [referenceAll, ih]

theorem referenceAny_eq {resolve : String → List String}
    {permissions : List ResolvedPermission} {children : List Evaluator} :
    referenceAny resolve permissions children =
      children.any (reference resolve permissions) := by
  induction children with
  | nil => rfl
  | cons c cs ih => simp [referenceAny, ih]

theorem evaluate_mutate {resolve : String → List String}
    {permissions : List ResolvedPermission} {e : Evaluator} :
    evaluate permissions (e.mutate resolve) = reference resolve permissions e := by
  induction e using tree_induction with
  | action a scopes =>
    cases scopes with
    | nil => rfl
    | cons s rest => simp [mutate, evaluate, reference, Function.comp_def]
  | resolvedAction a resolvedScopes => rfl
  | all children ih =>
    simp only [mutate, evaluate, reference, evaluateAll_eq, referenceAll_eq,
      mutateList_eq, List.all_map]
    rw [Bool.eq_iff_iff, List.all_eq_true, List.all_eq_true]
    exact forall₂_congr fun c hc => by rw [Function.comp_apply, ih c hc]
  | any children ih =>
    simp only [mutate, evaluate, reference, evaluateAny_eq, referenceAny_eq,
      mutateList_eq, List.any_map]
    rw [Bool.eq_iff_iff, List.any_eq_true, List.any_eq_true]
    exact exists_congr fun c => and_congr_right fun hc => by
      rw [Function.comp_apply, ih c hc]

end Evaluator

def SeparatorFree (s : String) : Prop := ∀ c ∈ s.toList, isSeparator c = false

theorem separatorFree_of_any {s : String} (h : s.toList.any isSeparator = false) :
    SeparatorFree s := by
  simpa [SeparatorFree] using h

end OpenObs.Rbac
