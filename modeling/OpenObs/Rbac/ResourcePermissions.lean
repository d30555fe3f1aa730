import OpenObs.Rbac.RoleService

/-!
# Per-resource grants

`services/resource-permission-service.ts`: a grant on a resource is a set of
permission rows at the scope `<resource>:uid:<uid>` of the principal's managed
role, one role for each principal and org, made when it is first needed.
-/

namespace OpenObs.Rbac

open OpenObs.Foundation

/-! ## Levels and actions -/

inductive ResourceKind : Type where
  | folders | dashboards | connectors | alertRules
deriving DecidableEq

def ResourceKind.text : ResourceKind → String
  | .folders => "folders"
  | .dashboards => "dashboards"
  | .connectors => "connectors"
  | .alertRules => "alert.rules"

inductive PermissionLevel : Type where
  | view | edit | admin
deriving DecidableEq

def PermissionLevel.value : PermissionLevel → ℕ
  | .view => 1
  | .edit => 2
  | .admin => 4

def viewActions : ResourceKind → List String
  | .folders => ["folders:read", "dashboards:read", "alert.rules:read"]
  | .dashboards => ["dashboards:read"]
  | .connectors => ["connectors:query"]
  | .alertRules => ["alert.rules:read"]

def editActions : ResourceKind → List String
  | .folders =>
    ["folders:write", "folders:delete", "dashboards:create", "dashboards:write",
      "dashboards:delete", "alert.rules:write", "alert.rules:create", "alert.rules:delete"]
  | .dashboards => ["dashboards:write", "dashboards:delete"]
  | .connectors => ["connectors:write"]
  | .alertRules => ["alert.rules:write", "alert.rules:create", "alert.rules:delete"]

def adminActions : ResourceKind → List String
  | .folders =>
    ["folders.permissions:read", "folders.permissions:write", "dashboards.permissions:read",
      "dashboards.permissions:write"]
  | .dashboards => ["dashboards.permissions:read", "dashboards.permissions:write"]
  | .connectors => ["connectors.permissions:read", "connectors.permissions:write"]
  | .alertRules => ["alert.rules.permissions:read", "alert.rules.permissions:write"]

def actionsForLevel (resource : ResourceKind) (level : PermissionLevel) : List String :=
  viewActions resource ++
  (if PermissionLevel.edit.value ≤ level.value then editActions resource else []) ++
  (if PermissionLevel.admin.value ≤ level.value then adminActions resource else [])

/-! ## Principals -/

inductive BuiltInRoleName : Type where
  | admin | editor | viewer
deriving DecidableEq

def BuiltInRoleName.text : BuiltInRoleName → String
  | .admin => "Admin"
  | .editor => "Editor"
  | .viewer => "Viewer"

/-- `role.toLowerCase()`. -/
def BuiltInRoleName.lower : BuiltInRoleName → String
  | .admin => "admin"
  | .editor => "editor"
  | .viewer => "viewer"

inductive GrantPrincipal : Type where
  | user (userId : String)
  | team (teamId : String)
  | role (role : BuiltInRoleName)
deriving DecidableEq

def managedRoleNameFor : GrantPrincipal → String
  | .user userId => "managed:users:" ++ userId ++ ":permissions"
  | .team teamId => "managed:teams:" ++ teamId ++ ":permissions"
  | .role role => "managed:builtins:" ++ role.text ++ ":permissions"

def managedRoleUidFor : GrantPrincipal → String
  | .user userId => "managed_user_" ++ userId
  | .team teamId => "managed_team_" ++ teamId
  | .role role => "managed_builtin_" ++ role.lower

def principalKey : GrantPrincipal → String
  | .user userId => "u:" ++ userId
  | .team teamId => "t:" ++ teamId
  | .role role => "r:" ++ role.text

/-! ## The items of a request -/

/-- `permission = null` removes the grant. -/
structure SetItem where
  userId : Option String := none
  teamId : Option String := none
  role : Option BuiltInRoleName := none
  permission : Option PermissionLevel

abbrev GrantEntry := GrantPrincipal × Option PermissionLevel

def SetItem.principal (it : SetItem) : Except String GrantPrincipal :=
  match present it.userId, present it.teamId, it.role with
  | some userId, none, none => .ok (.user userId)
  | none, some teamId, none => .ok (.team teamId)
  | none, none, some role => .ok (.role role)
  | none, none, none => .error "exactly one of userId/teamId/role must be set (got 0)"
  | some _, some _, some _ => .error "exactly one of userId/teamId/role must be set (got 3)"
  | _, _, _ => .error "exactly one of userId/teamId/role must be set (got 2)"

/-- `map.set`: a principal that is in the map keeps its place. -/
def setGrant (map : List GrantEntry) (e : GrantEntry) : List GrantEntry :=
  if principalKey e.1 ∈ map.map (principalKey ·.1) then
    map.map fun d => if principalKey d.1 = principalKey e.1 then e else d
  else map ++ [e]

def normalizeSetItems (map : List GrantEntry) : List SetItem → Except String (List GrantEntry)
  | [] => .ok map
  | it :: items => do
      let principal ← it.principal
      normalizeSetItems (setGrant map (principal, it.permission)) items

/-! ## The repositories -/

namespace RoleRepository

/-- `findByName`. -/
def findByName (orgId name : String) : Prog Db (Option Role) :=
  Prog.read (·.findRoleByName orgId name)

/-- `create`; the id is fresh. -/
def create (role : Role) : Prog Db Role :=
  Prog.attempt fun db =>
    if (db.findRoleByName role.orgId role.name).isSome then
      (.error "UNIQUE constraint failed: role.org_id, role.name", db)
    else if (db.findRoleByUid role.orgId role.uid).isSome then
      (.error "UNIQUE constraint failed: role.org_id, role.uid", db)
    else (.ok role, { db with roles := db.roles ++ [role] })

/-- `findBuiltinRole`. -/
def hasBuiltinRole (row : BuiltinRole) : Prog Db Bool :=
  Prog.read fun db => row ∈ db.builtinRoles

def upsertBuiltinRole (row : BuiltinRole) : Prog Db Unit := do
  if ← hasBuiltinRole row then return ()
  else
    Prog.attempt fun db =>
      if row ∈ db.builtinRoles then
        (.error "UNIQUE constraint failed: builtin_role.role, builtin_role.org_id, builtin_role.role_id",
          db)
      else if (db.findRoleById row.roleId).isNone then (.error "FOREIGN KEY constraint failed", db)
      else (.ok (), { db with builtinRoles := db.builtinRoles ++ [row] })

end RoleRepository

namespace PermissionRepository

/-- `delete`: the row is read first. -/
def delete (id : String) : Prog Db Bool := do
  match ← Prog.read fun db => db.permissions.find? (·.id = id) with
  | none => return false
  | some _ => do
      Prog.write fun db => { db with permissions := db.permissions.filter (·.id ≠ id) }
      return true

end PermissionRepository

/-! ## The service -/

namespace ResourcePermissionService

/-- The role's own id is `id`. -/
def ensureManagedRole (id orgId : String) (principal : GrantPrincipal) : Prog Db Role := do
  match ← RoleRepository.findByName orgId (managedRoleNameFor principal) with
  | some existing => return existing
  | none =>
    RoleRepository.create
      { id
        orgId
        uid := managedRoleUidFor principal
        name := managedRoleNameFor principal
        details :=
          { description := some "Managed role for per-resource permissions", hidden := true } }

/-- The rows at the scope that are not wanted go, and so do repetitions; what is
left of `want` is to be added. -/
def removeUnwanted (want : List String) : List Permission → Prog Db (List String)
  | [] => return want
  | row :: rows =>
    if row.action ∈ want then removeUnwanted (want.erase row.action) rows
    else do
      let _ ← PermissionRepository.delete row.id
      removeUnwanted want rows

def addWanted (roleId scope : String) (uid : ℕ → String) : List String → Prog Db Unit
  | [] => return ()
  | action :: actions => do
      let _ ← PermissionRepository.create ⟨uid actions.length, roleId, action, scope⟩
      addWanted roleId scope uid actions

def syncActionsForRole (uid : ℕ → String) (roleId scope : String)
    (desiredActions : List String) : Prog Db Unit := do
  let existing ← Prog.read (·.listPermissionsByRole roleId)
  let want ← removeUnwanted desiredActions (existing.filter (·.scope = scope))
  addWanted roleId scope uid want

def ensureAssigned (p : Principal) (orgId roleId : String) : Prog Db Unit := do
  let rows ← Prog.read (·.listAssignments orgId p)
  if rows.any (·.roleId = roleId) then return ()
  else createAssignment p ⟨orgId, roleId⟩

def ensureAssignment (orgId roleId : String) : GrantPrincipal → Prog Db Unit
  | .user userId => ensureAssigned (.user userId) orgId roleId
  | .team teamId => ensureAssigned (.team teamId) orgId roleId
  | .role role => do
      if ← RoleRepository.hasBuiltinRole ⟨role.text, roleId, orgId⟩ then return ()
      else RoleRepository.upsertBuiltinRole ⟨role.text, roleId, orgId⟩

def deleteAtScope (scope : String) : List Permission → Prog Db Unit
  | [] => return ()
  | row :: rows =>
    if row.scope = scope then do
      let _ ← PermissionRepository.delete row.id
      deleteAtScope scope rows
    else deleteAtScope scope rows

def removeGrant (orgId : String) (principal : GrantPrincipal) (scope : String) :
    Prog Db Unit := do
  match ← RoleRepository.findByName orgId (managedRoleNameFor principal) with
  | none => return ()
  | some role => do
      let rows ← Prog.read (·.listPermissionsByRole role.id)
      deleteAtScope scope rows

/-- One round of the loop; `uid 0` is the id of a new role, the others are those of
new permissions. -/
def setOne (uid : ℕ → String) (orgId : String) (resource : ResourceKind) (scope : String) :
    GrantEntry → Prog Db Unit
  | (principal, none) => removeGrant orgId principal scope
  | (principal, some level) => do
      let role ← ensureManagedRole (uid 0) orgId principal
      syncActionsForRole (fun n => uid (n + 1)) role.id scope (actionsForLevel resource level)
      ensureAssignment orgId role.id principal

def setEach (uid : ℕ → ℕ → String) (orgId : String) (resource : ResourceKind) (scope : String) :
    List GrantEntry → Prog Db Unit
  | [] => return ()
  | e :: es => do
      setOne (uid es.length) orgId resource scope e
      setEach uid orgId resource scope es

/-- `uid k` are the ids drawn in the round that has `k` more to go. -/
def setBulk (uid : ℕ → ℕ → String) (orgId : String) (resource : ResourceKind)
    (resourceUid : String) (items : List SetItem) : Prog Db Unit :=
  match normalizeSetItems [] items with
  | .error e => throw e
  | .ok normalized =>
    setEach uid orgId resource (resource.text ++ ":uid:" ++ resourceUid) normalized

end ResourcePermissionService

end OpenObs.Rbac
