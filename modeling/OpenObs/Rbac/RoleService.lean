import OpenObs.Foundation.Async
import OpenObs.Rbac.UserPermissions

/-!
# The role service

`services/role-service.ts` over the SQLite repositories: the update of a custom role and the
assignment of roles to users and teams.
-/

namespace OpenObs.Rbac

open OpenObs.Foundation

/-! ## The action catalog -/

def allActions : List String :=
  ["dashboards:read", "dashboards:write", "dashboards:create", "dashboards:delete",
    "dashboards.permissions:read", "dashboards.permissions:write",
    "folders:read", "folders:write", "folders:create", "folders:delete",
    "folders.permissions:read", "folders.permissions:write",
    "connectors:read", "connectors:write", "connectors:create", "connectors:delete",
    "connectors:query", "connectors:explore", "connectors.id:read",
    "connectors.permissions:read", "connectors.permissions:write", "connectors:test",
    "alert.rules:read", "alert.rules:write", "alert.rules:create", "alert.rules:delete",
    "alert.rules.permissions:read", "alert.rules.permissions:write",
    "alert.notifications:read", "alert.notifications:write", "alert.instances:read",
    "alert.instances.external:read", "alert.instances.external:write",
    "alert.silences:read", "alert.silences:create", "alert.silences:write",
    "alert.provisioning:read", "alert.provisioning:write",
    "users:read", "users:write", "users:create", "users:delete", "users:disable",
    "users.authtoken:read", "users.authtoken:update", "users.password:update",
    "users.permissions:read", "users.permissions:write", "users.quotas:list",
    "users.quotas:update",
    "org.users:read", "org.users:add", "org.users:write", "org.users:remove",
    "orgs:read", "orgs:write", "orgs:create", "orgs:delete", "orgs.preferences:read",
    "orgs.preferences:write", "orgs.quotas:read", "orgs.quotas:write",
    "teams:read", "teams:write", "teams:create", "teams:delete", "teams.permissions:read",
    "teams.permissions:write",
    "serviceaccounts:read", "serviceaccounts:write", "serviceaccounts:create",
    "serviceaccounts:delete", "serviceaccounts.permissions:read",
    "serviceaccounts.permissions:write",
    "apikeys:read", "apikeys:create", "apikeys:delete",
    "roles:read", "roles:write", "roles:delete",
    "server.stats:read", "server.usagestats.report:read",
    "annotations:read", "annotations:write", "annotations:create", "annotations:delete",
    "investigations:read", "investigations:write", "investigations:create",
    "investigations:delete", "approvals:read", "approvals:approve", "approvals:override",
    "chat:use", "agents.config:read", "agents.config:write", "ops.commands:run",
    "plans:read", "plans:approve", "plans:auto_edit",
    "instance.config:read", "instance.config:write"]

def isKnownAction (s : String) : Bool := s ∈ allActions

/-! ## The checks of the service -/

/-- An entry of the `permissions` of a request. -/
structure PermissionInput where
  action : String
  scope : Option String := none
deriving DecidableEq

/-- The row an entry becomes, without its id: `p.scope ?? ''`. -/
def PermissionInput.grant (p : PermissionInput) : ResolvedPermission :=
  ⟨p.action, p.scope.getD ""⟩

/-- One round of the loop of `validatePermissions`. -/
def validatePermission (p : PermissionInput) : Except String Unit :=
  if p.action.toList.all Scan.isSpace then throw "action is required"
  else if isKnownAction p.action = false ∧ ':' ∉ p.action.toList then
    throw ("invalid action " ++ p.action ++ " — expected kind:verb form")
  else
    match present p.scope with
    | none => pure ()
    | some scope =>
      if (parseScope scope).kind = "" then throw ("invalid scope " ++ scope) else pure ()

def validatePermissions : List PermissionInput → Except String Unit
  | [] => pure ()
  | p :: ps => do
      validatePermission p
      validatePermissions ps

def isProtected (name : String) : Bool :=
  Text.startsWith name "basic:" || Text.startsWith name "fixed:"

/-! ## Roles -/

/-- The metadata of an update: an absent field keeps its column, an explicit
`null` clears it. -/
structure RolePatch where
  displayName : Option (Option String) := none
  description : Option (Option String) := none
  groupName : Option (Option String) := none
  hidden : Option Bool := none
deriving DecidableEq

def RolePatch.apply (patch : RolePatch) (d : RoleDetails) : RoleDetails :=
  { displayName := patch.displayName.getD d.displayName
    description := patch.description.getD d.description
    groupName := patch.groupName.getD d.groupName
    hidden := patch.hidden.getD d.hidden }

/-- The `UPDATE` of `RoleRepository.update`, with the columns merged before. -/
def Db.updateRole (db : Db) (id : String) (details : RoleDetails) : Db :=
  { db with roles := db.roles.map fun r =>
      if r.id = id then { r with version := r.version + 1, details } else r }

namespace RoleRepository

/-- The row is read first; the `UPDATE` and the read-back are one section. -/
def update (id : String) (patch : RolePatch) : Prog Db (Option Role) := do
  match ← Prog.read (·.findRoleById id) with
  | none => return none
  | some existing =>
    Prog.atomic fun db =>
      ((db.updateRole id (patch.apply existing.details)).findRoleById id,
        db.updateRole id (patch.apply existing.details))

end RoleRepository

/-! ## Permissions -/

namespace PermissionRepository

def deleteByRole (roleId : String) : Prog Db ℕ :=
  Prog.atomic fun db =>
    ((db.permissions.filter (·.roleId = roleId)).length,
      { db with permissions := db.permissions.filter (·.roleId ≠ roleId) })

/-- `create`; the id is fresh. -/
def create (row : Permission) : Prog Db Permission :=
  Prog.attempt fun db =>
    if (db.findRoleById row.roleId).isNone then (.error "FOREIGN KEY constraint failed", db)
    else (.ok row, { db with permissions := db.permissions ++ [row] })

/-- One `INSERT` after the other, each awaited. -/
def createMany : List Permission → Prog Db (List Permission)
  | [] => pure []
  | row :: rows => do
      let created ← create row
      let out ← createMany rows
      return created :: out

end PermissionRepository

/-! ## Assignments -/

inductive Principal : Type where
  | user (id : String)
  | team (id : String)
deriving DecidableEq

/-- A row of `user_role` or `team_role`, for its principal. -/
structure Assignment where
  orgId : String
  roleId : String
deriving DecidableEq

namespace Db

variable (db : Db)

def Assigned : Principal → Assignment → Prop
  | .user id, a => ⟨a.orgId, id, a.roleId⟩ ∈ db.userRoles
  | .team id, a => ⟨a.orgId, id, a.roleId⟩ ∈ db.teamRoles

instance (p : Principal) (a : Assignment) : Decidable (db.Assigned p a) :=
  match p with
  | .user id => inferInstanceAs (Decidable (⟨a.orgId, id, a.roleId⟩ ∈ db.userRoles))
  | .team id => inferInstanceAs (Decidable (⟨a.orgId, id, a.roleId⟩ ∈ db.teamRoles))

/-- `listByUser` and `listByTeam`. -/
def listAssignments (orgId : String) : Principal → List Assignment
  | .user id => (db.listUserRoles id orgId).map fun r => ⟨r.orgId, r.roleId⟩
  | .team id => (db.listTeamRoles id orgId).map fun r => ⟨r.orgId, r.roleId⟩

def principalExists : Principal → Bool
  | .user id => (db.findUser id).isSome
  | .team id => db.teams.any (·.id = id)

def addAssignment (a : Assignment) : Principal → Db
  | .user id => { db with userRoles := db.userRoles ++ [⟨a.orgId, id, a.roleId⟩] }
  | .team id => { db with teamRoles := db.teamRoles ++ [⟨a.orgId, id, a.roleId⟩] }

def dropAssignment (a : Assignment) : Principal → Db
  | .user id => { db with userRoles := db.userRoles.filter (· ≠ ⟨a.orgId, id, a.roleId⟩) }
  | .team id => { db with teamRoles := db.teamRoles.filter (· ≠ ⟨a.orgId, id, a.roleId⟩) }

end Db

def Principal.uniqueViolation : Principal → String
  | .user _ =>
    "UNIQUE constraint failed: user_role.org_id, user_role.user_id, user_role.role_id"
  | .team _ =>
    "UNIQUE constraint failed: team_role.org_id, team_role.team_id, team_role.role_id"

/-- `create` of the two assignment repositories. -/
def createAssignment (p : Principal) (a : Assignment) : Prog Db Unit :=
  Prog.attempt fun db =>
    if db.Assigned p a then (.error p.uniqueViolation, db)
    else if db.principalExists p = false ∨ (db.findRoleById a.roleId).isNone then
      (.error "FOREIGN KEY constraint failed", db)
    else (.ok (), db.addAssignment a p)

/-- `remove` of the two assignment repositories. -/
def removeAssignment (p : Principal) (a : Assignment) : Prog Db Bool :=
  Prog.atomic fun db =>
    if db.Assigned p a then (true, db.dropAssignment a p) else (false, db)

namespace RoleService

def findAcrossScopes (orgId roleUid : String) : Prog Db (Option Role) := do
  match ← Prog.read (·.findRoleByUid orgId roleUid) with
  | some role => return some role
  | none => Prog.read (·.findRoleByUid "" roleUid)

def assignedIn (orgId : String) (role : Role) : Assignment :=
  ⟨if role.orgId = "" then "" else orgId, role.id⟩

def assignRole (p : Principal) (orgId roleUid : String) : Prog Db Unit := do
  match ← findAcrossScopes orgId roleUid with
  | none => throw "role not found"
  | some role => do
      let existing ← Prog.read (·.listAssignments orgId p)
      if existing.any (·.roleId = role.id) then return ()
      else createAssignment p (assignedIn orgId role)

def unassignRole (p : Principal) (orgId roleUid : String) : Prog Db Bool := do
  match ← findAcrossScopes orgId roleUid with
  | none => return false
  | some role => removeAssignment p (assignedIn orgId role)

/-- `desired.set`: the entry of a role already in the map keeps its place. -/
def setEntry (desired : List Assignment) (a : Assignment) : List Assignment :=
  if a.roleId ∈ desired.map (·.roleId) then
    desired.map fun d => if d.roleId = a.roleId then a else d
  else desired ++ [a]

/-- The loop that fills `desired`. -/
def collectDesired (orgId : String) (desired : List Assignment) :
    List String → Prog Db (List Assignment)
  | [] => return desired
  | uid :: uids => do
      match ← findAcrossScopes orgId uid with
      | none => throw ("role " ++ uid ++ " not found")
      | some role => collectDesired orgId (setEntry desired (assignedIn orgId role)) uids

def removeEach (p : Principal) : List Assignment → Prog Db Unit
  | [] => return ()
  | a :: as => do
      let _ ← removeAssignment p a
      removeEach p as

def createEach (p : Principal) : List Assignment → Prog Db Unit
  | [] => return ()
  | a :: as => do
      createAssignment p a
      createEach p as

def dropped (current desired : List Assignment) : List Assignment :=
  current.filter fun r => r.roleId ∉ desired.map (·.roleId)

def gained (current desired : List Assignment) : List Assignment :=
  desired.filter fun d => d.roleId ∉ current.map (·.roleId)

def setRoles (p : Principal) (orgId : String) (roleUids : List String) : Prog Db Unit := do
  let current ← Prog.read (·.listAssignments orgId p)
  let desired ← collectDesired orgId [] roleUids
  removeEach p (dropped current desired)
  createEach p (gained current desired)

def assignRoleToUser (orgId userId roleUid : String) : Prog Db Unit :=
  assignRole (.user userId) orgId roleUid

def unassignRoleFromUser (orgId userId roleUid : String) : Prog Db Bool :=
  unassignRole (.user userId) orgId roleUid

def setUserRoles (orgId userId : String) (roleUids : List String) : Prog Db Unit :=
  setRoles (.user userId) orgId roleUids

def assignRoleToTeam (orgId teamId roleUid : String) : Prog Db Unit :=
  assignRole (.team teamId) orgId roleUid

def unassignRoleFromTeam (orgId teamId roleUid : String) : Prog Db Bool :=
  unassignRole (.team teamId) orgId roleUid

def setTeamRoles (orgId teamId : String) (roleUids : List String) : Prog Db Unit :=
  setRoles (.team teamId) orgId roleUids

/-! ## The update of a role -/

structure UpdateRoleInput where
  roleUid : String
  orgId : String
  version : ℕ
  patch : RolePatch := {}
  permissions : Option (List PermissionInput) := none

def rowsFor (roleId : String) (uid : ℕ → String) (perms : List PermissionInput) :
    List Permission :=
  perms.zipIdx.map fun (p, i) => ⟨uid i, roleId, p.action, p.scope.getD ""⟩

/-- The full replacement of the permissions, if a list is supplied; `uid` are the
ids the call draws. -/
def replacePermissions (uid : ℕ → String) (input : UpdateRoleInput) (id : String)
    (patched : Role) : Prog Db (Role × List Permission) :=
  match input.permissions with
  | none => do
      let perms ← Prog.read (·.listPermissionsByRole id)
      return (patched, perms)
  | some perms =>
    match validatePermissions perms with
    | .error e => throw e
    | .ok () => do
        let _ ← PermissionRepository.deleteByRole id
        let rows ← PermissionRepository.createMany (rowsFor id uid perms)
        return (patched, rows)

def applyUpdate (uid : ℕ → String) (input : UpdateRoleInput) (id : String) :
    Prog Db (Role × List Permission) := do
  match ← RoleRepository.update id input.patch with
  | none => throw "role not found"
  | some patched => replacePermissions uid input id patched

def checkUpdate (uid : ℕ → String) (input : UpdateRoleInput) :
    Option Role → Prog Db (Role × List Permission)
  | none => throw "role not found"
  | some existing =>
    if isProtected existing.name then throw "built-in / fixed roles are read-only"
    else if existing.version ≠ input.version then throw "role version mismatch"
    else applyUpdate uid input existing.id

def updateRole (uid : ℕ → String) (input : UpdateRoleInput) :
    Prog Db (Role × List Permission) := do
  checkUpdate uid input (← findAcrossScopes input.orgId input.roleUid)

end RoleService

end OpenObs.Rbac
