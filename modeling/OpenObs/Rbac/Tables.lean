import OpenObs.Rbac.Evaluator

/-!
# The tables of the auth subsystem

The rows of `repository/auth` with the columns the services read, and the
queries the services make. An org id of `''` on a role or an assignment marks
it as global: every org reads it.
-/

namespace OpenObs.Rbac

inductive OrgRole : Type where
  | none | viewer | editor | admin
deriving DecidableEq

def OrgRole.text : OrgRole → String
  | .none => "None"
  | .viewer => "Viewer"
  | .editor => "Editor"
  | .admin => "Admin"

structure User where
  id : String
  login : String
  email : String
  orgId : String
  isAdmin : Bool := false
  isDisabled : Bool := false
  isServiceAccount : Bool := false

/-- A row of `org_user`. -/
structure OrgUser where
  orgId : String
  userId : String
  role : OrgRole
deriving DecidableEq

structure Team where
  id : String
  orgId : String
  external : Bool := false

structure TeamMember where
  orgId : String
  teamId : String
  userId : String
  external : Bool := false
  permission : ℕ := 0
deriving DecidableEq

/-- The columns of a role that `updateRole` may patch. -/
structure RoleDetails where
  displayName : Option String := none
  description : Option String := none
  groupName : Option String := none
  hidden : Bool := false
deriving DecidableEq

structure Role where
  id : String
  orgId : String
  uid : String
  name : String
  version : ℕ := 0
  details : RoleDetails := {}
deriving DecidableEq

structure Permission where
  id : String
  roleId : String
  action : String
  scope : String
deriving DecidableEq

structure BuiltinRole where
  role : String
  roleId : String
  orgId : String
deriving DecidableEq

structure UserRole where
  orgId : String
  userId : String
  roleId : String
deriving DecidableEq

structure TeamRole where
  orgId : String
  teamId : String
  roleId : String
deriving DecidableEq

structure Folder where
  id : String
  orgId : String
  uid : String
  parentUid : Option String

structure FolderItem where
  id : String
  orgId : String
  folderUid : Option String

structure DashboardAcl where
  dashboardId : Option String
  folderId : Option String
  userId : Option String
  teamId : Option String
  role : Option String
  permission : ℕ

/-- A row of `api_key`. -/
structure ApiKey where
  id : String
  orgId : String
  name : String
  key : String
  role : String
  expires : Option ℕ := none
  serviceAccountId : Option String := none
  ownerUserId : Option String := none
  isRevoked : Bool := false

/-- A row of `quota` that limits a user. -/
structure UserQuota where
  userId : String
  target : String
  limitVal : Int

structure Db where
  orgs : List String := []
  users : List User := []
  orgUsers : List OrgUser := []
  teams : List Team := []
  teamMembers : List TeamMember := []
  roles : List Role := []
  permissions : List Permission := []
  builtinRoles : List BuiltinRole := []
  userRoles : List UserRole := []
  teamRoles : List TeamRole := []
  folders : List Folder := []
  dashboards : List FolderItem := []
  alertRules : List FolderItem := []
  dashboardAcl : List DashboardAcl := []
  apiKeys : List ApiKey := []
  userQuotas : List UserQuota := []

namespace Db

variable (db : Db)

/-! ## Users and memberships -/

def findUser (id : String) : Option User := db.users.find? (·.id = id)

def findMembership (orgId userId : String) : Option OrgUser :=
  db.orgUsers.find? fun m => m.orgId = orgId ∧ m.userId = userId

/-- The join of `listUsersByOrg`: the members of an org with their profiles. -/
def members (orgId : String) : List (OrgUser × User) :=
  (db.orgUsers.filter (·.orgId = orgId)).flatMap fun m =>
    (db.users.filter (·.id = m.userId)).map fun u => (m, u)

/-- `listUsersByOrg` without a search, in the order of the logins. -/
def listUsersByOrg (orgId : String) (limit : ℕ) : List (OrgUser × User) :=
  ((db.members orgId).mergeSort fun a b => decide (a.2.login ≤ b.2.login)).take limit

/-- `TeamMemberRepository.listTeamsForUser`; an empty org id is no filter. -/
def listTeamsForUser (userId orgId : String) : List TeamMember :=
  db.teamMembers.filter fun m => m.userId = userId ∧ (orgId = "" ∨ m.orgId = orgId)

/-- `TeamMemberRepository.listByTeam`, in insertion order. -/
def listTeamMembers (teamId : String) : List TeamMember :=
  db.teamMembers.filter (·.teamId = teamId)

def findTeamMembership (teamId userId : String) : Option TeamMember :=
  db.teamMembers.find? fun m => m.teamId = teamId ∧ m.userId = userId

/-! ## Roles and assignments -/

def findRoleByUid (orgId uid : String) : Option Role :=
  db.roles.find? fun r => r.orgId = orgId ∧ r.uid = uid

def findRoleByName (orgId name : String) : Option Role :=
  db.roles.find? fun r => r.orgId = orgId ∧ r.name = name

def findRoleById (id : String) : Option Role := db.roles.find? (·.id = id)

def listBuiltinRoles (orgId : String) : List BuiltinRole :=
  (db.builtinRoles.filter (·.orgId = orgId)).mergeSort fun a b => decide (a.role ≤ b.role)

/-- The rows an org reads: its own and the global ones; an empty org id is no
filter. -/
def readableIn (orgId rowOrgId : String) : Bool :=
  orgId = "" ∨ rowOrgId = orgId ∨ rowOrgId = ""

/-- `UserRoleRepository.listByUser`. -/
def listUserRoles (userId orgId : String) : List UserRole :=
  db.userRoles.filter fun r => r.userId = userId ∧ readableIn orgId r.orgId = true

/-- `TeamRoleRepository.listByTeam`. -/
def listTeamRoles (teamId orgId : String) : List TeamRole :=
  db.teamRoles.filter fun r => r.teamId = teamId ∧ readableIn orgId r.orgId = true

/-- `TeamRoleRepository.listByTeams`. -/
def listTeamsRoles (teamIds : List String) (orgId : String) : List TeamRole :=
  db.teamRoles.filter fun r => r.teamId ∈ teamIds ∧ readableIn orgId r.orgId = true

/-- `UserRoleRepository.listByRole`. -/
def listUsersOfRole (roleId : String) : List UserRole :=
  db.userRoles.filter (·.roleId = roleId)

/-- `TeamRoleRepository.listByRole`. -/
def listTeamsOfRole (roleId : String) : List TeamRole :=
  db.teamRoles.filter (·.roleId = roleId)

/-- `ORDER BY role_id, action, scope`. -/
def permissionLe (p q : Permission) : Bool :=
  p.roleId < q.roleId ∨ (p.roleId = q.roleId ∧
    (p.action < q.action ∨ (p.action = q.action ∧ p.scope ≤ q.scope)))

def listPermissionsByRoles (roleIds : List String) : List Permission :=
  (db.permissions.filter (·.roleId ∈ roleIds)).mergeSort permissionLe

def listPermissionsByRole (roleId : String) : List Permission :=
  db.listPermissionsByRoles [roleId]

def listPermissionsByAction (action : String) : List Permission :=
  db.permissions.filter (·.action = action)

/-! ## Folders -/

def findFolderByUid (orgId uid : String) : Option Folder :=
  db.folders.find? fun f => f.orgId = orgId ∧ f.uid = uid

def folderMaxDepth : ℕ := 8

def ancestorsFrom (orgId : String) : ℕ → Folder → List Folder
  | 0, _ => []
  | n + 1, cursor =>
    match cursor.parentUid.filter (· ≠ "") with
    | none => []
    | some parentUid =>
      match db.findFolderByUid orgId parentUid with
      | none => []
      | some parent => parent :: ancestorsFrom orgId n parent

def listAncestors (orgId uid : String) : List Folder :=
  match db.findFolderByUid orgId uid with
  | none => []
  | some folder => db.ancestorsFrom orgId (folderMaxDepth + 1) folder

/-- `getFolderUid` of the dashboards and of the alert rules. -/
def folderUidOf (items : List FolderItem) (orgId id : String) : Option String :=
  (items.find? fun d => d.orgId = orgId ∧ d.id = id).bind (·.folderUid)

end Db

/-! ## The constraints of the schema -/

structure Db.Schema (db : Db) : Prop where
  user_id : (db.users.map (·.id)).Nodup
  user_login : (db.users.map (·.login)).Nodup
  org_user : (db.orgUsers.map fun m => (m.orgId, m.userId)).Nodup
  org_user_user : ∀ m ∈ db.orgUsers, ∃ u ∈ db.users, u.id = m.userId

/-! ## The folder cascade -/

namespace Resolvers

variable (db : Db) (orgId : String)

def folderScopes (folderUid : String) : List String :=
  ("folders:uid:" ++ folderUid) ::
    (db.listAncestors orgId folderUid).map fun f => "folders:uid:" ++ f.uid

def flat (kind attr : String) (scope : String) : List String :=
  if (parseScope scope).kind ≠ kind then [scope]
  else [scope, kind ++ ":*", kind ++ ":" ++ attr ++ ":*"].eraseDups

def concreteUid (scope : String) : Option String :=
  if (parseScope scope).attr = "uid" ∧ (parseScope scope).identifier ≠ "*" then
    some (parseScope scope).identifier
  else none

def cascade (items : List FolderItem) (uid : String) : List String :=
  match (Db.folderUidOf items orgId uid).filter (· ≠ "") with
  | none => []
  | some folderUid => folderScopes db orgId folderUid

def dashboards (scope : String) : List String :=
  if (parseScope scope).kind ≠ "dashboards" then [scope]
  else
    ([scope, "dashboards:*", "dashboards:uid:*"] ++
      (match concreteUid scope with
        | none => []
        | some uid => cascade db orgId db.dashboards uid ++ ["folders:*", "folders:uid:*"])
      ).eraseDups

def folders (scope : String) : List String :=
  if (parseScope scope).kind ≠ "folders" then [scope]
  else
    ([scope, "folders:*", "folders:uid:*"] ++
      (match concreteUid scope with
        | none => []
        | some uid =>
          (db.listAncestors orgId uid).map fun f => "folders:uid:" ++ f.uid)).eraseDups

def alertRules (scope : String) : List String :=
  if (parseScope scope).kind ≠ "alert.rules" then [scope]
  else
    ([scope, "alert.rules:*", "alert.rules:uid:*", "folders:*", "folders:uid:*"] ++
      (match concreteUid scope with
        | none => []
        | some uid => cascade db orgId db.alertRules uid)).eraseDups

/-- The table of `createResolverRegistry`. -/
def byKind (kind : String) : String → List String :=
  if kind = "dashboards" then dashboards db orgId
  else if kind = "folders" then folders db orgId
  else if kind = "alert.rules" then alertRules db orgId
  else if kind = "connectors" then flat kind "uid"
  else flat kind "id"

end Resolvers

/-- `registry.resolve` of an org. -/
def registry (db : Db) (orgId : String) : String → List String :=
  resolve (Resolvers.byKind db orgId)

end OpenObs.Rbac
