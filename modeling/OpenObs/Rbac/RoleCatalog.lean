import OpenObs.Rbac.RoleService

/-!
# The catalog of roles

`rbac/roles-def.ts` and `rbac/fixed-roles-def.ts`: the basic roles, with what each inherits,
and the fixed roles. The seed writes them into the tables.
-/

namespace OpenObs.Rbac

/-! ## Basic roles -/

structure BasicRoleDefinition where
  name : String
  uid : String
  displayName : String
  description : String
  builtinMappingRole : String
  global : Bool
  permissions : List ResolvedPermission
  parent : Option String := none

def viewerPermissions : List ResolvedPermission :=
  [⟨"dashboards:read", "dashboards:*"⟩, ⟨"folders:read", "folders:*"⟩,
   ⟨"annotations:read", "annotations:*"⟩, ⟨"connectors:explore", ""⟩,
   ⟨"connectors.id:read", "connectors:*"⟩, ⟨"alert.rules:read", "folders:*"⟩,
   ⟨"alert.instances:read", ""⟩, ⟨"alert.instances.external:read", ""⟩,
   ⟨"alert.notifications:read", ""⟩, ⟨"alert.silences:read", ""⟩, ⟨"orgs:read", ""⟩,
   ⟨"orgs.preferences:read", ""⟩, ⟨"teams:read", "teams:*"⟩,
   ⟨"users.quotas:list", "global.users:*"⟩, ⟨"investigations:read", "investigations:*"⟩,
   ⟨"approvals:read", "approvals:*"⟩, ⟨"plans:read", "plans:*"⟩, ⟨"chat:use", ""⟩]

def editorOnlyPermissions : List ResolvedPermission :=
  [⟨"dashboards:create", "folders:*"⟩, ⟨"dashboards:write", "dashboards:*"⟩,
   ⟨"dashboards:delete", "dashboards:*"⟩, ⟨"folders:create", ""⟩, ⟨"folders:write", "folders:*"⟩,
   ⟨"folders:delete", "folders:*"⟩, ⟨"connectors:query", "connectors:*"⟩,
   ⟨"connectors:read", "connectors:*"⟩, ⟨"annotations:write", "annotations:*"⟩,
   ⟨"annotations:create", "annotations:*"⟩, ⟨"annotations:delete", "annotations:*"⟩,
   ⟨"alert.rules:write", "folders:*"⟩, ⟨"alert.rules:create", "folders:*"⟩,
   ⟨"alert.rules:delete", "folders:*"⟩, ⟨"alert.notifications:write", ""⟩,
   ⟨"alert.instances.external:write", ""⟩, ⟨"alert.silences:create", ""⟩,
   ⟨"alert.silences:write", ""⟩, ⟨"investigations:write", "investigations:*"⟩,
   ⟨"investigations:create", ""⟩, ⟨"investigations:delete", "investigations:*"⟩,
   ⟨"approvals:approve", "approvals:*"⟩, ⟨"plans:approve", "plans:*"⟩]

def adminOnlyPermissions : List ResolvedPermission :=
  [⟨"org.users:read", "users:*"⟩, ⟨"org.users:add", "users:*"⟩, ⟨"org.users:write", "users:*"⟩,
   ⟨"org.users:remove", "users:*"⟩, ⟨"orgs:write", ""⟩, ⟨"orgs.preferences:write", ""⟩,
   ⟨"orgs.quotas:read", ""⟩, ⟨"orgs.quotas:write", ""⟩, ⟨"teams:create", ""⟩,
   ⟨"teams:write", "teams:*"⟩, ⟨"teams:delete", "teams:*"⟩, ⟨"teams.permissions:read", "teams:*"⟩,
   ⟨"teams.permissions:write", "teams:*"⟩, ⟨"serviceaccounts:read", "serviceaccounts:*"⟩,
   ⟨"serviceaccounts:write", "serviceaccounts:*"⟩, ⟨"serviceaccounts:create", ""⟩,
   ⟨"serviceaccounts:delete", "serviceaccounts:*"⟩,
   ⟨"serviceaccounts.permissions:read", "serviceaccounts:*"⟩,
   ⟨"serviceaccounts.permissions:write", "serviceaccounts:*"⟩, ⟨"apikeys:read", "apikeys:*"⟩,
   ⟨"apikeys:create", ""⟩, ⟨"apikeys:delete", "apikeys:*"⟩, ⟨"roles:read", "roles:*"⟩,
   ⟨"roles:write", "roles:*"⟩, ⟨"roles:delete", "roles:*"⟩, ⟨"connectors:write", "connectors:*"⟩,
   ⟨"connectors:create", ""⟩, ⟨"connectors:delete", "connectors:*"⟩,
   ⟨"connectors.permissions:read", "connectors:*"⟩,
   ⟨"connectors.permissions:write", "connectors:*"⟩, ⟨"folders.permissions:read", "folders:*"⟩,
   ⟨"folders.permissions:write", "folders:*"⟩, ⟨"dashboards.permissions:read", "dashboards:*"⟩,
   ⟨"dashboards.permissions:write", "dashboards:*"⟩, ⟨"alert.provisioning:read", ""⟩,
   ⟨"alert.provisioning:write", ""⟩, ⟨"approvals:override", "approvals:*"⟩,
   ⟨"agents.config:read", ""⟩, ⟨"agents.config:write", ""⟩, ⟨"connectors:read", "connectors:*"⟩,
   ⟨"connectors:write", "connectors:*"⟩, ⟨"ops.commands:run", "connectors:*"⟩,
   ⟨"instance.config:read", ""⟩, ⟨"instance.config:write", ""⟩]

def serverAdminPermissions : List ResolvedPermission := allActions.map (⟨·, ""⟩)

def basicRoleDefinitions : List BasicRoleDefinition :=
  [{ name := "basic:viewer"
     uid := "basic_viewer"
     displayName := "Viewer"
     description := "Read-only access to dashboards, folders, and annotations."
     builtinMappingRole := "Viewer"
     global := false
     permissions := viewerPermissions },
   { name := "basic:editor"
     uid := "basic_editor"
     displayName := "Editor"
     description := "Viewer plus dashboard, folder, annotation, and alert-rule CRUD."
     builtinMappingRole := "Editor"
     global := false
     parent := "basic:viewer"
     permissions := editorOnlyPermissions },
   { name := "basic:admin"
     uid := "basic_admin"
     displayName := "Admin"
     description := "Editor plus org-level admin: users, teams, service accounts, roles."
     builtinMappingRole := "Admin"
     global := false
     parent := "basic:editor"
     permissions := adminOnlyPermissions },
   { name := "basic:server_admin"
     uid := "basic_server_admin"
     displayName := "Server Admin"
     description :=
       "Global: every action unrestricted. Does not automatically grant org-level resource access."
     builtinMappingRole := "Server Admin"
     global := true
     permissions := serverAdminPermissions }]

def permissionKey (action scope : String) : String := action ++ "|" ++ scope

/-- The map `byName`: of two entries with one name the last stays. -/
def byName (name : String) : Option BasicRoleDefinition :=
  basicRoleDefinitions.reverse.find? (·.name = name)

/-- `collected.push(p)` unless its key is in `seen`. -/
def collect (collected : List ResolvedPermission) (p : ResolvedPermission) :
    List ResolvedPermission :=
  if permissionKey p.action p.scope ∈ collected.map fun q => permissionKey q.action q.scope then
    collected
  else collected ++ [p]

/-- The recursion of `resolveBasicRolePermissions`: what the parent grants comes first. -/
def walk : ℕ → String → List ResolvedPermission → List ResolvedPermission
  | 0, _, collected => collected
  | fuel + 1, name, collected =>
    match byName name with
    | none => collected
    | some d => d.permissions.foldl collect
        (match d.parent with
          | none => collected
          | some parent => walk fuel parent collected)

def resolveBasicRolePermissions (roleName : String) : List ResolvedPermission :=
  walk 3 roleName []

theorem byName_parent {name : String} {d : BasicRoleDefinition} (h : byName name = some d) :
    d.parent = none ∨ d.parent = some "basic:viewer" ∨ d.parent = some "basic:editor" := by
  have hall : ∀ d ∈ basicRoleDefinitions.reverse,
      d.parent = none ∨ d.parent = some "basic:viewer" ∨ d.parent = some "basic:editor" := by
    simp [basicRoleDefinitions]
  exact hall d (List.mem_of_find?_eq_some h)

theorem walk_viewer (fuel : ℕ) (collected : List ResolvedPermission) :
    walk (fuel + 1) "basic:viewer" collected = viewerPermissions.foldl collect collected := rfl

theorem walk_editor (fuel : ℕ) (collected : List ResolvedPermission) :
    walk (fuel + 2) "basic:editor" collected =
      editorOnlyPermissions.foldl collect (viewerPermissions.foldl collect collected) := rfl

theorem walk_fuel (fuel : ℕ) (name : String) (collected : List ResolvedPermission) :
    walk (fuel + 3) name collected = walk 3 name collected := by
  rw [walk, walk]
  cases hname : byName name with
  | none => rfl
  | some d =>
    dsimp only
    rcases byName_parent hname with hparent | hparent | hparent
    · rw [hparent]
    · rw [hparent]
      dsimp only
      rw [walk_viewer, walk_viewer]
    · rw [hparent]
      dsimp only
      rw [walk_editor, walk_editor]

/-! ## Fixed roles -/

structure FixedRoleDefinition where
  name : String
  uid : String
  displayName : String
  description : String
  groupName : String
  permissions : List ResolvedPermission
  hidden : Bool

/-- `def`: the uid is the name with `_` for `:` and `.`. -/
def fixedRole (name displayName description groupName : String)
    (permissions : List ResolvedPermission) (hidden : Bool := false) : FixedRoleDefinition :=
  { name, displayName, description, groupName, permissions, hidden
    uid := String.ofList (name.toList.map fun c => if c = ':' ∨ c = '.' then '_' else c) }

def fixedRoleDefinitions : List FixedRoleDefinition :=
  [fixedRole "fixed:dashboards:reader" "Dashboards reader"
      "Read dashboards and dashboard permissions." "Dashboards"
      [⟨"dashboards:read", "dashboards:*"⟩, ⟨"dashboards.permissions:read", "dashboards:*"⟩],
    fixedRole "fixed:dashboards:writer" "Dashboards writer"
      "Create, update, and delete dashboards plus manage permissions." "Dashboards"
      [⟨"dashboards:read", "dashboards:*"⟩, ⟨"dashboards:write", "dashboards:*"⟩,
       ⟨"dashboards:create", "folders:*"⟩, ⟨"dashboards:delete", "dashboards:*"⟩,
       ⟨"dashboards.permissions:read", "dashboards:*"⟩,
       ⟨"dashboards.permissions:write", "dashboards:*"⟩],
    fixedRole "fixed:dashboards:creator" "Dashboards creator" "Create dashboards in any folder."
      "Dashboards" [⟨"dashboards:create", "folders:*"⟩],
    fixedRole "fixed:dashboards.permissions:reader" "Dashboard permissions reader"
      "Read dashboard permission assignments." "Dashboards"
      [⟨"dashboards.permissions:read", "dashboards:*"⟩],
    fixedRole "fixed:dashboards.permissions:writer" "Dashboard permissions writer"
      "Change dashboard permission assignments." "Dashboards"
      [⟨"dashboards.permissions:read", "dashboards:*"⟩,
       ⟨"dashboards.permissions:write", "dashboards:*"⟩],
    fixedRole "fixed:folders:reader" "Folders reader" "Read folders and folder permissions."
      "Folders" [⟨"folders:read", "folders:*"⟩, ⟨"folders.permissions:read", "folders:*"⟩],
    fixedRole "fixed:folders:writer" "Folders writer"
      "Create, update, and delete folders plus manage permissions." "Folders"
      [⟨"folders:read", "folders:*"⟩, ⟨"folders:write", "folders:*"⟩, ⟨"folders:create", ""⟩,
       ⟨"folders:delete", "folders:*"⟩, ⟨"folders.permissions:read", "folders:*"⟩,
       ⟨"folders.permissions:write", "folders:*"⟩],
    fixedRole "fixed:folders:creator" "Folders creator" "Create new folders." "Folders"
      [⟨"folders:create", ""⟩],
    fixedRole "fixed:folders.permissions:reader" "Folder permissions reader"
      "Read folder permission assignments." "Folders" [⟨"folders.permissions:read", "folders:*"⟩],
    fixedRole "fixed:folders.permissions:writer" "Folder permissions writer"
      "Change folder permission assignments." "Folders"
      [⟨"folders.permissions:read", "folders:*"⟩, ⟨"folders.permissions:write", "folders:*"⟩],
    fixedRole "fixed:connectors:reader" "Connectors reader"
      "Read connectors and their configuration." "Connectors"
      [⟨"connectors:read", "connectors:*"⟩, ⟨"connectors.id:read", "connectors:*"⟩],
    fixedRole "fixed:connectors:writer" "Connectors writer"
      "Create, update, and delete connectors." "Connectors"
      [⟨"connectors:read", "connectors:*"⟩, ⟨"connectors:write", "connectors:*"⟩,
       ⟨"connectors:create", ""⟩, ⟨"connectors:delete", "connectors:*"⟩,
       ⟨"connectors.id:read", "connectors:*"⟩],
    fixedRole "fixed:connectors:creator" "Connectors creator" "Create new connectors."
      "Connectors" [⟨"connectors:create", ""⟩],
    fixedRole "fixed:connectors:explorer" "Connectors explorer"
      "Use Explore to run ad-hoc queries." "Connectors" [⟨"connectors:explore", ""⟩],
    fixedRole "fixed:connectors.permissions:reader" "Connector permissions reader"
      "Read connector permission assignments." "Connectors"
      [⟨"connectors.permissions:read", "connectors:*"⟩],
    fixedRole "fixed:connectors.permissions:writer" "Connector permissions writer"
      "Change connector permission assignments." "Connectors"
      [⟨"connectors.permissions:read", "connectors:*"⟩,
       ⟨"connectors.permissions:write", "connectors:*"⟩],
    fixedRole "fixed:connectors.id:reader" "Connector ID reader"
      "Resolve connector numeric IDs from UIDs (internal)." "Connectors"
      [⟨"connectors.id:read", "connectors:*"⟩] true,
    fixedRole "fixed:users:reader" "Users reader"
      "Read user accounts and their authentication info." "Users"
      [⟨"users:read", "global.users:*"⟩, ⟨"users.authtoken:read", "global.users:*"⟩,
       ⟨"users.quotas:list", "global.users:*"⟩],
    fixedRole "fixed:users:writer" "Users writer"
      "Create, update, delete, disable, and manage passwords for user accounts." "Users"
      [⟨"users:read", "global.users:*"⟩, ⟨"users:write", "global.users:*"⟩, ⟨"users:create", ""⟩,
       ⟨"users:delete", "global.users:*"⟩, ⟨"users:disable", "global.users:*"⟩,
       ⟨"users.authtoken:read", "global.users:*"⟩, ⟨"users.authtoken:update", "global.users:*"⟩,
       ⟨"users.password:update", "global.users:*"⟩, ⟨"users.permissions:read", "global.users:*"⟩,
       ⟨"users.permissions:write", "global.users:*"⟩, ⟨"users.quotas:list", "global.users:*"⟩,
       ⟨"users.quotas:update", "global.users:*"⟩],
    fixedRole "fixed:org.users:reader" "Organization users reader"
      "Read the current organization’s membership." "Organizations"
      [⟨"org.users:read", "users:*"⟩],
    fixedRole "fixed:org.users:writer" "Organization users writer"
      "Add, remove, and change roles of members in the current organization." "Organizations"
      [⟨"org.users:read", "users:*"⟩, ⟨"org.users:add", "users:*"⟩,
       ⟨"org.users:write", "users:*"⟩, ⟨"org.users:remove", "users:*"⟩],
    fixedRole "fixed:orgs:reader" "Organizations reader"
      "Read organization metadata, preferences, and quotas." "Organizations"
      [⟨"orgs:read", ""⟩, ⟨"orgs.preferences:read", ""⟩, ⟨"orgs.quotas:read", ""⟩],
    fixedRole "fixed:orgs:writer" "Organizations writer"
      "Update organization metadata, preferences, and quotas." "Organizations"
      [⟨"orgs:read", ""⟩, ⟨"orgs:write", ""⟩, ⟨"orgs.preferences:read", ""⟩,
       ⟨"orgs.preferences:write", ""⟩, ⟨"orgs.quotas:read", ""⟩, ⟨"orgs.quotas:write", ""⟩],
    fixedRole "fixed:orgs:creator" "Organizations creator"
      "Create new organizations (server admin scope)." "Organizations" [⟨"orgs:create", ""⟩],
    fixedRole "fixed:teams:reader" "Teams reader" "Read teams and their members." "Teams"
      [⟨"teams:read", "teams:*"⟩],
    fixedRole "fixed:teams:writer" "Teams writer" "Create, update, and delete teams." "Teams"
      [⟨"teams:read", "teams:*"⟩, ⟨"teams:write", "teams:*"⟩, ⟨"teams:create", ""⟩,
       ⟨"teams:delete", "teams:*"⟩, ⟨"teams.permissions:read", "teams:*"⟩,
       ⟨"teams.permissions:write", "teams:*"⟩],
    fixedRole "fixed:teams:creator" "Teams creator"
      "Create new teams in the current organization." "Teams" [⟨"teams:create", ""⟩],
    fixedRole "fixed:serviceaccounts:reader" "Service accounts reader"
      "Read service accounts and their tokens." "Service Accounts"
      [⟨"serviceaccounts:read", "serviceaccounts:*"⟩,
       ⟨"serviceaccounts.permissions:read", "serviceaccounts:*"⟩],
    fixedRole "fixed:serviceaccounts:writer" "Service accounts writer"
      "Create, update, delete service accounts and manage their tokens." "Service Accounts"
      [⟨"serviceaccounts:read", "serviceaccounts:*"⟩,
       ⟨"serviceaccounts:write", "serviceaccounts:*"⟩,
       ⟨"serviceaccounts:delete", "serviceaccounts:*"⟩,
       ⟨"serviceaccounts.permissions:read", "serviceaccounts:*"⟩,
       ⟨"serviceaccounts.permissions:write", "serviceaccounts:*"⟩],
    fixedRole "fixed:serviceaccounts:creator" "Service accounts creator"
      "Create new service accounts." "Service Accounts" [⟨"serviceaccounts:create", ""⟩],
    fixedRole "fixed:roles:reader" "Roles reader" "Read RBAC roles and permission assignments."
      "Roles" [⟨"roles:read", "roles:*"⟩],
    fixedRole "fixed:roles:writer" "Roles writer" "Create, update, and delete custom RBAC roles."
      "Roles"
      [⟨"roles:read", "roles:*"⟩, ⟨"roles:write", "roles:*"⟩, ⟨"roles:delete", "roles:*"⟩],
    fixedRole "fixed:annotations:reader" "Annotations reader" "Read annotations on dashboards."
      "Annotations" [⟨"annotations:read", "annotations:*"⟩],
    fixedRole "fixed:annotations:writer" "Annotations writer"
      "Create, update, and delete annotations on dashboards." "Annotations"
      [⟨"annotations:read", "annotations:*"⟩, ⟨"annotations:write", "annotations:*"⟩,
       ⟨"annotations:create", "annotations:*"⟩, ⟨"annotations:delete", "annotations:*"⟩],
    fixedRole "fixed:alert.rules:reader" "Alert rules reader" "Read alert rules and their state."
      "Alerting" [⟨"alert.rules:read", "folders:*"⟩],
    fixedRole "fixed:alert.rules:writer" "Alert rules writer"
      "Create, update, and delete alert rules." "Alerting"
      [⟨"alert.rules:read", "folders:*"⟩, ⟨"alert.rules:write", "folders:*"⟩,
       ⟨"alert.rules:create", "folders:*"⟩, ⟨"alert.rules:delete", "folders:*"⟩],
    fixedRole "fixed:alert.instances:reader" "Alert instances reader"
      "Read alert rule instances and state history." "Alerting"
      [⟨"alert.instances:read", ""⟩, ⟨"alert.instances.external:read", ""⟩],
    fixedRole "fixed:alert.instances:writer" "Alert instances writer"
      "Acknowledge and modify alert instance state." "Alerting"
      [⟨"alert.instances:read", ""⟩, ⟨"alert.instances.external:read", ""⟩,
       ⟨"alert.instances.external:write", ""⟩],
    fixedRole "fixed:alert.notifications:reader" "Notification channels reader"
      "Read notification channels and policies." "Alerting" [⟨"alert.notifications:read", ""⟩],
    fixedRole "fixed:alert.notifications:writer" "Notification channels writer"
      "Manage notification channels and policies." "Alerting"
      [⟨"alert.notifications:read", ""⟩, ⟨"alert.notifications:write", ""⟩],
    fixedRole "fixed:alert.silences:reader" "Alert silences reader" "Read alert silences."
      "Alerting" [⟨"alert.silences:read", ""⟩],
    fixedRole "fixed:alert.silences:creator" "Alert silences creator" "Create alert silences."
      "Alerting" [⟨"alert.silences:read", ""⟩, ⟨"alert.silences:create", ""⟩],
    fixedRole "fixed:alert.silences:writer" "Alert silences writer"
      "Create, update, and delete alert silences." "Alerting"
      [⟨"alert.silences:read", ""⟩, ⟨"alert.silences:create", ""⟩, ⟨"alert.silences:write", ""⟩],
    fixedRole "fixed:alert.provisioning:reader" "Alert provisioning reader"
      "Read provisioned alerting resources." "Alerting" [⟨"alert.provisioning:read", ""⟩],
    fixedRole "fixed:alert.provisioning:writer" "Alert provisioning writer"
      "Manage provisioned alerting resources." "Alerting"
      [⟨"alert.provisioning:read", ""⟩, ⟨"alert.provisioning:write", ""⟩],
    fixedRole "fixed:server.stats:reader" "Server stats reader" "Read server-wide statistics."
      "Server" [⟨"server.stats:read", ""⟩],
    fixedRole "fixed:server.usagestats.report:reader" "Server usage report reader"
      "Read the server usage statistics report." "Server" [⟨"server.usagestats.report:read", ""⟩],
    fixedRole "fixed:apikeys:reader" "API keys reader" "List legacy API keys." "API Keys"
      [⟨"apikeys:read", "apikeys:*"⟩],
    fixedRole "fixed:apikeys:writer" "API keys writer" "Create and delete legacy API keys."
      "API Keys"
      [⟨"apikeys:read", "apikeys:*"⟩, ⟨"apikeys:create", ""⟩, ⟨"apikeys:delete", "apikeys:*"⟩],
    fixedRole "fixed:investigations:reader" "Investigations reader" "Read investigations."
      "Investigations" [⟨"investigations:read", "investigations:*"⟩],
    fixedRole "fixed:investigations:writer" "Investigations writer"
      "Create, update, and delete investigations." "Investigations"
      [⟨"investigations:read", "investigations:*"⟩, ⟨"investigations:write", "investigations:*"⟩,
       ⟨"investigations:create", ""⟩, ⟨"investigations:delete", "investigations:*"⟩],
    fixedRole "fixed:approvals:reader" "Approvals reader" "Read pending approvals." "Approvals"
      [⟨"approvals:read", "approvals:*"⟩],
    fixedRole "fixed:approvals:approver" "Approvals approver"
      "Approve or reject pending approvals." "Approvals"
      [⟨"approvals:read", "approvals:*"⟩, ⟨"approvals:approve", "approvals:*"⟩],
    fixedRole "fixed:approvals:overrider" "Approvals overrider"
      "Override pending approvals regardless of normal policy." "Approvals"
      [⟨"approvals:read", "approvals:*"⟩, ⟨"approvals:approve", "approvals:*"⟩,
       ⟨"approvals:override", "approvals:*"⟩],
    fixedRole "fixed:approvals:cluster_approver" "Cluster approver"
      "Read and approve cluster-operation approvals scoped to a single ops connector." "Approvals"
      [⟨"approvals:read", "approvals:connector:*"⟩,
       ⟨"approvals:approve", "approvals:connector:*"⟩],
    fixedRole "fixed:approvals:namespace_approver" "Namespace approver"
      "Read and approve cluster-operation approvals scoped to a single (connector, namespace) pair."
      "Approvals"
      [⟨"approvals:read", "approvals:namespace:*:*"⟩,
       ⟨"approvals:approve", "approvals:namespace:*:*"⟩],
    fixedRole "fixed:approvals:team_viewer" "Team approval viewer"
      "Read approvals originated by a single team." "Approvals"
      [⟨"approvals:read", "approvals:team:*"⟩],
    fixedRole "fixed:plans:reader" "Plans reader" "Read remediation plans." "Plans"
      [⟨"plans:read", "plans:*"⟩],
    fixedRole "fixed:plans:approver" "Plans approver"
      "Approve, reject, cancel, and retry remediation plans." "Plans"
      [⟨"plans:read", "plans:*"⟩, ⟨"plans:approve", "plans:*"⟩],
    fixedRole "fixed:plans:auto_editor" "Plans auto-editor (cluster-wide)"
      "Approve a plan in auto-edit mode for ANY namespace (skips per-step approvals). Sensitive — grant explicitly. For namespace-narrowed auto-edit, grant `plans:auto_edit` on a `plans:namespace:<ns>` scope instead of using this fixed role."
      "Plans"
      [⟨"plans:read", "plans:*"⟩, ⟨"plans:approve", "plans:*"⟩, ⟨"plans:auto_edit", "plans:*"⟩],
    fixedRole "fixed:agents.config:reader" "Agents configuration reader"
      "Read agent configuration." "Agents" [⟨"agents.config:read", ""⟩],
    fixedRole "fixed:agents.config:writer" "Agents configuration writer"
      "Change agent configuration." "Agents"
      [⟨"agents.config:read", ""⟩, ⟨"agents.config:write", ""⟩],
    fixedRole "fixed:ops.commands:runner" "Ops command runner"
      "Run policy-gated Ops/Kubernetes commands through configured connectors." "Ops"
      [⟨"connectors:read", "connectors:*"⟩, ⟨"ops.commands:run", "connectors:*"⟩]]

end OpenObs.Rbac
