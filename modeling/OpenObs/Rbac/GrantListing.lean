import OpenObs.Foundation.Distinct
import OpenObs.Rbac.ManagedRoles

/-!
# Listing the grants on a resource

`list` of `services/resource-permission-service.ts`: the permission rows at the scope of a resource,
and at those of the folders above it, by the principals whose roles they belong to.
-/

namespace OpenObs.Rbac

open OpenObs.Foundation

def PermissionLevel.covers (actions : List String) (resource : ResourceKind)
    (level : PermissionLevel) : Bool :=
  (actionsForLevel resource level).all (· ∈ actions)

def levelForActions (resource : ResourceKind) (actions : List String) : PermissionLevel :=
  if PermissionLevel.admin.covers actions resource then .admin
  else if PermissionLevel.edit.covers actions resource then .edit
  else .view

structure ResourcePermissionEntry where
  id : String
  roleName : String
  isManaged : Bool
  isInherited : Bool
  inheritedFrom : Option String
  permission : PermissionLevel
  actions : List String
  userId : Option String := none
  userLogin : Option String := none
  userEmail : Option String := none
  teamId : Option String := none
  builtInRole : Option BuiltInRoleName := none

structure PrincipalBucket where
  principal : GrantPrincipal
  actions : List String
  roleName : String
  inheritedFrom : Option String

namespace ResourcePermissionService

section Collect

variable (db : Db) (orgId : String)

def catalogActions : List String :=
  ([ResourceKind.folders, .dashboards, .connectors, .alertRules].flatMap fun kind =>
    actionsForLevel kind .view ++ actionsForLevel kind .edit ++
      actionsForLevel kind .admin).eraseDups

def findPermissionsAtScope (scope : String) : List Permission :=
  catalogActions.flatMap fun action =>
    (db.listPermissionsByAction action).filter (·.scope = scope)

def builtInRoleName : String → Option BuiltInRoleName
  | "Admin" => some .admin
  | "Editor" => some .editor
  | "Viewer" => some .viewer
  | _ => none

/-- `/^managed:(users|teams|builtins):([^:]+):permissions$/`. -/
def managedPrincipal (roleName : String) : Option GrantPrincipal :=
  match Text.split roleName ':' with
  | ["managed", kind, id, "permissions"] =>
    if id = "" then none
    else if kind = "users" then some (.user id)
    else if kind = "teams" then some (.team id)
    else if kind = "builtins" then (builtInRoleName id).map .role
    else none
  | _ => none

def assignedPrincipal (roleId : String) : Option GrantPrincipal :=
  match present ((db.listUsersOfRole roleId).getLast?.map (·.userId)) with
  | some userId => some (.user userId)
  | none =>
    match present ((db.listTeamsOfRole roleId).getLast?.map (·.teamId)) with
    | some teamId => some (.team teamId)
    | none =>
      (((db.listBuiltinRoles orgId).filter (·.roleId = roleId)).getLast?.bind fun row =>
        builtInRoleName row.role).map .role

def principalFor (role : Role) : Option GrantPrincipal :=
  (managedPrincipal role.name).or (assignedPrincipal db orgId role.id)

def readableRole (roleId : String) : Option Role :=
  (db.findRoleById roleId).filter fun role => role.orgId = orgId ∨ role.orgId = ""

def addToBucket (principal : GrantPrincipal) (roleName action : String)
    (inheritedFrom : Option String) (buckets : List PrincipalBucket) : List PrincipalBucket :=
  if buckets.any fun b => principalKey b.principal = principalKey principal then
    buckets.map fun b =>
      if principalKey b.principal = principalKey principal then
        { b with
          actions := addToSet action b.actions
          inheritedFrom := if inheritedFrom.isNone then none else b.inheritedFrom }
      else b
  else buckets ++ [⟨principal, [action], roleName, inheritedFrom⟩]

def collectInto (scope : String) (inheritedFrom : Option String)
    (buckets : List PrincipalBucket) : List PrincipalBucket :=
  (findPermissionsAtScope db scope).foldl (fun buckets row =>
    match readableRole db orgId row.roleId with
    | none => buckets
    | some role =>
      match principalFor db orgId role with
      | none => buckets
      | some principal => addToBucket principal role.name row.action inheritedFrom buckets) buckets

def collectFolders (folders : List Folder) (buckets : List PrincipalBucket) :
    List PrincipalBucket :=
  folders.foldl (fun buckets f =>
    collectInto db orgId ("folders:uid:" ++ f.uid) (some f.uid) buckets) buckets

/-- The cascade from the folders above; for a dashboard or a rule the caller gives the folder. -/
def collectInherited (resource : ResourceKind) (uid : String) (ctxFolderUid : Option String)
    (buckets : List PrincipalBucket) : List PrincipalBucket :=
  match resource with
  | .folders => collectFolders db orgId (db.listAncestors orgId uid) buckets
  | .connectors => buckets
  | .dashboards | .alertRules =>
    match present ctxFolderUid with
    | none => buckets
    | some folderUid =>
      match db.findFolderByUid orgId folderUid with
      | none => buckets
      | some folder =>
        collectFolders db orgId (db.listAncestors orgId folderUid)
          (collectInto db orgId ("folders:uid:" ++ folderUid) (some folder.uid) buckets)

def entryOf (resource : ResourceKind) (b : PrincipalBucket) : ResourcePermissionEntry :=
  let entry : ResourcePermissionEntry :=
    { id := b.roleName
      roleName := b.roleName
      isManaged := Text.startsWith b.roleName "managed:"
      isInherited := b.inheritedFrom.isSome
      inheritedFrom := b.inheritedFrom
      permission := levelForActions resource b.actions
      actions := b.actions }
  match b.principal with
  | .user userId =>
    { entry with
      userId := some userId
      userLogin := (db.findUser userId).map (·.login)
      userEmail := (db.findUser userId).map (·.email) }
  | .team teamId => { entry with teamId := some teamId }
  | .role role => { entry with builtInRole := some role }

def list (resource : ResourceKind) (uid : String) (ctxFolderUid : Option String) :
    List ResourcePermissionEntry :=
  (collectInherited db orgId resource uid ctxFolderUid
    (collectInto db orgId (resource.text ++ ":uid:" ++ uid) none [])).map (entryOf db resource)

end Collect

end ResourcePermissionService

/-! ## Who has an entry -/

def ResourcePermissionEntry.IsFor (e : ResourcePermissionEntry) : GrantPrincipal → Prop
  | .user userId => e.userId = some userId
  | .team teamId => e.teamId = some teamId
  | .role role => e.builtInRole = some role

section Entries

open ResourcePermissionService

variable {db : Db} {orgId : String} {q : GrantPrincipal}

def GrantsAt (db : Db) (orgId scope : String) (role : Role) : Prop :=
  ∃ row ∈ db.permissions, row.scope = scope ∧ row.action ∈ catalogActions ∧
    readableRole db orgId row.roleId = some role

/-- The one principal the lookups keep for a role: the one its name spells, or else the last of
its users, of its teams, or of its built-in roles. -/
inductive StandsFor (db : Db) (orgId : String) (role : Role) : GrantPrincipal → Prop where
  | managed {q : GrantPrincipal} (h : managedPrincipal role.name = some q) :
      StandsFor db orgId role q
  | user {userId : String} (hname : managedPrincipal role.name = none)
      (h : present ((db.listUsersOfRole role.id).getLast?.map (·.userId)) = some userId) :
      StandsFor db orgId role (.user userId)
  | team {teamId : String} (hname : managedPrincipal role.name = none)
      (huser : present ((db.listUsersOfRole role.id).getLast?.map (·.userId)) = none)
      (h : present ((db.listTeamsOfRole role.id).getLast?.map (·.teamId)) = some teamId) :
      StandsFor db orgId role (.team teamId)
  | role {builtIn : BuiltInRoleName} (hname : managedPrincipal role.name = none)
      (huser : present ((db.listUsersOfRole role.id).getLast?.map (·.userId)) = none)
      (hteam : present ((db.listTeamsOfRole role.id).getLast?.map (·.teamId)) = none)
      (h : (((db.listBuiltinRoles orgId).filter (·.roleId = role.id)).getLast?.bind fun row =>
        builtInRoleName row.role) = some builtIn) :
      StandsFor db orgId role (.role builtIn)

theorem principalFor_iff {role : Role} :
    principalFor db orgId role = some q ↔ StandsFor db orgId role q := by
  unfold principalFor
  constructor
  · intro h
    cases hname : managedPrincipal role.name with
    | some q' =>
      rw [hname, Option.some_or] at h
      exact .managed (hname.trans h)
    | none =>
      rw [hname, Option.none_or, assignedPrincipal] at h
      split at h
      next userId huser =>
        cases h
        exact .user hname huser
      next huser =>
        split at h
        next teamId hteam =>
          cases h
          exact .team hname huser hteam
        next hteam =>
          obtain ⟨builtIn, hrole, rfl⟩ := Option.map_eq_some_iff.mp h
          exact .role hname huser hteam hrole
  · intro h
    cases h with
    | managed h => rw [h, Option.some_or]
    | user hname h => rw [hname, Option.none_or, assignedPrincipal, h]
    | team hname huser h => rw [hname, Option.none_or, assignedPrincipal, huser, h]
    | role hname huser hteam h =>
      rw [hname, Option.none_or, assignedPrincipal, huser, hteam]
      exact congrArg (Option.map _) h

def ShownAt (db : Db) (orgId : String) (q : GrantPrincipal) (scope : String) : Prop :=
  ∃ role, GrantsAt db orgId scope role ∧ StandsFor db orgId role q

def InBuckets (q : GrantPrincipal) (buckets : List PrincipalBucket) : Prop :=
  ∃ b ∈ buckets, b.principal = q

theorem mem_findPermissionsAtScope {row : Permission} {scope : String} :
    row ∈ findPermissionsAtScope db scope ↔
      row ∈ db.permissions ∧ row.scope = scope ∧ row.action ∈ catalogActions := by
  simp only [findPermissionsAtScope, Db.listPermissionsByAction, List.mem_flatMap, List.mem_filter,
    decide_eq_true_eq]
  constructor
  · rintro ⟨action, hin, ⟨hrow, rfl⟩, hscope⟩
    exact ⟨hrow, hscope, hin⟩
  · rintro ⟨hrow, hscope, hin⟩
    exact ⟨row.action, hin, ⟨hrow, rfl⟩, hscope⟩

theorem inBuckets_addToBucket {p : GrantPrincipal} {roleName action : String}
    {inheritedFrom : Option String} {buckets : List PrincipalBucket} :
    InBuckets q (addToBucket p roleName action inheritedFrom buckets) ↔
      InBuckets q buckets ∨ p = q := by
  unfold addToBucket
  split
  next hany =>
    have hsame : InBuckets q (buckets.map fun b =>
        if principalKey b.principal = principalKey p then
          { b with
            actions := addToSet action b.actions
            inheritedFrom := if inheritedFrom.isNone then none else b.inheritedFrom }
        else b) ↔ InBuckets q buckets := by
      simp only [InBuckets, List.mem_map, exists_exists_and_eq_and]
      refine exists_congr fun b => and_congr_right fun _ => ?_
      split <;> rfl
    rw [hsame]
    refine ⟨Or.inl, ?_⟩
    rintro (h | rfl)
    · exact h
    · obtain ⟨b, hb, hkey⟩ := List.any_eq_true.mp hany
      exact ⟨b, hb, principalKey_injective (of_decide_eq_true hkey)⟩
  next hany => simp [InBuckets]

theorem inBuckets_collectInto {scope : String} {inheritedFrom : Option String}
    {buckets : List PrincipalBucket} :
    InBuckets q (collectInto db orgId scope inheritedFrom buckets) ↔
      InBuckets q buckets ∨ ShownAt db orgId q scope := by
  have hrows (rows : List Permission) : ∀ buckets,
      InBuckets q (rows.foldl (fun buckets row =>
        match readableRole db orgId row.roleId with
        | none => buckets
        | some role =>
          match principalFor db orgId role with
          | none => buckets
          | some p => addToBucket p role.name row.action inheritedFrom buckets) buckets) ↔
      InBuckets q buckets ∨ ∃ row ∈ rows, ∃ role,
        readableRole db orgId row.roleId = some role ∧ principalFor db orgId role = some q := by
    induction rows with
    | nil => simp
    | cons row rows ih =>
      intro buckets
      rw [List.foldl_cons, ih, List.exists_mem_cons_iff]
      cases hrole : readableRole db orgId row.roleId with
      | none => simp
      | some role =>
        cases hprincipal : principalFor db orgId role with
        | none => simp [hprincipal]
        | some p => simp [hprincipal, inBuckets_addToBucket, or_assoc]
  rw [collectInto, hrows]
  refine or_congr_right ?_
  constructor
  · rintro ⟨row, hrow, role, hrole, hq⟩
    obtain ⟨hin, hscope, haction⟩ := mem_findPermissionsAtScope.mp hrow
    exact ⟨role, ⟨row, hin, hscope, haction, hrole⟩, principalFor_iff.mp hq⟩
  · rintro ⟨role, ⟨row, hin, hscope, haction, hrole⟩, hq⟩
    exact ⟨row, mem_findPermissionsAtScope.mpr ⟨hin, hscope, haction⟩, role, hrole,
      principalFor_iff.mpr hq⟩

theorem inBuckets_collectFolders {folders : List Folder} : ∀ {buckets : List PrincipalBucket},
    InBuckets q (collectFolders db orgId folders buckets) ↔
      InBuckets q buckets ∨ ∃ scope ∈ folders.map ("folders:uid:" ++ ·.uid),
        ShownAt db orgId q scope := by
  induction folders with
  | nil => simp [collectFolders]
  | cons f folders ih =>
    intro buckets
    rw [collectFolders, List.foldl_cons]
    show InBuckets q (collectFolders db orgId folders _) ↔ _
    rw [ih, inBuckets_collectInto, List.map_cons, List.exists_mem_cons_iff, or_assoc]

def inheritedScopes (db : Db) (orgId : String) (resource : ResourceKind) (uid : String)
    (ctxFolderUid : Option String) : List String :=
  match resource with
  | .folders => (db.listAncestors orgId uid).map ("folders:uid:" ++ ·.uid)
  | .connectors => []
  | .dashboards | .alertRules =>
    match present ctxFolderUid with
    | none => []
    | some folderUid =>
      match db.findFolderByUid orgId folderUid with
      | none => []
      | some _ => Resolvers.folderScopes db orgId folderUid

theorem inBuckets_collectInherited {resource : ResourceKind} {uid : String}
    {ctxFolderUid : Option String} {buckets : List PrincipalBucket} :
    InBuckets q (collectInherited db orgId resource uid ctxFolderUid buckets) ↔
      InBuckets q buckets ∨
        ∃ scope ∈ inheritedScopes db orgId resource uid ctxFolderUid, ShownAt db orgId q scope := by
  have hitems : ∀ folderUid, InBuckets q
      (match db.findFolderByUid orgId folderUid with
        | none => buckets
        | some folder =>
          collectFolders db orgId (db.listAncestors orgId folderUid)
            (collectInto db orgId ("folders:uid:" ++ folderUid) (some folder.uid) buckets)) ↔
      InBuckets q buckets ∨ ∃ scope ∈
        (match db.findFolderByUid orgId folderUid with
          | none => []
          | some _ => Resolvers.folderScopes db orgId folderUid),
        ShownAt db orgId q scope := by
    intro folderUid
    cases db.findFolderByUid orgId folderUid with
    | none => simp
    | some folder =>
      dsimp only
      rw [inBuckets_collectFolders, inBuckets_collectInto, Resolvers.folderScopes,
        List.exists_mem_cons_iff, or_assoc]
  cases resource with
  | folders => exact inBuckets_collectFolders
  | connectors => simp [collectInherited, inheritedScopes]
  | dashboards =>
    unfold collectInherited inheritedScopes
    cases present ctxFolderUid with
    | none => simp
    | some folderUid => exact hitems folderUid
  | alertRules =>
    unfold collectInherited inheritedScopes
    cases present ctxFolderUid with
    | none => simp
    | some folderUid => exact hitems folderUid

theorem isFor_entryOf {resource : ResourceKind} {b : PrincipalBucket} :
    (entryOf db resource b).IsFor q ↔ b.principal = q := by
  unfold entryOf
  cases b.principal <;> cases q <;> simp [ResourcePermissionEntry.IsFor]

theorem entry_iff {resource : ResourceKind} {uid : String} {ctxFolderUid : Option String} :
    (∃ e ∈ list db orgId resource uid ctxFolderUid, e.IsFor q) ↔
      ∃ scope ∈ (resource.text ++ ":uid:" ++ uid) ::
        inheritedScopes db orgId resource uid ctxFolderUid, ShownAt db orgId q scope := by
  simp only [list, List.mem_map, exists_exists_and_eq_and, isFor_entryOf]
  show InBuckets q _ ↔ _
  rw [inBuckets_collectInherited, inBuckets_collectInto, List.exists_mem_cons_iff]
  simp [InBuckets]

/-! ## Who holds a grant -/

def HeldBy (db : Db) (orgId : String) (role : Role) : GrantPrincipal → Prop
  | .user userId => ∃ row ∈ db.userRoles, row.roleId = role.id ∧ row.userId = userId ∧
      (row.orgId = orgId ∨ row.orgId = "")
  | .team teamId => ∃ row ∈ db.teamRoles, row.roleId = role.id ∧ row.teamId = teamId ∧
      (row.orgId = orgId ∨ row.orgId = "")
  | .role builtIn => ⟨builtIn.text, role.id, orgId⟩ ∈ db.builtinRoles

def PrincipalOf (db : Db) (orgId : String) : GrantPrincipal → Prop
  | .user userId => (db.findMembership orgId userId).isSome = true
  | .team teamId => ∃ row ∈ db.teams, row.id = teamId ∧ row.orgId = orgId
  | .role _ => True

def GrantedAt (db : Db) (orgId : String) (q : GrantPrincipal) (scope : String) : Prop :=
  ∃ role, GrantsAt db orgId scope role ∧ HeldBy db orgId role q

def scopesOf (db : Db) (orgId : String) (resource : ResourceKind) (uid : String)
    (ctxFolderUid : Option String) : List String :=
  (resource.text ++ ":uid:" ++ uid) :: inheritedScopes db orgId resource uid ctxFolderUid

/-- Every principal of the org with a direct grant has an entry, and every entry is that of a
principal with a direct grant or an inherited one. -/
structure ListsExactly (db : Db) (orgId : String) (resource : ResourceKind) (uid : String)
    (ctxFolderUid : Option String) : Prop where
  hidesNobody : ∀ q, PrincipalOf db orgId q →
    GrantedAt db orgId q (resource.text ++ ":uid:" ++ uid) →
      ∃ e ∈ list db orgId resource uid ctxFolderUid, e.IsFor q
  showsNobodyElse : ∀ q, (∃ e ∈ list db orgId resource uid ctxFolderUid, e.IsFor q) →
    ∃ scope ∈ scopesOf db orgId resource uid ctxFolderUid, GrantedAt db orgId q scope

end Entries

/-- **When the listing hides nobody.** It is exact exactly when every principal of the org with a
direct grant is the one some role with a grant stands for, and every principal that such a role
stands for holds a grant itself. -/
theorem listsExactly_iff (db : Db) (orgId : String) (resource : ResourceKind) (uid : String)
    (ctxFolderUid : Option String) : ListsExactly db orgId resource uid ctxFolderUid ↔
    (∀ q, PrincipalOf db orgId q → GrantedAt db orgId q (resource.text ++ ":uid:" ++ uid) →
      ∃ scope ∈ scopesOf db orgId resource uid ctxFolderUid, ∃ role,
        GrantsAt db orgId scope role ∧ StandsFor db orgId role q) ∧
    ∀ scope ∈ scopesOf db orgId resource uid ctxFolderUid, ∀ role,
      GrantsAt db orgId scope role → ∀ q, StandsFor db orgId role q →
        ∃ scope' ∈ scopesOf db orgId resource uid ctxFolderUid, GrantedAt db orgId q scope' := by
  constructor
  · intro h
    refine ⟨fun q hof hgrant => entry_iff.mp (h.hidesNobody q hof hgrant), ?_⟩
    intro scope hscope role hgrants q hq
    exact h.showsNobodyElse q (entry_iff.mpr ⟨scope, hscope, role, hgrants, hq⟩)
  · rintro ⟨hshown, hheld⟩
    refine ⟨fun q hof hgrant => entry_iff.mpr (hshown q hof hgrant), fun q hentry => ?_⟩
    obtain ⟨scope, hscope, role, hgrants, hq⟩ := entry_iff.mp hentry
    exact hheld scope hscope role hgrants q hq

def sharedRoleDb : Db :=
  { orgUsers := [⟨"org", "ana", .viewer⟩, ⟨"org", "bo", .viewer⟩]
    roles := [⟨"r", "org", "ops", "custom:ops", 0, {}⟩]
    permissions := [⟨"p", "r", "connectors:query", "connectors:uid:prom"⟩]
    userRoles := [⟨"org", "ana", "r"⟩, ⟨"org", "bo", "r"⟩] }

theorem first_user_hidden :
    ¬ ∀ (db : Db) (orgId : String) (resource : ResourceKind) (uid : String)
      (ctxFolderUid : Option String), ListsExactly db orgId resource uid ctxFolderUid := by
  intro h
  obtain ⟨e, he, hfor⟩ := (h sharedRoleDb "org" .connectors "prom" none).hidesNobody (.user "ana")
    (show (sharedRoleDb.findMembership "org" "ana").isSome = true by decide)
    ⟨⟨"r", "org", "ops", "custom:ops", 0, {}⟩,
      ⟨⟨"p", "r", "connectors:query", "connectors:uid:prom"⟩, by decide, by decide,
        by decide +kernel, by decide⟩,
      ⟨"org", "ana", "r"⟩, by decide, rfl, rfl, Or.inl rfl⟩
  have hall : (ResourcePermissionService.list sharedRoleDb "org" .connectors "prom" none).all
      (fun e => e.userId = some "bo") = true := by decide +kernel
  have hbo := of_decide_eq_true (List.all_eq_true.mp hall e he)
  rw [hfor] at hbo
  exact absurd hbo (by decide)

end OpenObs.Rbac
