import OpenObs.Rbac.Assignments
import OpenObs.Rbac.ResourcePermissions

/-!
# Membership and access

The membership calls of `services/org-service.ts` and `services/team-service.ts`, together with the
calls that give roles to users.
-/

namespace OpenObs.Rbac

open OpenObs.Foundation

/-! ## Memberships of an org -/

def OrgRole.ofText (s : String) : Option OrgRole :=
  if s = "Admin" then some .admin
  else if s = "Editor" then some .editor
  else if s = "Viewer" then some .viewer
  else if s = "None" then some .none
  else none

namespace Db

variable (db : Db)

def findUserByLogin (login : String) : Option User := db.users.find? (·.login = login)

def findUserByEmail (email : String) : Option User := db.users.find? (·.email = email)

def findTeam (id : String) : Option Team := db.teams.find? (·.id = id)

/-- `OrgUserRepository.listOrgsByUser`. -/
def listOrgsByUser (userId : String) : List OrgUser := db.orgUsers.filter (·.userId = userId)

end Db

namespace OrgUserRepository

def create (row : OrgUser) : Prog Db OrgUser :=
  Prog.attempt fun db =>
    if (db.findMembership row.orgId row.userId).isSome then
      (.error "UNIQUE constraint failed: org_user.org_id, org_user.user_id", db)
    else if row.orgId ∉ db.orgs ∨ (db.findUser row.userId).isNone then
      (.error "FOREIGN KEY constraint failed", db)
    else (.ok row, { db with orgUsers := db.orgUsers ++ [row] })

def updateRole (orgId userId : String) (role : OrgRole) : Prog Db (Option OrgUser) := do
  match ← Prog.read (·.findMembership orgId userId) with
  | none => return none
  | some _ =>
    Prog.atomic fun db =>
      let db' := { db with orgUsers := db.orgUsers.map fun m =>
        if m.orgId = orgId ∧ m.userId = userId then { m with role } else m }
      (db'.findMembership orgId userId, db')

def remove (orgId userId : String) : Prog Db Bool := do
  match ← Prog.read (·.findMembership orgId userId) with
  | none => return false
  | some _ => do
      Prog.write fun db => { db with
        orgUsers := db.orgUsers.filter fun m => ¬ (m.orgId = orgId ∧ m.userId = userId) }
      return true

end OrgUserRepository

/-- `UserRepository.update` with a new default org. -/
def UserRepository.setOrg (userId orgId : String) : Prog Db Unit := do
  match ← Prog.read (·.findUser userId) with
  | none => return ()
  | some _ =>
    Prog.attempt fun db =>
      if orgId ∉ db.orgs then (.error "FOREIGN KEY constraint failed", db)
      else (.ok (), { db with users := db.users.map fun u =>
        if u.id = userId then { u with orgId } else u })

namespace OrgService

def parseRole (role : String) : Prog Db OrgRole :=
  match OrgRole.ofText role with
  | some role => return role
  | none => throw "role must be one of: Admin, Editor, Viewer, None"

def findByLoginOrEmail (loginOrEmail : String) : Prog Db (Option User) := do
  match ← Prog.read (·.findUserByLogin loginOrEmail) with
  | some user => return some user
  | none => Prog.read (·.findUserByEmail loginOrEmail)

def addUserByLoginOrEmail (orgId loginOrEmail role : String) : Prog Db OrgUser := do
  let role ← parseRole role
  if ← Prog.read (fun db => decide (orgId ∈ db.orgs)) then
    match ← findByLoginOrEmail loginOrEmail with
    | none => throw "user not found"
    | some user => do
        match ← Prog.read (·.findMembership orgId user.id) with
        | some _ => throw "user is already member of this organization"
        | none => OrgUserRepository.create ⟨orgId, user.id, role⟩
  else throw "organization not found"

def updateUserRole (orgId userId role : String) : Prog Db OrgUser := do
  let role ← parseRole role
  match ← OrgUserRepository.updateRole orgId userId role with
  | none => throw "membership not found"
  | some updated => return updated

/-- The membership goes; a default org that is no longer one of the user's is
replaced. -/
def removeUser (defaultOrgId orgId userId : String) : Prog Db Unit := do
  match ← Prog.read (·.findMembership orgId userId) with
  | none => throw "membership not found"
  | some _ => do
      let _ ← OrgUserRepository.remove orgId userId
      match ← Prog.read (·.findUser userId) with
      | none => return ()
      | some user =>
        if user.orgId = orgId then do
          let remaining ← Prog.read (·.listOrgsByUser userId)
          let fallback := (remaining.head?.map (·.orgId)).getD defaultOrgId
          if fallback ≠ orgId then UserRepository.setOrg userId fallback else return ()
        else return ()

end OrgService

/-! ## Memberships of a team -/

namespace TeamMemberRepository

def create (row : TeamMember) : Prog Db TeamMember :=
  Prog.attempt fun db =>
    if (db.findTeamMembership row.teamId row.userId).isSome then
      (.error "UNIQUE constraint failed: team_member.team_id, team_member.user_id", db)
    else if row.orgId ∉ db.orgs ∨ (db.findTeam row.teamId).isNone ∨
        (db.findUser row.userId).isNone then (.error "FOREIGN KEY constraint failed", db)
    else (.ok row, { db with teamMembers := db.teamMembers ++ [row] })

def updatePermission (teamId userId : String) (permission : ℕ) :
    Prog Db (Option TeamMember) := do
  match ← Prog.read (·.findTeamMembership teamId userId) with
  | none => return none
  | some _ =>
    Prog.atomic fun db =>
      let db' := { db with teamMembers := db.teamMembers.map fun m =>
        if m.teamId = teamId ∧ m.userId = userId then { m with permission } else m }
      (db'.findTeamMembership teamId userId, db')

def remove (teamId userId : String) : Prog Db Bool := do
  match ← Prog.read (·.findTeamMembership teamId userId) with
  | none => return false
  | some _ => do
      Prog.write fun db => { db with
        teamMembers := db.teamMembers.filter fun m => ¬ (m.teamId = teamId ∧ m.userId = userId) }
      return true

end TeamMemberRepository

namespace TeamService

def validPermission (permission : ℕ) : Bool := permission = 0 ∨ permission = 4

def permissionMessage : String := "permission must be 0 (Member) or 4 (Admin)"

def findInOrg (orgId teamId : String) : Prog Db Team := do
  match ← Prog.read (·.findTeam teamId) with
  | none => throw "team not found"
  | some team => if team.orgId = orgId then return team else throw "team not found"

def addMember (orgId teamId userId : String) (permission : ℕ) (external : Bool) :
    Prog Db TeamMember := do
  if validPermission permission then
    let team ← findInOrg orgId teamId
    if team.external ∧ external = false then throw "team is externally managed"
    else
      match ← Prog.read (·.findTeamMembership teamId userId) with
      | some _ => throw "user is already a team member"
      | none => TeamMemberRepository.create ⟨orgId, teamId, userId, external, permission⟩
  else throw permissionMessage

def updateMember (orgId teamId userId : String) (permission : ℕ) : Prog Db TeamMember := do
  if validPermission permission then
    let team ← findInOrg orgId teamId
    if team.external then throw "team is externally managed"
    else
      match ← TeamMemberRepository.updatePermission teamId userId permission with
      | none => throw "membership not found"
      | some updated => return updated
  else throw permissionMessage

def removeMember (orgId teamId userId : String) (external : Bool) : Prog Db Unit := do
  let team ← findInOrg orgId teamId
  if team.external ∧ external = false then throw "team is externally managed"
  else
    match ← Prog.read (·.findTeamMembership teamId userId) with
    | none => throw "membership not found"
    | some existing =>
      if external ∧ existing.external = false then return ()
      else do
        let _ ← TeamMemberRepository.remove teamId userId

end TeamService

/-! ## The calls -/

inductive AccessOp : Type where
  | addUser (orgId loginOrEmail role : String)
  | updateUserRole (orgId userId role : String)
  | removeUser (orgId userId : String)
  | roles (orgId : String) (call : RoleCall)
  | setBulk (uid : ℕ → ℕ → String) (orgId : String) (resource : ResourceKind)
      (resourceUid : String) (items : List SetItem)
  | addMember (orgId teamId userId : String) (permission : ℕ) (external : Bool)
  | updateMember (orgId teamId userId : String) (permission : ℕ)
  | removeMember (orgId teamId userId : String) (external : Bool)

def AccessOp.code (defaultOrgId : String) : AccessOp → Prog Db Unit
  | .addUser orgId loginOrEmail role => do
      let _ ← OrgService.addUserByLoginOrEmail orgId loginOrEmail role
  | .updateUserRole orgId userId role => do
      let _ ← OrgService.updateUserRole orgId userId role
  | .removeUser orgId userId => OrgService.removeUser defaultOrgId orgId userId
  | .roles orgId call => call.code orgId
  | .setBulk uid orgId resource resourceUid items =>
    ResourcePermissionService.setBulk uid orgId resource resourceUid items
  | .addMember orgId teamId userId permission external => do
      let _ ← TeamService.addMember orgId teamId userId permission external
  | .updateMember orgId teamId userId permission => do
      let _ ← TeamService.updateMember orgId teamId userId permission
  | .removeMember orgId teamId userId external =>
    TeamService.removeMember orgId teamId userId external

/-! ## What a call may add -/

def Db.IsMember (db : Db) (orgId userId : String) : Prop :=
  ∃ m ∈ db.orgUsers, m.orgId = orgId ∧ m.userId = userId

instance (db : Db) (orgId userId : String) : Decidable (db.IsMember orgId userId) :=
  inferInstanceAs (Decidable (∃ m ∈ db.orgUsers, m.orgId = orgId ∧ m.userId = userId))

/-- Members stay, and the rows that come are global or of a pair in `New`. -/
structure Grants (New : String → String → Prop) (db db' : Db) : Prop where
  members : ∀ o u, db.IsMember o u → db'.IsMember o u
  userRoles : ∀ r ∈ db'.userRoles, r ∈ db.userRoles ∨ r.orgId = "" ∨ New r.orgId r.userId
  teamMembers : ∀ m ∈ db'.teamMembers,
    (∃ m' ∈ db.teamMembers, m'.orgId = m.orgId ∧ m'.userId = m.userId) ∨ New m.orgId m.userId

namespace Grants

variable {New : String → String → Prop} {db db' db'' : Db}

theorem refl (db : Db) : Grants New db db :=
  ⟨fun _ _ h => h, fun _ h => Or.inl h, fun m h => Or.inl ⟨m, h, rfl, rfl⟩⟩

theorem trans (h : Grants New db db') (h' : Grants New db' db'') : Grants New db db'' := by
  refine ⟨fun o u hm => h'.members o u (h.members o u hm), fun r hr => ?_, fun m hm => ?_⟩
  · rcases h'.userRoles r hr with hr | hnew
    · exact h.userRoles r hr
    · exact Or.inr hnew
  · rcases h'.teamMembers m hm with ⟨m', hm', horg, huser⟩ | hnew
    · rw [← horg, ← huser]
      exact h.teamMembers m' hm'
    · exact Or.inr hnew

theorem of_eq (horg : db'.orgUsers = db.orgUsers) (huser : db'.userRoles = db.userRoles)
    (hteam : db'.teamMembers = db.teamMembers) : Grants New db db' := by
  refine ⟨fun o u h => ?_, fun r h => ?_, fun m h => ?_⟩
  · rw [Db.IsMember, horg]
    exact h
  · rw [huser] at h
    exact Or.inl h
  · rw [hteam] at h
    exact Or.inl ⟨m, h, rfl, rfl⟩

theorem of_edits {D I : Principal → Assignment → Prop} (h : Edits D I db db')
    (hI : ∀ u a, I (.user u) a → a.orgId = "" ∨ New a.orgId u) : Grants New db db' := by
  have horg : db'.orgUsers = db.orgUsers := by rw [h.frame]
  have hteam : db'.teamMembers = db.teamMembers := by rw [h.frame]
  refine ⟨fun o u hm => ?_, fun r hr => ?_, fun m hm => ?_⟩
  · rw [Db.IsMember, horg]
    exact hm
  · rcases h.new (.user r.userId) ⟨r.orgId, r.roleId⟩ hr with hold | hnew
    · exact Or.inl hold
    · exact Or.inr (hI _ _ hnew)
  · rw [hteam] at hm
    exact Or.inl ⟨m, hm, rfl, rfl⟩

/-! ### Sections -/

theorem holds_read {α : Type} {f : Db → α} :
    (Prog.read f).Holds (fun _ _ => True) (Grants New) (fun _ _ => True) db :=
  Prog.holds_read.mpr fun t _ => ⟨refl t, trivial⟩

theorem holds_createAssignment {p : Principal} {a : Assignment}
    (h : ∀ u, p = .user u → a.orgId = "" ∨ New a.orgId u) :
    (createAssignment p a).Holds (fun _ _ => True) (Grants New) (fun _ _ => True) db := by
  refine Prog.holds_attempt.mpr fun t _ => ⟨?_, trivial⟩
  have hedits : Edits (fun _ _ => False) (fun q b => q = p ∧ b = a) t
      ((createAssignment p a).run t).2 := Edits.createAssignment ⟨rfl, rfl⟩
  rw [createAssignment, Prog.run_attempt] at hedits
  refine of_edits hedits ?_
  rintro u b ⟨hp, rfl⟩
  exact h u hp.symm

/-! ### Per-resource grants -/

section Resources

open ResourcePermissionService

theorem holds_delete {id : String} :
    (PermissionRepository.delete id).Holds (fun _ _ => True) (Grants New) (fun _ _ => True) db := by
  refine Prog.Holds.bind_any holds_read fun row t => ?_
  cases row with
  | none => trivial
  | some row =>
    refine Prog.Holds.bind_any ?_ fun _ _ => trivial
    exact Prog.holds_write.mpr fun t _ => ⟨of_eq rfl rfl rfl, trivial⟩

theorem holds_createPermission {row : Permission} :
    (PermissionRepository.create row).Holds (fun _ _ => True) (Grants New) (fun _ _ => True)
      db := by
  refine Prog.holds_attempt.mpr fun t _ => ⟨?_, trivial⟩
  split
  · exact refl t
  · exact of_eq rfl rfl rfl

theorem holds_ensureManagedRole {id orgId : String} {principal : GrantPrincipal} :
    (ensureManagedRole id orgId principal).Holds (fun _ _ => True) (Grants New)
      (fun _ _ => True) db := by
  refine Prog.Holds.bind_any holds_read fun existing t => ?_
  cases existing with
  | some role => trivial
  | none =>
    refine Prog.holds_attempt.mpr fun t _ => ⟨?_, trivial⟩
    split
    · exact refl t
    · split
      · exact refl t
      · exact of_eq rfl rfl rfl

theorem holds_removeUnwanted {rows : List Permission} : ∀ {want : List String} {db : Db},
    (removeUnwanted want rows).Holds (fun _ _ => True) (Grants New) (fun _ _ => True) db := by
  induction rows with
  | nil => exact trivial
  | cons row rows ih =>
    intro want db
    rw [removeUnwanted]
    split
    · exact ih
    · exact Prog.Holds.bind_any holds_delete fun _ _ => ih

theorem holds_addWanted {roleId scope : String} {uid : ℕ → String} {actions : List String} :
    ∀ {db : Db}, (addWanted roleId scope uid actions).Holds (fun _ _ => True) (Grants New)
      (fun _ _ => True) db := by
  induction actions with
  | nil => exact trivial
  | cons action actions ih =>
    exact Prog.Holds.bind_any holds_createPermission fun _ _ => ih

theorem holds_syncActionsForRole {uid : ℕ → String} {roleId scope : String}
    {actions : List String} :
    (syncActionsForRole uid roleId scope actions).Holds (fun _ _ => True) (Grants New)
      (fun _ _ => True) db :=
  Prog.Holds.bind_any holds_read fun _ _ =>
    Prog.Holds.bind_any holds_removeUnwanted fun _ _ => holds_addWanted

theorem holds_ensureAssigned {p : Principal} {orgId roleId : String}
    (h : ∀ u, p = .user u → orgId = "" ∨ New orgId u) :
    (ensureAssigned p orgId roleId).Holds (fun _ _ => True) (Grants New) (fun _ _ => True) db := by
  refine Prog.Holds.bind_any holds_read fun rows t => ?_
  split
  · trivial
  · exact holds_createAssignment h

theorem holds_upsertBuiltinRole {row : BuiltinRole} :
    (RoleRepository.upsertBuiltinRole row).Holds (fun _ _ => True) (Grants New)
      (fun _ _ => True) db := by
  refine Prog.Holds.bind_any holds_read fun found t => ?_
  split
  · trivial
  · refine Prog.holds_attempt.mpr fun t _ => ⟨?_, trivial⟩
    split
    · exact refl t
    · split
      · exact refl t
      · exact of_eq rfl rfl rfl

theorem holds_ensureAssignment {orgId roleId : String} {principal : GrantPrincipal}
    (h : ∀ u, principal = .user u → orgId = "" ∨ New orgId u) :
    (ensureAssignment orgId roleId principal).Holds (fun _ _ => True) (Grants New)
      (fun _ _ => True) db := by
  cases principal with
  | user userId =>
    refine holds_ensureAssigned ?_
    rintro u ⟨⟩
    exact h userId rfl
  | team teamId =>
    refine holds_ensureAssigned ?_
    rintro u ⟨⟩
  | role role =>
    refine Prog.Holds.bind_any holds_read fun found t => ?_
    split
    · trivial
    · exact holds_upsertBuiltinRole

theorem holds_deleteAtScope {scope : String} {rows : List Permission} : ∀ {db : Db},
    (deleteAtScope scope rows).Holds (fun _ _ => True) (Grants New) (fun _ _ => True) db := by
  induction rows with
  | nil => exact trivial
  | cons row rows ih =>
    intro db
    rw [deleteAtScope]
    split
    · exact Prog.Holds.bind_any holds_delete fun _ _ => ih
    · exact ih

theorem holds_removeGrant {orgId scope : String} {principal : GrantPrincipal} :
    (removeGrant orgId principal scope).Holds (fun _ _ => True) (Grants New) (fun _ _ => True)
      db := by
  refine Prog.Holds.bind_any holds_read fun role t => ?_
  cases role with
  | none => trivial
  | some role => exact Prog.Holds.bind_any holds_read fun _ _ => holds_deleteAtScope

theorem holds_setOne {uid : ℕ → String} {orgId : String} {resource : ResourceKind}
    {scope : String} {e : GrantEntry}
    (h : ∀ u level, e = (.user u, some level) → orgId = "" ∨ New orgId u) :
    (setOne uid orgId resource scope e).Holds (fun _ _ => True) (Grants New) (fun _ _ => True)
      db := by
  obtain ⟨principal, level⟩ := e
  cases level with
  | none => exact holds_removeGrant
  | some level =>
    refine Prog.Holds.bind_any holds_ensureManagedRole fun role _ =>
      Prog.Holds.bind_any holds_syncActionsForRole fun _ _ => holds_ensureAssignment ?_
    rintro u rfl
    exact h u level rfl

theorem holds_setEach {uid : ℕ → ℕ → String} {orgId : String} {resource : ResourceKind}
    {scope : String} {es : List GrantEntry}
    (h : ∀ u level, (.user u, some level) ∈ es → orgId = "" ∨ New orgId u) :
    ∀ {db : Db}, (setEach uid orgId resource scope es).Holds (fun _ _ => True) (Grants New)
      (fun _ _ => True) db := by
  induction es with
  | nil => exact trivial
  | cons e es ih =>
    intro db
    refine Prog.Holds.bind_any (holds_setOne ?_) fun _ _ => ih ?_
    · rintro u level rfl
      exact h u level List.mem_cons_self
    · exact fun u level hmem => h u level (List.mem_cons_of_mem e hmem)

end Resources

/-! ### Memberships -/

theorem holds_findInOrg {orgId teamId : String} :
    (TeamService.findInOrg orgId teamId).Holds (fun _ _ => True) (Grants New) (fun _ _ => True)
      db := by
  refine Prog.Holds.bind_any holds_read fun team t => ?_
  cases team with
  | none => trivial
  | some team =>
    show Prog.Holds _ _ _ (if _ then _ else _) _
    split <;> trivial

theorem holds_addMember {orgId teamId userId : String} {permission : ℕ} {external : Bool}
    (h : New orgId userId) :
    (TeamService.addMember orgId teamId userId permission external).Holds (fun _ _ => True)
      (Grants New) (fun _ _ => True) db := by
  rw [TeamService.addMember]
  split
  · refine Prog.Holds.bind_any holds_findInOrg fun team t => ?_
    split
    · trivial
    · refine Prog.Holds.bind_any holds_read fun found t => ?_
      cases found with
      | some row => trivial
      | none =>
        refine Prog.holds_attempt.mpr fun t _ => ⟨?_, trivial⟩
        split
        · exact refl t
        · split
          · exact refl t
          · refine ⟨fun _ _ hm => hm, fun _ hr => Or.inl hr, fun m hm => ?_⟩
            rcases List.mem_append.mp hm with hm | hm
            · exact Or.inl ⟨m, hm, rfl, rfl⟩
            · rw [List.mem_singleton.mp hm]
              exact Or.inr h
  · trivial

theorem holds_updateMember {orgId teamId userId : String} {permission : ℕ} :
    (TeamService.updateMember orgId teamId userId permission).Holds (fun _ _ => True)
      (Grants New) (fun _ _ => True) db := by
  rw [TeamService.updateMember]
  split
  · refine Prog.Holds.bind_any holds_findInOrg fun team t => ?_
    split
    · trivial
    · refine Prog.Holds.bind_any ?_ fun updated t => ?_
      · refine Prog.Holds.bind_any holds_read fun found t => ?_
        cases found with
        | none => trivial
        | some row =>
          refine Prog.holds_atomic.mpr fun t _ => ⟨?_, trivial⟩
          refine ⟨fun _ _ hm => hm, fun _ hr => Or.inl hr, fun m hm => ?_⟩
          obtain ⟨m', hm', rfl⟩ := List.mem_map.mp hm
          refine Or.inl ⟨m', hm', ?_⟩
          split <;> exact ⟨rfl, rfl⟩
      · cases updated <;> trivial
  · trivial

theorem holds_removeMember {orgId teamId userId : String} {external : Bool} :
    (TeamService.removeMember orgId teamId userId external).Holds (fun _ _ => True)
      (Grants New) (fun _ _ => True) db := by
  refine Prog.Holds.bind_any holds_findInOrg fun team t => ?_
  split
  · trivial
  · refine Prog.Holds.bind_any holds_read fun found t => ?_
    cases found with
    | none => trivial
    | some existing =>
      show Prog.Holds _ _ _ (if _ then _ else _) _
      split
      · trivial
      · refine Prog.Holds.bind_any ?_ fun _ _ => trivial
        refine Prog.Holds.bind_any holds_read fun row t => ?_
        cases row with
        | none => trivial
        | some row =>
          refine Prog.Holds.bind_any ?_ fun _ _ => trivial
          refine Prog.holds_write.mpr fun t _ => ⟨?_, trivial⟩
          refine ⟨fun _ _ hm => hm, fun _ hr => Or.inl hr, fun m hm => ?_⟩
          exact Or.inl ⟨m, (List.mem_filter.mp hm).1, rfl, rfl⟩

end Grants

/-! ## Steps of the membership calls -/

/-- Only `org_user` and `users` change: the memberships in `Gone` may go, and no user
comes or goes. -/
structure MembersStep (Gone : String → String → Prop) (db db' : Db) : Prop where
  frame : db' = { db with orgUsers := db'.orgUsers, users := db'.users }
  members : ∀ o u, db.IsMember o u → db'.IsMember o u ∨ Gone o u
  users : ∀ id, (db'.findUser id).isSome = (db.findUser id).isSome

namespace MembersStep

variable {Gone : String → String → Prop} {db db' db'' : Db}

theorem refl (db : Db) : MembersStep Gone db db := ⟨rfl, fun _ _ h => Or.inl h, fun _ => rfl⟩

theorem trans (h : MembersStep Gone db db') (h' : MembersStep Gone db' db'') :
    MembersStep Gone db db'' := by
  refine ⟨?_, fun o u hm => ?_, fun id => (h'.users id).trans (h.users id)⟩
  · rw [h'.frame, h.frame]
  · rcases h.members o u hm with hm | hgone
    · exact h'.members o u hm
    · exact Or.inr hgone

theorem holds_read {α : Type} {f : Db → α} :
    (Prog.read f).Holds (fun _ _ => True) (MembersStep Gone) (fun _ _ => True) db :=
  Prog.holds_read.mpr fun t _ => ⟨refl t, trivial⟩

theorem holds_parseRole {role : String} :
    (OrgService.parseRole role).Holds (fun _ _ => True) (MembersStep Gone) (fun _ _ => True)
      db := by
  rw [OrgService.parseRole]
  split <;> trivial

theorem holds_addUser {orgId loginOrEmail role : String} :
    (OrgService.addUserByLoginOrEmail orgId loginOrEmail role).Holds (fun _ _ => True)
      (MembersStep Gone) (fun _ _ => True) db := by
  refine Prog.Holds.bind_any holds_parseRole fun role t => ?_
  refine Prog.Holds.bind_any holds_read fun found t => ?_
  split
  · refine Prog.Holds.bind_any ?_ fun user t => ?_
    · refine Prog.Holds.bind_any holds_read fun user t => ?_
      cases user with
      | none => exact holds_read
      | some user => trivial
    · cases user with
      | none => trivial
      | some user =>
        refine Prog.Holds.bind_any holds_read fun member t => ?_
        cases member with
        | some row => trivial
        | none =>
          refine Prog.holds_attempt.mpr fun t _ => ⟨?_, trivial⟩
          split
          · exact refl t
          · split
            · exact refl t
            · refine ⟨rfl, ?_, fun _ => rfl⟩
              rintro o u ⟨m, hm, hmem⟩
              exact Or.inl ⟨m, List.mem_append_left _ hm, hmem⟩
  · trivial

theorem holds_updateUserRole {orgId userId role : String} :
    (OrgService.updateUserRole orgId userId role).Holds (fun _ _ => True) (MembersStep Gone)
      (fun _ _ => True) db := by
  refine Prog.Holds.bind_any holds_parseRole fun role t => ?_
  refine Prog.Holds.bind_any ?_ fun updated t => ?_
  · refine Prog.Holds.bind_any holds_read fun found t => ?_
    cases found with
    | none => trivial
    | some row =>
      refine Prog.holds_atomic.mpr fun t _ => ⟨⟨rfl, ?_, fun _ => rfl⟩, trivial⟩
      rintro o u ⟨m, hm, horg, huser⟩
      refine Or.inl ⟨_, List.mem_map_of_mem hm, ?_⟩
      split <;> exact ⟨horg, huser⟩
  · cases updated <;> trivial

theorem holds_setOrg {userId orgId : String} :
    (UserRepository.setOrg userId orgId).Holds (fun _ _ => True) (MembersStep Gone)
      (fun _ _ => True) db := by
  refine Prog.Holds.bind_any holds_read fun user t => ?_
  cases user with
  | none => trivial
  | some user =>
    refine Prog.holds_attempt.mpr fun t _ => ⟨?_, trivial⟩
    split
    · exact refl t
    · refine ⟨rfl, fun _ _ h => Or.inl h, fun id => ?_⟩
      show ((t.users.map _).find? _).isSome = (t.users.find? _).isSome
      rw [List.find?_map, Option.isSome_map]
      refine congrArg (fun q => (List.find? q t.users).isSome) ?_
      funext u
      by_cases h : u.id = userId <;> simp [h]

theorem holds_remove {orgId userId : String} (hgone : Gone orgId userId) :
    (OrgUserRepository.remove orgId userId).Holds (fun _ _ => True) (MembersStep Gone)
      (fun _ _ => True) db := by
  refine Prog.Holds.bind_any holds_read fun row t => ?_
  cases row with
  | none => trivial
  | some row =>
    refine Prog.Holds.bind_any ?_ fun _ _ => trivial
    refine Prog.holds_write.mpr fun t _ => ⟨⟨rfl, ?_, fun _ => rfl⟩, trivial⟩
    rintro o u ⟨m, hm, rfl, rfl⟩
    by_cases heq : m.orgId = orgId ∧ m.userId = userId
    · right
      rw [heq.1, heq.2]
      exact hgone
    · exact Or.inl ⟨m, List.mem_filter.mpr ⟨hm, decide_eq_true heq⟩, rfl, rfl⟩

theorem holds_removeUser {defaultOrgId orgId userId : String} (hgone : Gone orgId userId) :
    (OrgService.removeUser defaultOrgId orgId userId).Holds (fun _ _ => True)
      (MembersStep Gone) (fun _ _ => True) db := by
  refine Prog.Holds.bind_any holds_read fun row t => ?_
  cases row with
  | none => trivial
  | some row =>
    refine Prog.Holds.bind_any (holds_remove hgone) fun _ _ => ?_
    refine Prog.Holds.bind_any holds_read fun user t => ?_
    cases user with
    | none => trivial
    | some user =>
      show Prog.Holds _ _ _ (if _ then _ else _) _
      split
      · refine Prog.Holds.bind_any holds_read fun remaining t => ?_
        show Prog.Holds _ _ _ (if _ then _ else _) _
        split
        · exact holds_setOrg
        · trivial
      · trivial

end MembersStep

/-! ## The rows of an org belong to its members -/

structure Confined (db : Db) : Prop where
  userRoles : ∀ r ∈ db.userRoles, r.orgId ≠ "" → db.IsMember r.orgId r.userId
  teamMembers : ∀ m ∈ db.teamMembers, m.orgId ≠ "" → db.IsMember m.orgId m.userId

theorem Confined.grants {New : String → String → Prop} {db db' : Db} (h : Confined db)
    (hgrants : Grants New db db') (hnew : ∀ o u, New o u → o ≠ "" → db.IsMember o u) :
    Confined db' := by
  refine ⟨fun r hr horg => ?_, fun m hm horg => ?_⟩
  · refine hgrants.members _ _ ?_
    rcases hgrants.userRoles r hr with hold | hglobal | hadded
    · exact h.userRoles r hold horg
    · exact absurd hglobal horg
    · exact hnew _ _ hadded horg
  · refine hgrants.members _ _ ?_
    rcases hgrants.teamMembers m hm with ⟨m', hm', ho, hu⟩ | hadded
    · rw [← ho, ← hu]
      exact h.teamMembers m' hm' (ho ▸ horg)
    · exact hnew _ _ hadded horg

theorem Confined.members {Gone : String → String → Prop} {db db' : Db} (h : Confined db)
    (hstep : MembersStep Gone db db') (hroles : ∀ r ∈ db.userRoles, ¬ Gone r.orgId r.userId)
    (hteams : ∀ m ∈ db.teamMembers, ¬ Gone m.orgId m.userId) : Confined db' := by
  have hroles' : db'.userRoles = db.userRoles := by rw [hstep.frame]
  have hteams' : db'.teamMembers = db.teamMembers := by rw [hstep.frame]
  refine ⟨fun r hr horg => ?_, fun m hm horg => ?_⟩
  · rw [hroles'] at hr
    exact (hstep.members _ _ (h.userRoles r hr horg)).resolve_right (hroles r hr)
  · rw [hteams'] at hm
    exact (hstep.members _ _ (h.teamMembers m hm horg)).resolve_right (hteams m hm)

/-- What the callers have to see to: a member is removed only when nothing of the
org is left with the user, and roles, grants and team memberships of an org are
given to its members only. -/
def AccessOp.Careful : AccessOp → Db → Prop
  | .removeUser orgId userId, db =>
    (∀ r ∈ db.userRoles, ¬ (r.orgId = orgId ∧ r.userId = userId)) ∧
    ∀ m ∈ db.teamMembers, ¬ (m.orgId = orgId ∧ m.userId = userId)
  | .roles orgId call, db =>
    ∀ userId, call.principal = .user userId →
      ∀ a ∈ call.adds orgId db, a.orgId ≠ "" → db.IsMember a.orgId userId
  | .setBulk _ orgId _ _ items, db =>
    ∀ entries, normalizeSetItems [] items = .ok entries →
      ∀ userId level, (.user userId, some level) ∈ entries → orgId ≠ "" →
        db.IsMember orgId userId
  | .addMember orgId _ userId _ _, db => orgId ≠ "" → db.IsMember orgId userId
  | _, _ => True

theorem Confined.next {db : Db} (h : Confined db) {defaultOrgId : String} (op : AccessOp)
    (hok : op.Careful db) : Confined ((op.code defaultOrgId).run db).2 := by
  have hgrants {N : String → String → Prop} {α : Type} {p : Prog Db α}
      (hp : p.Holds (fun _ _ => True) (Grants N) (fun _ _ => True) db)
      (hnew : ∀ o u, N o u → o ≠ "" → db.IsMember o u) : Confined (p.run db).2 :=
    h.grants (Prog.run_related Grants.refl (fun _ _ _ => Grants.trans) hp) hnew
  have hmembers {G : String → String → Prop} {α : Type} {p : Prog Db α}
      (hp : p.Holds (fun _ _ => True) (MembersStep G) (fun _ _ => True) db)
      (hroles : ∀ r ∈ db.userRoles, ¬ G r.orgId r.userId)
      (hteams : ∀ m ∈ db.teamMembers, ¬ G m.orgId m.userId) : Confined (p.run db).2 :=
    h.members (Prog.run_related MembersStep.refl (fun _ _ _ => MembersStep.trans) hp) hroles
      hteams
  cases op with
  | addUser orgId loginOrEmail role =>
    refine hmembers (G := fun _ _ => False) ?_ (fun _ _ hf => hf) (fun _ _ hf => hf)
    exact Prog.Holds.bind_any MembersStep.holds_addUser fun _ _ => trivial
  | updateUserRole orgId userId role =>
    refine hmembers (G := fun _ _ => False) ?_ (fun _ _ hf => hf) (fun _ _ hf => hf)
    exact Prog.Holds.bind_any MembersStep.holds_updateUserRole fun _ _ => trivial
  | removeUser orgId userId =>
    exact hmembers (G := fun o u => o = orgId ∧ u = userId)
      (MembersStep.holds_removeUser ⟨rfl, rfl⟩) hok.1 hok.2
  | roles orgId call =>
    have hedits : Grants (fun o u => o ≠ "" → db.IsMember o u) db
        ((call.code orgId).run db).2 := by
      refine Grants.of_edits (call.edits orgId db) ?_
      rintro u a ⟨hp, hmem⟩
      exact Or.inr (hok u hp.symm a hmem)
    exact h.grants hedits fun _ _ hn => hn
  | setBulk uid orgId resource resourceUid items =>
    refine hgrants (N := fun o u => o ≠ "" → db.IsMember o u) ?_ (fun _ _ hn => hn)
    show Prog.Holds _ _ _ (ResourcePermissionService.setBulk _ _ _ _ _) _
    rw [ResourcePermissionService.setBulk]
    split
    · trivial
    · rename_i entries hentries
      exact Grants.holds_setEach fun u level hmem => Or.inr (hok entries hentries u level hmem)
  | addMember orgId teamId userId permission external =>
    refine hgrants (N := fun o u => o ≠ "" → db.IsMember o u) ?_ (fun _ _ hn => hn)
    exact Prog.Holds.bind_any (Grants.holds_addMember hok) fun _ _ => trivial
  | updateMember orgId teamId userId permission =>
    refine hgrants (N := fun _ _ => False) ?_ (fun _ _ hf => hf.elim)
    exact Prog.Holds.bind_any Grants.holds_updateMember fun _ _ => trivial
  | removeMember orgId teamId userId external =>
    refine hgrants (N := fun _ _ => False) ?_ (fun _ _ hf => hf.elim)
    exact Grants.holds_removeMember

def FromGlobal (db : Db) (userId : String) (rp : ResolvedPermission) : Prop :=
  ∃ r ∈ db.userRoles, r.userId = userId ∧ r.orgId = "" ∧
    ∃ p ∈ db.permissions, p.roleId = r.roleId ∧ rp = ⟨p.action, p.scope⟩

theorem Confined.getUserPermissions {db : Db} (h : Confined db) {identity : Identity}
    (horg : identity.orgId ≠ "") (hrole : identity.orgRole = .none)
    (hadmin : identity.isServerAdmin = false)
    (hnon : ¬ db.IsMember identity.orgId identity.userId) :
    ∀ rp ∈ Rbac.getUserPermissions db identity, FromGlobal db identity.userId rp := by
  intro rp hrp
  obtain ⟨p, hp, hroleId, rfl, -⟩ := mem_getUserPermissions.mp hrp
  rcases (mem_roleIds horg).mp hroleId with hb | ha | ⟨r, hr, huser, hr_org, hid⟩ | hteam
  · exact absurd hrole hb.1
  · rw [FromServerAdmin, hadmin] at ha
    cases ha.1
  · rcases hr_org with hr_org | hglobal
    · refine absurd ?_ hnon
      rw [← hr_org, ← huser]
      exact h.userRoles r hr (hr_org ▸ horg)
    · exact ⟨r, hr, huser, hglobal, p, hp, hid.symm, rfl⟩
  · obtain ⟨m, hm, huser, hmorg, -⟩ := hteam
    refine absurd ?_ hnon
    rw [← hmorg, ← huser]
    exact h.teamMembers m hm (hmorg ▸ horg)

/-- **Removal revokes access, for careful callers.** In every state reached from a
confined one by calls that each met `Careful` in the state it was made in, a user
without a membership of an org who is no server admin resolves in it no permission
but those of roles assigned globally. -/
theorem nonmember_resolves_global_only (defaultOrgId : String) (db₀ : Db) (h₀ : Confined db₀)
    (db : Db) (hrun : Serial (AccessOp.code defaultOrgId) AccessOp.Careful db₀ db)
    (identity : Identity) (horg : identity.orgId ≠ "") (hrole : identity.orgRole = .none)
    (hadmin : identity.isServerAdmin = false)
    (hnon : ¬ db.IsMember identity.orgId identity.userId) :
    ∀ rp ∈ getUserPermissions db identity, FromGlobal db identity.userId rp := by
  have hconfined : Confined db := hrun.invariant h₀ fun op s hs hok => hs.next op hok
  exact hconfined.getUserPermissions horg hrole hadmin hnon

/-! ### A removed member -/

def memberDb : Db :=
  { orgs := ["org"]
    users := [⟨"u", "u", "u@example", "org", false, false, false⟩]
    orgUsers := [⟨"org", "u", .viewer⟩]
    roles := [⟨"r", "org", "dev", "dev", 0, {}⟩]
    permissions := [⟨"p", "r", "dashboards:read", "dashboards:*"⟩] }

def outsider : Identity := ⟨"u", "org", .none, false, none⟩

def carefulCalls : List AccessOp :=
  [.roles "org" ⟨.user "u", .assign "dev"⟩, .roles "org" ⟨.user "u", .unassign "dev"⟩,
    .removeUser "org" "u"]

theorem nonmember_resolves_global_only_careful :
    ¬ (serveAll (AccessOp.code "org") carefulCalls memberDb).IsMember "org" "u" ∧
    ∀ rp ∈ getUserPermissions (serveAll (AccessOp.code "org") carefulCalls memberDb) outsider,
      FromGlobal (serveAll (AccessOp.code "org") carefulCalls memberDb) "u" rp := by
  have hassign : AccessOp.Careful (.roles "org" ⟨.user "u", .assign "dev"⟩) memberDb := by
    rintro userId ⟨⟩
    decide +kernel
  have hunassign {db : Db} : AccessOp.Careful (.roles "org" ⟨.user "u", .unassign "dev"⟩) db :=
    fun _ _ _ ha => nomatch ha
  have hcalls : AllServed (AccessOp.code "org") AccessOp.Careful carefulCalls memberDb :=
    ⟨hassign, hunassign, ⟨by decide +kernel, by decide +kernel⟩, trivial⟩
  have hnon : ¬ (serveAll (AccessOp.code "org") carefulCalls memberDb).IsMember "org" "u" := by
    decide +kernel
  refine ⟨hnon, ?_⟩
  exact nonmember_resolves_global_only "org" memberDb ⟨by decide, by decide⟩ _
    (Serial.of_allServed carefulCalls .init hcalls) outsider (by decide) rfl rfl hnon

/-- **A removed member keeps its roles.** Assigned a role of the org and then removed
from it, the user resolves the permission of the role. -/
theorem removed_member_resolves :
    let db := serveAll (AccessOp.code "org")
      [.roles "org" ⟨.user "u", .assign "dev"⟩, .removeUser "org" "u"] memberDb
    ¬ db.IsMember "org" "u" ∧ (∀ r ∈ db.userRoles, r.orgId ≠ "") ∧
      ⟨"dashboards:read", "dashboards:*"⟩ ∈ getUserPermissions db outsider := by
  decide +kernel

end OpenObs.Rbac
