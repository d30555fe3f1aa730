import OpenObs.Rbac.RoleService

/-!
# What an assignment call changes

Every assignment call of the role service edits the two assignment tables and nothing else.
`RoleCall.adds` and `RoleCall.drops` say which rows it may insert and delete, from the state it is
made in: rows of the caller's org and global ones.
-/

namespace OpenObs.Rbac

open OpenObs.Foundation RoleService

/-! ## Edits of the assignment tables -/

theorem Db.assigned_addAssignment {db : Db} {p q : Principal} {a b : Assignment} :
    (db.addAssignment a p).Assigned q b ↔ db.Assigned q b ∨ (q = p ∧ b = a) := by
  obtain ⟨o, r⟩ := a
  obtain ⟨o', r'⟩ := b
  cases p with
  | user id =>
    cases q with
    | user id' =>
      simp only [addAssignment, Assigned, List.mem_append, List.mem_singleton,
        UserRole.mk.injEq, Principal.user.injEq, Assignment.mk.injEq]
      tauto
    | team id' => simp [addAssignment, Assigned]
  | team id =>
    cases q with
    | user id' => simp [addAssignment, Assigned]
    | team id' =>
      simp only [addAssignment, Assigned, List.mem_append, List.mem_singleton,
        TeamRole.mk.injEq, Principal.team.injEq, Assignment.mk.injEq]
      tauto

theorem Db.assigned_dropAssignment {db : Db} {p q : Principal} {a b : Assignment} :
    (db.dropAssignment a p).Assigned q b ↔ db.Assigned q b ∧ ¬ (q = p ∧ b = a) := by
  obtain ⟨o, r⟩ := a
  obtain ⟨o', r'⟩ := b
  cases p with
  | user id =>
    cases q with
    | user id' =>
      simp only [dropAssignment, Assigned, List.mem_filter, decide_eq_true_eq, ne_eq,
        UserRole.mk.injEq, Principal.user.injEq, Assignment.mk.injEq]
      tauto
    | team id' => simp [dropAssignment, Assigned]
  | team id =>
    cases q with
    | user id' => simp [dropAssignment, Assigned]
    | team id' =>
      simp only [dropAssignment, Assigned, List.mem_filter, decide_eq_true_eq, ne_eq,
        TeamRole.mk.injEq, Principal.team.injEq, Assignment.mk.injEq]
      tauto

/-- Only assignments change: those in `D` may go, those in `I` may come. -/
structure Edits (D I : Principal → Assignment → Prop) (db db' : Db) : Prop where
  frame : db' = { db with userRoles := db'.userRoles, teamRoles := db'.teamRoles }
  gone : ∀ p a, db.Assigned p a → db'.Assigned p a ∨ D p a
  new : ∀ p a, db'.Assigned p a → db.Assigned p a ∨ I p a

namespace Edits

variable {D I : Principal → Assignment → Prop} {db db' db'' : Db}

theorem refl (db : Db) : Edits D I db db :=
  ⟨rfl, fun _ _ h => Or.inl h, fun _ _ h => Or.inl h⟩

theorem trans (h : Edits D I db db') (h' : Edits D I db' db'') : Edits D I db db'' := by
  refine ⟨?_, fun p a ha => ?_, fun p a ha => ?_⟩
  · rw [h'.frame, h.frame]
  · rcases h.gone p a ha with ha | hD
    · exact h'.gone p a ha
    · exact Or.inr hD
  · rcases h'.new p a ha with ha | hI
    · exact h.new p a ha
    · exact Or.inr hI

theorem same (h : Edits D I db db') {p : Principal} {a : Assignment} (hD : ¬ D p a)
    (hI : ¬ I p a) : db'.Assigned p a ↔ db.Assigned p a :=
  ⟨fun ha => (h.new p a ha).resolve_right hI, fun ha => (h.gone p a ha).resolve_right hD⟩

theorem add {p : Principal} {a : Assignment} (hI : I p a) :
    Edits D I db (db.addAssignment a p) := by
  refine ⟨by cases p <;> rfl, fun q b hb => ?_, fun q b hb => ?_⟩
  · exact Or.inl (Db.assigned_addAssignment.mpr (Or.inl hb))
  · rcases Db.assigned_addAssignment.mp hb with hb | ⟨rfl, rfl⟩
    · exact Or.inl hb
    · exact Or.inr hI

theorem drop {p : Principal} {a : Assignment} (hD : D p a) :
    Edits D I db (db.dropAssignment a p) := by
  refine ⟨by cases p <;> rfl, fun q b hb => ?_, fun q b hb => ?_⟩
  · by_cases hqb : q = p ∧ b = a
    · obtain ⟨rfl, rfl⟩ := hqb
      exact Or.inr hD
    · exact Or.inl (Db.assigned_dropAssignment.mpr ⟨hb, hqb⟩)
  · exact Or.inl (Db.assigned_dropAssignment.mp hb).1

/-! ### The statements of the service -/

theorem createAssignment {p : Principal} {a : Assignment} (hI : I p a) :
    Edits D I db ((Rbac.createAssignment p a).run db).2 := by
  rw [Rbac.createAssignment, Prog.run_attempt]
  split
  · exact refl db
  · split
    · exact refl db
    · exact add hI

theorem removeAssignment {p : Principal} {a : Assignment} (hD : D p a) :
    Edits D I db ((Rbac.removeAssignment p a).run db).2 := by
  rw [Rbac.removeAssignment, Prog.run_atomic]
  show Edits D I db (if _ then _ else _ : Bool × Db).2
  split
  · exact drop hD
  · exact refl db

theorem removeEach {p : Principal} {as : List Assignment} (hD : ∀ a ∈ as, D p a) :
    Edits D I db ((RoleService.removeEach p as).run db).2 := by
  induction as generalizing db with
  | nil => exact refl db
  | cons a as ih =>
    have hfirst : Edits D I db ((Rbac.removeAssignment p a).run db).2 :=
      removeAssignment (hD a List.mem_cons_self)
    rw [RoleService.removeEach, Prog.run_bind]
    exact hfirst.trans (ih fun b hb => hD b (List.mem_cons_of_mem a hb))

theorem createEach {p : Principal} {as : List Assignment} (hI : ∀ a ∈ as, I p a) :
    Edits D I db ((RoleService.createEach p as).run db).2 := by
  induction as generalizing db with
  | nil => exact refl db
  | cons a as ih =>
    have hfirst : Edits D I db ((Rbac.createAssignment p a).run db).2 :=
      createAssignment (hI a List.mem_cons_self)
    rw [RoleService.createEach, Prog.run_bind]
    split
    · rename_i db' hrun
      rw [hrun] at hfirst
      exact hfirst.trans (ih fun b hb => hI b (List.mem_cons_of_mem a hb))
    · rename_i e db' hrun
      rw [hrun] at hfirst
      exact hfirst

end Edits

/-! ## The calls -/

inductive RoleOp : Type where
  | assign (roleUid : String)
  | unassign (roleUid : String)
  | set (roleUids : List String)

structure RoleCall where
  principal : Principal
  op : RoleOp

namespace RoleCall

def code (orgId : String) : RoleCall → Prog Db Unit
  | ⟨.user userId, .assign roleUid⟩ => assignRoleToUser orgId userId roleUid
  | ⟨.user userId, .unassign roleUid⟩ => do
      let _ ← unassignRoleFromUser orgId userId roleUid
  | ⟨.user userId, .set roleUids⟩ => setUserRoles orgId userId roleUids
  | ⟨.team teamId, .assign roleUid⟩ => assignRoleToTeam orgId teamId roleUid
  | ⟨.team teamId, .unassign roleUid⟩ => do
      let _ ← unassignRoleFromTeam orgId teamId roleUid
  | ⟨.team teamId, .set roleUids⟩ => setTeamRoles orgId teamId roleUids

end RoleCall

/-- What `findAcrossScopes` finds in one state. -/
def Db.findRole (db : Db) (orgId roleUid : String) : Option Role :=
  (db.findRoleByUid orgId roleUid).or (db.findRoleByUid "" roleUid)

/-- What `collectDesired` collects in one state. -/
def Db.desired (db : Db) (orgId : String) (desired : List Assignment) :
    List String → Except String (List Assignment)
  | [] => .ok desired
  | uid :: uids =>
    match db.findRole orgId uid with
    | none => .error ("role " ++ uid ++ " not found")
    | some role => db.desired orgId (setEntry desired (assignedIn orgId role)) uids

theorem run_findAcrossScopes {orgId roleUid : String} {db : Db} :
    (findAcrossScopes orgId roleUid).run db = (.ok (db.findRole orgId roleUid), db) := by
  rw [findAcrossScopes, Prog.run_bind, Prog.run_read, Db.findRole]
  cases db.findRoleByUid orgId roleUid <;> rfl

theorem run_collectDesired {orgId : String} {db : Db} {roleUids : List String} :
    ∀ {desired : List Assignment},
      (collectDesired orgId desired roleUids).run db =
        (db.desired orgId desired roleUids, db) := by
  induction roleUids with
  | nil => exact rfl
  | cons uid uids ih =>
    intro desired
    rw [collectDesired, Prog.run_bind, run_findAcrossScopes, Db.desired]
    cases db.findRole orgId uid with
    | none => rfl
    | some role => exact ih

namespace RoleCall

def adds (c : RoleCall) (orgId : String) (db : Db) : List Assignment :=
  match c.op with
  | .assign roleUid =>
    match db.findRole orgId roleUid with
    | none => []
    | some role =>
      if (db.listAssignments orgId c.principal).any (·.roleId = role.id) then []
      else [assignedIn orgId role]
  | .unassign _ => []
  | .set roleUids =>
    match db.desired orgId [] roleUids with
    | .error _ => []
    | .ok desired => gained (db.listAssignments orgId c.principal) desired

def drops (c : RoleCall) (orgId : String) (db : Db) : List Assignment :=
  match c.op with
  | .assign _ => []
  | .unassign roleUid =>
    match db.findRole orgId roleUid with
    | none => []
    | some role =>
      if db.Assigned c.principal (assignedIn orgId role) then [assignedIn orgId role] else []
  | .set roleUids =>
    match db.desired orgId [] roleUids with
    | .error _ => []
    | .ok desired => dropped (db.listAssignments orgId c.principal) desired

def Dropped (c : RoleCall) (orgId : String) (db : Db) (p : Principal) (a : Assignment) : Prop :=
  p = c.principal ∧ a ∈ c.drops orgId db

def Added (c : RoleCall) (orgId : String) (db : Db) (p : Principal) (a : Assignment) : Prop :=
  p = c.principal ∧ a ∈ c.adds orgId db

end RoleCall

/-! ### One lemma for each operation -/

section Operations

variable {p : Principal} {orgId : String} {db : Db}

theorem edits_assignRole {roleUid : String} :
    Edits (RoleCall.Dropped ⟨p, .assign roleUid⟩ orgId db)
      (RoleCall.Added ⟨p, .assign roleUid⟩ orgId db) db
      ((assignRole p orgId roleUid).run db).2 := by
  rw [assignRole, Prog.run_bind, run_findAcrossScopes]
  cases hrole : db.findRole orgId roleUid with
  | none => exact Edits.refl db
  | some role =>
    show Edits _ _ db (Prog.run (_ >>= _) db).2
    rw [Prog.run_bind, Prog.run_read]
    show Edits _ _ db (Prog.run (if _ then _ else _) db).2
    split
    · exact Edits.refl db
    · rename_i hany
      refine Edits.createAssignment ⟨rfl, ?_⟩
      simp [RoleCall.adds, hrole, hany]

theorem edits_unassignRole {roleUid : String} :
    Edits (RoleCall.Dropped ⟨p, .unassign roleUid⟩ orgId db)
      (RoleCall.Added ⟨p, .unassign roleUid⟩ orgId db) db
      ((unassignRole p orgId roleUid).run db).2 := by
  rw [unassignRole, Prog.run_bind, run_findAcrossScopes]
  cases hrole : db.findRole orgId roleUid with
  | none => exact Edits.refl db
  | some role =>
    show Edits _ _ db ((removeAssignment p (assignedIn orgId role)).run db).2
    by_cases hin : db.Assigned p (assignedIn orgId role)
    · refine Edits.removeAssignment ⟨rfl, ?_⟩
      simp [RoleCall.drops, hrole, hin]
    · rw [removeAssignment, Prog.run_atomic, if_neg hin]
      exact Edits.refl db

theorem edits_setRoles {roleUids : List String} :
    Edits (RoleCall.Dropped ⟨p, .set roleUids⟩ orgId db)
      (RoleCall.Added ⟨p, .set roleUids⟩ orgId db) db
      ((setRoles p orgId roleUids).run db).2 := by
  rw [setRoles, Prog.run_bind, Prog.run_read]
  show Edits _ _ db (Prog.run (_ >>= _) db).2
  rw [Prog.run_bind, run_collectDesired]
  cases hdesired : db.desired orgId [] roleUids with
  | error e => exact Edits.refl db
  | ok desired =>
    have hremove : Edits (RoleCall.Dropped ⟨p, .set roleUids⟩ orgId db)
        (RoleCall.Added ⟨p, .set roleUids⟩ orgId db) db
        ((removeEach p (dropped (db.listAssignments orgId p) desired)).run db).2 := by
      refine Edits.removeEach fun a ha => ⟨rfl, ?_⟩
      simpa [RoleCall.drops, hdesired] using ha
    show Edits _ _ db (Prog.run (_ >>= _) db).2
    rw [Prog.run_bind]
    split
    · rename_i u db' hrun
      rw [hrun] at hremove
      refine hremove.trans (Edits.createEach fun a ha => ⟨rfl, ?_⟩)
      simpa [RoleCall.adds, hdesired] using ha
    · rename_i e db' hrun
      rw [hrun] at hremove
      exact hremove

end Operations

/-- **What a call changes.** -/
theorem RoleCall.edits (c : RoleCall) (orgId : String) (db : Db) :
    Edits (c.Dropped orgId db) (c.Added orgId db) db ((c.code orgId).run db).2 := by
  have hdiscard {q : Prog Db Bool} : ((do let _ ← q : Prog Db Unit).run db).2 = (q.run db).2 := by
    rw [Prog.run_bind]
    split
    · rename_i hrun
      rw [hrun]
      rfl
    · rename_i hrun
      rw [hrun]
  obtain ⟨p, op⟩ := c
  cases op with
  | assign roleUid =>
    cases p <;> exact edits_assignRole
  | unassign roleUid =>
    cases p with
    | user userId =>
      have h : Edits _ _ db ((unassignRole (.user userId) orgId roleUid).run db).2 :=
        edits_unassignRole
      rw [← hdiscard] at h
      exact h
    | team teamId =>
      have h : Edits _ _ db ((unassignRole (.team teamId) orgId roleUid).run db).2 :=
        edits_unassignRole
      rw [← hdiscard] at h
      exact h
  | set roleUids =>
    cases p <;> exact edits_setRoles

/-! ## Orgs of the edited rows -/

def OfOrg (orgId : String) (a : Assignment) : Prop := a.orgId = orgId ∨ a.orgId = ""

theorem ofOrg_assignedIn {orgId : String} {role : Role} :
    OfOrg orgId (assignedIn orgId role) := by
  by_cases h : role.orgId = ""
  · exact Or.inr (by simp [assignedIn, h])
  · exact Or.inl (by simp [assignedIn, h])

theorem ofOrg_desired {orgId : String} {db : Db} {roleUids : List String} :
    ∀ {acc desired : List Assignment}, (∀ a ∈ acc, OfOrg orgId a) →
      db.desired orgId acc roleUids = .ok desired → ∀ a ∈ desired, OfOrg orgId a := by
  induction roleUids with
  | nil =>
    intro acc desired hacc h
    cases h
    exact hacc
  | cons uid uids ih =>
    intro acc desired hacc h
    rw [Db.desired] at h
    split at h
    · cases h
    · rename_i role hrole
      refine ih ?_ h
      intro a ha
      rw [setEntry] at ha
      split at ha
      · obtain ⟨d, hd, rfl⟩ := List.mem_map.mp ha
        split
        · exact ofOrg_assignedIn
        · exact hacc d hd
      · rcases List.mem_append.mp ha with ha | ha
        · exact hacc a ha
        · rw [List.mem_singleton.mp ha]
          exact ofOrg_assignedIn

theorem ofOrg_listAssignments {orgId : String} (horg : orgId ≠ "") {db : Db} {p : Principal} :
    ∀ a ∈ db.listAssignments orgId p, OfOrg orgId a := by
  intro a ha
  cases p with
  | user id =>
    obtain ⟨r, hr, rfl⟩ := List.mem_map.mp ha
    have hread := (of_decide_eq_true (List.mem_filter.mp hr).2).2
    exact (Db.readableIn_iff horg).mp hread
  | team id =>
    obtain ⟨r, hr, rfl⟩ := List.mem_map.mp ha
    have hread := (of_decide_eq_true (List.mem_filter.mp hr).2).2
    exact (Db.readableIn_iff horg).mp hread

theorem RoleCall.ofOrg_adds {c : RoleCall} {orgId : String} {db : Db} :
    ∀ a ∈ c.adds orgId db, OfOrg orgId a := by
  intro a ha
  obtain ⟨p, op⟩ := c
  cases op with
  | assign roleUid =>
    simp only [adds] at ha
    split at ha
    · cases ha
    · split at ha
      · cases ha
      · rw [List.mem_singleton.mp ha]
        exact ofOrg_assignedIn
  | unassign roleUid => cases ha
  | set roleUids =>
    simp only [adds] at ha
    split at ha
    · cases ha
    · rename_i desired hdesired
      exact ofOrg_desired (fun b hb => absurd hb List.not_mem_nil) hdesired a
        (List.mem_filter.mp ha).1

theorem RoleCall.ofOrg_drops {c : RoleCall} {orgId : String} (horg : orgId ≠ "") {db : Db} :
    ∀ a ∈ c.drops orgId db, OfOrg orgId a := by
  intro a ha
  obtain ⟨p, op⟩ := c
  cases op with
  | assign roleUid => cases ha
  | unassign roleUid =>
    simp only [drops] at ha
    split at ha
    · cases ha
    · split at ha
      · rw [List.mem_singleton.mp ha]
        exact ofOrg_assignedIn
      · cases ha
  | set roleUids =>
    simp only [drops] at ha
    split at ha
    · cases ha
    · exact ofOrg_listAssignments horg a (List.mem_filter.mp ha).1

/-! ## What an identity sees -/

/-- The principals whose assignments an identity resolves: the user and the
teams it is a member of in the org. -/
def Db.Concerns (db : Db) (identity : Identity) : Principal → Prop
  | .user id => id = identity.userId
  | .team id => ∃ m ∈ db.teamMembers, m.userId = identity.userId ∧
      m.orgId = identity.orgId ∧ m.teamId = id

theorem fromAssignment_iff {db : Db} {identity : Identity} {roleId : String} :
    FromAssignment db identity roleId ↔
      ∃ a, db.Assigned (.user identity.userId) a ∧ OfOrg identity.orgId a ∧
        a.roleId = roleId := by
  constructor
  · rintro ⟨r, hr, huser, horg, hid⟩
    refine ⟨⟨r.orgId, r.roleId⟩, ?_, horg, hid⟩
    rw [← huser]
    exact hr
  · rintro ⟨a, ha, horg, hid⟩
    exact ⟨_, ha, rfl, horg, hid⟩

theorem fromTeam_iff {db : Db} {identity : Identity} {roleId : String} :
    FromTeam db identity roleId ↔
      ∃ id a, db.Concerns identity (.team id) ∧ db.Assigned (.team id) a ∧
        OfOrg identity.orgId a ∧ a.roleId = roleId := by
  constructor
  · rintro ⟨m, hm, huser, hmorg, r, hr, hteam, horg, hid⟩
    refine ⟨r.teamId, ⟨r.orgId, r.roleId⟩, ⟨m, hm, huser, hmorg, hteam.symm⟩, ?_, horg, hid⟩
    exact hr
  · rintro ⟨id, a, ⟨m, hm, huser, hmorg, hteam⟩, ha, horg, hid⟩
    exact ⟨m, hm, huser, hmorg, _, ha, hteam.symm, horg, hid⟩

theorem getUserPermissions_congr {db db' : Db} {identity : Identity}
    (hperms : db'.permissions = db.permissions)
    (hroles : ∀ id, id ∈ roleIds db' identity ↔ id ∈ roleIds db identity) :
    getUserPermissions db' identity = getUserPermissions db identity := by
  have hfilter : db'.permissions.filter (·.roleId ∈ roleIds db' identity) =
      db.permissions.filter (·.roleId ∈ roleIds db identity) := by
    rw [hperms]
    refine List.filter_congr fun p _ => ?_
    rw [decide_eq_decide]
    exact hroles p.roleId
  rw [getUserPermissions, getUserPermissions, Db.listPermissionsByRoles,
    Db.listPermissionsByRoles, hfilter]

theorem Edits.getUserPermissions {D I : Principal → Assignment → Prop} {db db' : Db}
    (h : Edits D I db db') {identity : Identity} (horg : identity.orgId ≠ "")
    (hout : ∀ p a, db.Concerns identity p → OfOrg identity.orgId a → ¬ D p a ∧ ¬ I p a) :
    Rbac.getUserPermissions db' identity = Rbac.getUserPermissions db identity := by
  have hbuiltin : db'.builtinRoles = db.builtinRoles := by rw [h.frame]
  have hmembers : db'.teamMembers = db.teamMembers := by rw [h.frame]
  have hconcerns (p : Principal) : db'.Concerns identity p ↔ db.Concerns identity p := by
    cases p with
    | user id => exact Iff.rfl
    | team id => rw [Db.Concerns, Db.Concerns, hmembers]
  have hsame {p : Principal} {a : Assignment} (hp : db.Concerns identity p)
      (ha : OfOrg identity.orgId a) : db'.Assigned p a ↔ db.Assigned p a :=
    h.same (hout p a hp ha).1 (hout p a hp ha).2
  refine getUserPermissions_congr (by rw [h.frame]) fun id => ?_
  have hfrom : FromAssignment db' identity id ↔ FromAssignment db identity id := by
    have huser : db.Concerns identity (.user identity.userId) := rfl
    rw [fromAssignment_iff, fromAssignment_iff]
    refine exists_congr fun a => ?_
    constructor
    · exact fun ⟨ha, ho, hid⟩ => ⟨(hsame huser ho).mp ha, ho, hid⟩
    · exact fun ⟨ha, ho, hid⟩ => ⟨(hsame huser ho).mpr ha, ho, hid⟩
  have hteam : FromTeam db' identity id ↔ FromTeam db identity id := by
    rw [fromTeam_iff, fromTeam_iff]
    refine exists_congr fun team => exists_congr fun a => ?_
    rw [hconcerns]
    constructor
    · exact fun ⟨hc, ha, ho, hid⟩ => ⟨hc, (hsame hc ho).mp ha, ho, hid⟩
    · exact fun ⟨hc, ha, ho, hid⟩ => ⟨hc, (hsame hc ho).mpr ha, ho, hid⟩
  rw [mem_roleIds horg, mem_roleIds horg, hfrom, hteam, FromBuiltin, FromBuiltin,
    FromServerAdmin, FromServerAdmin, hbuiltin]

/-! ## Sequences of calls -/

def RoleCall.Unseen (orgId : String) (identity : Identity) (c : RoleCall) (db : Db) : Prop :=
  db.Concerns identity c.principal →
    ∀ a ∈ c.adds orgId db ++ c.drops orgId db, a.orgId ≠ ""

theorem RoleCall.getUserPermissions {c : RoleCall} {orgId : String} (horg : orgId ≠ "")
    {db : Db} {identity : Identity} (hid : identity.orgId ≠ "") (hne : identity.orgId ≠ orgId)
    (hunseen : c.Unseen orgId identity db) :
    Rbac.getUserPermissions ((c.code orgId).run db).2 identity =
      Rbac.getUserPermissions db identity := by
  refine (c.edits orgId db).getUserPermissions hid ?_
  -- a readable row the call edits is of its org and of the identity's, or global
  have hrow {a : Assignment} (hc : db.Concerns identity c.principal)
      (ha : OfOrg identity.orgId a) (hin : OfOrg orgId a) :
      a ∉ c.adds orgId db ++ c.drops orgId db := by
    intro hmem
    have hglobal := hunseen hc a hmem
    have h₁ : a.orgId = identity.orgId := ha.resolve_right hglobal
    have h₂ : a.orgId = orgId := hin.resolve_right hglobal
    exact hne (h₁.symm.trans h₂)
  rintro p a hc ha
  refine ⟨?_, ?_⟩
  · rintro ⟨rfl, hmem⟩
    exact hrow hc ha (ofOrg_drops horg a hmem) (List.mem_append_right _ hmem)
  · rintro ⟨rfl, hmem⟩
    exact hrow hc ha (ofOrg_adds a hmem) (List.mem_append_left _ hmem)

theorem assigned_serveAll {orgId : String} (horg : orgId ≠ "") (calls : List RoleCall)
    {p : Principal} {a : Assignment} (ha : ¬ OfOrg orgId a) :
    ∀ {db : Db}, (serveAll (RoleCall.code orgId) calls db).Assigned p a ↔ db.Assigned p a := by
  induction calls with
  | nil => exact Iff.rfl
  | cons c calls ih =>
    intro db
    rw [serveAll, ih]
    refine (c.edits orgId db).same ?_ ?_
    · rintro ⟨-, hmem⟩
      exact ha (RoleCall.ofOrg_drops horg a hmem)
    · rintro ⟨-, hmem⟩
      exact ha (RoleCall.ofOrg_adds a hmem)

/-- **Assignments made in an org stay in it, global ones apart.** For two orgs, a
sequence of calls made in the first never changes a row of any org but the first
and the global ones; and an identity of the second resolves the same permissions
afterwards unless a call adds or drops a global row of its user or of a team of
its. -/
theorem assignments_stay_in_org (orgA orgB : String) (hA : orgA ≠ "") (hB : orgB ≠ "")
    (hne : orgA ≠ orgB) (calls : List RoleCall) (db : Db) :
    (∀ p a, a.orgId ≠ orgA → a.orgId ≠ "" →
      ((serveAll (RoleCall.code orgA) calls db).Assigned p a ↔ db.Assigned p a)) ∧
    ∀ identity : Identity, identity.orgId = orgB →
      AllServed (RoleCall.code orgA) (RoleCall.Unseen orgA identity) calls db →
      getUserPermissions (serveAll (RoleCall.code orgA) calls db) identity =
        getUserPermissions db identity := by
  refine ⟨fun p a h h' => assigned_serveAll hA calls (not_or.mpr ⟨h, h'⟩), ?_⟩
  rintro identity rfl hunseen
  induction calls generalizing db with
  | nil => rfl
  | cons c calls ih =>
    rw [serveAll, ih _ hunseen.2]
    exact RoleCall.getUserPermissions hA hB (Ne.symm hne) hunseen.1

/-! ### A global role -/

def globalRoleDb : Db :=
  { orgs := ["a", "b"]
    users := [⟨"u", "u", "u@example", "a", false, false, false⟩]
    orgUsers := [⟨"a", "u", .viewer⟩, ⟨"b", "u", .viewer⟩]
    roles := [⟨"r-global", "", "ops", "ops", 0, {}⟩, ⟨"r-local", "a", "dev", "dev", 0, {}⟩]
    permissions := [⟨"p1", "r-global", "ops.commands:run", "ops.commands:*"⟩,
      ⟨"p2", "r-local", "dashboards:read", "dashboards:*"⟩] }

def globalRoleIdentity : Identity := ⟨"u", "b", .viewer, false, none⟩

theorem assignments_stay_in_org_local_role :
    getUserPermissions (serveAll (RoleCall.code "a") [⟨.user "u", .assign "dev"⟩] globalRoleDb)
        globalRoleIdentity =
      getUserPermissions globalRoleDb globalRoleIdentity :=
  (assignments_stay_in_org "a" "b" (by decide) (by decide) (by decide)
    [⟨.user "u", .assign "dev"⟩] globalRoleDb).2 globalRoleIdentity rfl
    ⟨fun _ => by decide, trivial⟩

/-- The call in `a` gives the user a permission in `b`. -/
theorem global_assignment_leaves_org :
    getUserPermissions globalRoleDb globalRoleIdentity = [] ∧
    getUserPermissions (serveAll (RoleCall.code "a") [⟨.user "u", .assign "ops"⟩] globalRoleDb)
        globalRoleIdentity = [⟨"ops.commands:run", "ops.commands:*"⟩] := by
  decide +kernel

end OpenObs.Rbac
