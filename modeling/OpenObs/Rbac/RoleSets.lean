import OpenObs.Rbac.ManagedRoles
import OpenObs.Rbac.Versions

/-!
# Setting the roles of a user

`setUserRoles` replaces the assignments of a user, and the managed role that carries the grants on
single resources is assigned in the same table. The named roles are what the user has afterwards,
and so the managed role goes unless it is named.
-/

namespace OpenObs.Rbac

open OpenObs.Foundation RoleService

/-! ## The loops -/

section Loops

variable {p : Principal} {orgId : String} {db db' : Db}

theorem run_removeAssignment {a : Assignment} :
    ∃ removed db', (removeAssignment p a).run db = (.ok removed, db') ∧
      ∀ b, db'.Assigned p b ↔ db.Assigned p b ∧ b ≠ a := by
  rw [removeAssignment, Prog.run_atomic]
  by_cases h : db.Assigned p a
  · rw [if_pos h]
    refine ⟨_, _, rfl, fun b => ?_⟩
    rw [Db.assigned_dropAssignment]
    simp
  · rw [if_neg h]
    refine ⟨_, _, rfl, fun b => ⟨fun hb => ⟨hb, ?_⟩, And.left⟩⟩
    rintro rfl
    exact h hb

theorem run_removeEach (as : List Assignment) : ∀ {db : Db},
    ∃ db', (removeEach p as).run db = (.ok (), db') ∧
      ∀ b, db'.Assigned p b ↔ db.Assigned p b ∧ b ∉ as := by
  induction as with
  | nil => exact fun {db} => ⟨db, rfl, by simp⟩
  | cons a as ih =>
    intro db
    obtain ⟨removed, db₁, hrun, hfirst⟩ := run_removeAssignment (p := p) (a := a)
    obtain ⟨db₂, hrest, hthen⟩ := @ih db₁
    refine ⟨db₂, ?_, fun b => ?_⟩
    · rw [removeEach, Prog.run_bind, hrun]
      exact hrest
    · rw [hthen, hfirst, List.mem_cons, not_or, and_assoc]

theorem createEach_ok (as : List Assignment) : ∀ {db db' : Db},
    (createEach p as).run db = (.ok (), db') →
      ∀ b, db'.Assigned p b ↔ db.Assigned p b ∨ b ∈ as := by
  induction as with
  | nil =>
    intro db db' h b
    cases h
    simp
  | cons a as ih =>
    intro db db' h b
    rw [createEach, Prog.run_bind] at h
    rcases hfirst : (createAssignment p a).run db with ⟨_ | _, db₁⟩
    · rw [hfirst] at h
      cases h
    · rw [hfirst] at h
      rw [ih h b, List.mem_cons]
      rw [createAssignment, Prog.run_attempt] at hfirst
      split at hfirst
      · cases hfirst
      · split at hfirst
        · cases hfirst
        · cases hfirst
          rw [Db.assigned_addAssignment]
          simp [or_assoc]

theorem createEach_keeps (as : List Assignment) {b : Assignment} (h : db.Assigned p b) :
    ((createEach p as).run db).2.Assigned p b := by
  have hedits : Edits (fun _ _ => False) (fun _ a => a ∈ as) db ((createEach p as).run db).2 :=
    Edits.createEach fun _ ha => ha
  exact (hedits.gone p b h).resolve_right id

theorem createEach_new (as : List Assignment) {b : Assignment}
    (h : ((createEach p as).run db).2.Assigned p b) : db.Assigned p b ∨ b ∈ as := by
  have hedits : Edits (fun _ _ => False) (fun _ a => a ∈ as) db ((createEach p as).run db).2 :=
    Edits.createEach fun _ ha => ha
  exact hedits.new p b h

end Loops

/-! ## The roles that are named -/

section Named

variable {orgId : String} {db : Db}

def Db.Named (db : Db) (orgId : String) (roleUids : List String) (roleId : String) : Prop :=
  ∃ uid ∈ roleUids, ∃ role, db.findRole orgId uid = some role ∧ role.id = roleId

theorem named_cons {uid : String} {uids : List String} {roleId : String} :
    db.Named orgId (uid :: uids) roleId ↔
      (∃ role, db.findRole orgId uid = some role ∧ role.id = roleId) ∨
        db.Named orgId uids roleId := by
  simp only [Db.Named, List.mem_cons, or_and_right, exists_or, exists_eq_left]

theorem roleId_setEntry {desired : List Assignment} {a : Assignment} {roleId : String} :
    roleId ∈ (setEntry desired a).map (·.roleId) ↔
      roleId ∈ desired.map (·.roleId) ∨ roleId = a.roleId := by
  unfold setEntry
  split
  next hin =>
    have hsame : (desired.map fun d => if d.roleId = a.roleId then a else d).map (·.roleId) =
        desired.map (·.roleId) := by
      rw [List.map_map]
      refine List.map_congr_left fun d _ => ?_
      show (if d.roleId = a.roleId then a else d).roleId = d.roleId
      split
      next h => exact h.symm
      · rfl
    rw [hsame]
    refine ⟨Or.inl, ?_⟩
    rintro (h | rfl)
    · exact h
    · exact hin
  · simp

theorem roleId_desired {roleUids : List String} : ∀ {acc desired : List Assignment},
    db.desired orgId acc roleUids = .ok desired → ∀ roleId,
      roleId ∈ desired.map (·.roleId) ↔
        roleId ∈ acc.map (·.roleId) ∨ db.Named orgId roleUids roleId := by
  induction roleUids with
  | nil =>
    intro acc desired h roleId
    cases h
    simp [Db.Named]
  | cons uid uids ih =>
    intro acc desired h roleId
    rw [Db.desired] at h
    cases hrole : db.findRole orgId uid with
    | none =>
      rw [hrole] at h
      cases h
    | some role =>
      rw [hrole] at h
      have hid : (assignedIn orgId role).roleId = role.id := rfl
      rw [ih h roleId, roleId_setEntry, hid, or_assoc, named_cons, hrole]
      simp only [Option.some.injEq, exists_eq_left', eq_comm]

theorem desired_error {roleUids : List String} : ∀ {acc : List Assignment},
    (∃ e, db.desired orgId acc roleUids = .error e) ↔
      ∃ uid ∈ roleUids, db.findRole orgId uid = none := by
  induction roleUids with
  | nil => simp [Db.desired]
  | cons uid uids ih =>
    intro acc
    rw [Db.desired]
    cases hrole : db.findRole orgId uid with
    | none => simp [hrole]
    | some role => simp [hrole, ih]

theorem readable_desired {roleUids : List String} {desired : List Assignment}
    (h : db.desired orgId [] roleUids = .ok desired) :
    ∀ a ∈ desired, Db.readableIn orgId a.orgId = true := by
  intro a ha
  have hof := ofOrg_desired (fun b hb => absurd hb List.not_mem_nil) h a ha
  simp only [Db.readableIn, decide_eq_true_eq]
  exact Or.inr hof

theorem mem_listAssignments {p : Principal} {a : Assignment} : a ∈ db.listAssignments orgId p ↔
    db.Assigned p a ∧ Db.readableIn orgId a.orgId = true := by
  obtain ⟨o, r⟩ := a
  cases p with
  | user id =>
    simp only [Db.listAssignments, Db.listUserRoles, Db.Assigned, List.mem_map, List.mem_filter,
      decide_eq_true_eq, Assignment.mk.injEq]
    constructor
    · rintro ⟨row, ⟨hrow, rfl, hread⟩, rfl, rfl⟩
      exact ⟨hrow, hread⟩
    · rintro ⟨hrow, hread⟩
      exact ⟨_, ⟨hrow, rfl, hread⟩, rfl, rfl⟩
  | team id =>
    simp only [Db.listAssignments, Db.listTeamRoles, Db.Assigned, List.mem_map, List.mem_filter,
      decide_eq_true_eq, Assignment.mk.injEq]
    constructor
    · rintro ⟨row, ⟨hrow, rfl, hread⟩, rfl, rfl⟩
      exact ⟨hrow, hread⟩
    · rintro ⟨hrow, hread⟩
      exact ⟨_, ⟨hrow, rfl, hread⟩, rfl, rfl⟩

end Named

/-! ## What a call leaves -/

def Db.HasRoleIn (db : Db) (orgId : String) (p : Principal) (roleId : String) : Prop :=
  ∃ o, Db.readableIn orgId o = true ∧ db.Assigned p ⟨o, roleId⟩

/-- The permissions granted through the managed role of the user stay: the role and its rows, and
its assignment. -/
structure KeepsGrants (orgId userId : String) (db db' : Db) : Prop where
  roles : db'.roles = db.roles
  permissions : db'.permissions = db.permissions
  assigned : ∀ role, db.managedRole orgId (.user userId) = some role →
    db.HasRoleIn orgId (.user userId) role.id → db'.HasRoleIn orgId (.user userId) role.id

def IsManaged (role : Role) : Prop := Text.startsWith role.name "managed:" = true

/-- A call that succeeds leaves the named ones of the custom and fixed roles, and every call the
grants on single resources. -/
structure SetsRoles (orgId userId : String) (roleUids : List String) (db : Db)
    (done : Except String Unit × Db) : Prop where
  named : done.1 = .ok () → ∀ role ∈ db.roles, ¬ IsManaged role →
    (done.2.HasRoleIn orgId (.user userId) role.id ↔ db.Named orgId roleUids role.id)
  grants : KeepsGrants orgId userId db done.2

section Calls

variable {p : Principal} {orgId : String} {db : Db} {roleUids : List String}

theorem run_setRoles_error {e : String} (h : db.desired orgId [] roleUids = .error e) :
    (setRoles p orgId roleUids).run db = (.error e, db) := by
  rw [setRoles, Prog.run_bind, Prog.run_read]
  show Prog.run (_ >>= _) db = _
  rw [Prog.run_bind, run_collectDesired, h]

theorem run_setRoles_ok {desired : List Assignment}
    (h : db.desired orgId [] roleUids = .ok desired) :
    ∃ db₁, (∀ b, db₁.Assigned p b ↔
        db.Assigned p b ∧ b ∉ dropped (db.listAssignments orgId p) desired) ∧
      (setRoles p orgId roleUids).run db =
        (createEach p (gained (db.listAssignments orgId p) desired)).run db₁ := by
  obtain ⟨db₁, hrun, hassigned⟩ :=
    run_removeEach (p := p) (dropped (db.listAssignments orgId p) desired)
  refine ⟨db₁, hassigned, ?_⟩
  rw [setRoles, Prog.run_bind, Prog.run_read]
  show Prog.run (_ >>= _) db = _
  rw [Prog.run_bind, run_collectDesired, h]
  show Prog.run (_ >>= _) db = _
  rw [Prog.run_bind, hrun]

theorem mem_dropped {current desired : List Assignment} {a : Assignment} :
    a ∈ dropped current desired ↔ a ∈ current ∧ a.roleId ∉ desired.map (·.roleId) := by
  rw [dropped, List.mem_filter, decide_eq_true_eq]

theorem mem_gained {current desired : List Assignment} {a : Assignment} :
    a ∈ gained current desired ↔ a ∈ desired ∧ a.roleId ∉ current.map (·.roleId) := by
  rw [gained, List.mem_filter, decide_eq_true_eq]

theorem named_of_hasRoleIn {desired : List Assignment} {roleId : String}
    (h : db.desired orgId [] roleUids = .ok desired)
    (hhas : ((setRoles p orgId roleUids).run db).2.HasRoleIn orgId p roleId) :
    db.Named orgId roleUids roleId := by
  obtain ⟨db₁, hassigned, hrun⟩ := run_setRoles_ok (p := p) h
  obtain ⟨o, hread, hrow⟩ := hhas
  have hin : roleId ∈ desired.map (·.roleId) := by
    rw [hrun] at hrow
    rcases createEach_new _ hrow with hrow | hrow
    · obtain ⟨hrow, hkept⟩ := (hassigned _).mp hrow
      by_contra hnot
      exact hkept (mem_dropped.mpr ⟨mem_listAssignments.mpr ⟨hrow, hread⟩, hnot⟩)
    · exact List.mem_map.mpr ⟨_, (mem_gained.mp hrow).1, rfl⟩
  exact ((roleId_desired h roleId).mp hin).resolve_left (by simp)

theorem hasRoleIn_of_kept {desired : List Assignment} {roleId : String}
    (h : db.desired orgId [] roleUids = .ok desired) (hnamed : db.Named orgId roleUids roleId)
    (hhad : db.HasRoleIn orgId p roleId) :
    ((setRoles p orgId roleUids).run db).2.HasRoleIn orgId p roleId := by
  obtain ⟨db₁, hassigned, hrun⟩ := run_setRoles_ok (p := p) h
  obtain ⟨o, hread, hrow⟩ := hhad
  have hin := (roleId_desired h roleId).mpr (Or.inr hnamed)
  rw [hrun]
  refine ⟨o, hread, createEach_keeps _ ((hassigned _).mpr ⟨hrow, fun hdropped => ?_⟩)⟩
  exact (mem_dropped.mp hdropped).2 hin

theorem hasRoleIn_of_named {desired : List Assignment} {roleId : String}
    (h : db.desired orgId [] roleUids = .ok desired) (hnamed : db.Named orgId roleUids roleId)
    (hok : ((setRoles p orgId roleUids).run db).1 = .ok ()) :
    ((setRoles p orgId roleUids).run db).2.HasRoleIn orgId p roleId := by
  by_cases hhad : roleId ∈ (db.listAssignments orgId p).map (·.roleId)
  · obtain ⟨⟨o, _⟩, ha, rfl⟩ := List.mem_map.mp hhad
    obtain ⟨hrow, hread⟩ := mem_listAssignments.mp ha
    exact hasRoleIn_of_kept h hnamed ⟨o, hread, hrow⟩
  · obtain ⟨db₁, -, hrun⟩ := run_setRoles_ok (p := p) h
    obtain ⟨⟨o, _⟩, ha, rfl⟩ := List.mem_map.mp ((roleId_desired h roleId).mpr (Or.inr hnamed))
    rw [hrun] at hok ⊢
    refine ⟨o, readable_desired h _ ha, ?_⟩
    exact (createEach_ok _ (Prod.fst_eq_iff.mp hok) _).mpr (Or.inr (mem_gained.mpr ⟨ha, hhad⟩))

end Calls

/-- **When setting roles leaves the grants alone.** A call keeps the grants on single resources
exactly when it is refused, the managed role of the user is not assigned, or it is named. -/
theorem setsRoles_iff (db : Db) (orgId userId : String) (roleUids : List String) :
    SetsRoles orgId userId roleUids db ((setUserRoles orgId userId roleUids).run db) ↔
      (∃ uid ∈ roleUids, db.findRole orgId uid = none) ∨
        ∀ role, db.managedRole orgId (.user userId) = some role →
          db.HasRoleIn orgId (.user userId) role.id → db.Named orgId roleUids role.id := by
  rw [setUserRoles]
  cases hdesired : db.desired orgId [] roleUids with
  | error e =>
    rw [run_setRoles_error hdesired]
    refine ⟨fun _ => Or.inl (desired_error.mp ⟨e, hdesired⟩), fun _ => ?_⟩
    exact ⟨fun h => (nomatch h), ⟨rfl, rfl, fun _ _ h => h⟩⟩
  | ok desired =>
    have hknown : ¬ ∃ uid ∈ roleUids, db.findRole orgId uid = none := by
      rw [← @desired_error orgId db roleUids [], hdesired]
      rintro ⟨e, he⟩
      cases he
    rw [or_iff_right hknown]
    refine ⟨fun h role hrole hhad => ?_, fun h => ⟨fun hok role _ _ => ?_, ?_⟩⟩
    · exact named_of_hasRoleIn hdesired (h.grants.assigned role hrole hhad)
    · exact ⟨named_of_hasRoleIn hdesired, fun hnamed => hasRoleIn_of_named hdesired hnamed hok⟩
    · have hframe := (RoleCall.edits ⟨.user userId, .set roleUids⟩ orgId db).frame
      refine ⟨?_, ?_, fun role hrole hhad => ?_⟩
      · exact (congrArg Db.roles hframe).trans rfl
      · exact (congrArg Db.permissions hframe).trans rfl
      · exact hasRoleIn_of_kept hdesired (h role hrole hhad) hhad

def grantedDb : Db :=
  { users := [⟨"u", "ana", "ana@x", "org", false, false, false⟩]
    roles :=
      [⟨"m", "org", "managed_user_u", managedRoleNameFor (.user "u"), 0, {}⟩,
        ⟨"c", "org", "oncall", "custom:oncall", 0, {}⟩]
    permissions := [⟨"p", "m", "dashboards:read", "dashboards:uid:cpu"⟩]
    userRoles := [⟨"org", "u", "m"⟩] }

theorem grants_dropped :
    ¬ ∀ (db : Db) (orgId userId : String) (roleUids : List String),
      SetsRoles orgId userId roleUids db ((setUserRoles orgId userId roleUids).run db) := by
  intro h
  obtain ⟨o, -, hrow⟩ := (h grantedDb "org" "u" ["oncall"]).grants.assigned
    ⟨"m", "org", "managed_user_u", managedRoleNameFor (.user "u"), 0, {}⟩ (by decide +kernel)
    ⟨"org", by decide, by decide⟩
  have hrows : ((setUserRoles "org" "u" ["oncall"]).run grantedDb).2.userRoles =
      [⟨"org", "u", "c"⟩] := by decide +kernel
  have hin : (⟨o, "u", "m"⟩ : UserRole) ∈ [(⟨"org", "u", "c"⟩ : UserRole)] := hrows ▸ hrow
  simp at hin

end OpenObs.Rbac

/-!
# A refused update of a role

`updateRole` stores the metadata, with a new version, before the permissions of the request are
checked. Only a request whose list fails that check leaves something behind.
-/

namespace OpenObs.Rbac

open OpenObs.Foundation RoleService

def LeavesNothing {α : Type} (p : Prog Db α) (db : Db) : Prop :=
  ∀ e, (p.run db).1 = .error e →
    (p.run db).2.roles = db.roles ∧ (p.run db).2.permissions = db.permissions

section Updates

variable {call : UpdateCall} {db : Db} {role patched : Role}

theorem run_code : call.code.run db = (checkUpdate call.uid call.input (call.target db)).run db := by
  rw [UpdateCall.code, updateRole, Prog.run_bind, run_findAcrossScopes]
  rfl

theorem run_applyUpdate (htarget : call.target db = some role) :
    ∃ details patched, (applyUpdate call.uid call.input role.id).run db =
      (replacePermissions call.uid call.input role.id patched).run
        (db.updateRole role.id details) := by
  obtain ⟨existing, hfind⟩ := Option.isSome_iff_exists.mp (Db.hasRole_of_findRole htarget)
  let details := call.input.patch.apply existing.details
  obtain ⟨patched, hpatched⟩ := Option.isSome_iff_exists.mp
    (Db.hasRole_updateRole.mpr (Db.hasRole_of_findRole htarget) :
      (db.updateRole role.id details).HasRole role.id)
  refine ⟨details, patched, ?_⟩
  have hupdate : (RoleRepository.update role.id call.input.patch).run db =
      (.ok (some patched), db.updateRole role.id details) := by
    rw [RoleRepository.update, Prog.run_bind, Prog.run_read, hfind]
    show (Except.ok ((db.updateRole role.id details).findRoleById role.id), _) = _
    rw [hpatched]
  rw [applyUpdate, Prog.run_bind, hupdate]

theorem updateRole_ne (hrole : db.HasRole role.id) (details : RoleDetails) :
    (db.updateRole role.id details).roles ≠ db.roles := by
  intro heq
  obtain ⟨r, hr, hid⟩ := Db.hasRole_iff.mp hrole
  have hmap : db.roles.map (Db.bumped role.id details) = db.roles.map id := by
    rw [List.map_id]
    exact heq
  have hsame := List.map_inj_left.mp hmap r hr
  rw [Db.bumped, if_pos hid] at hsame
  exact absurd (congrArg Role.version hsame) (Nat.succ_ne_self r.version)

theorem replacePermissions_ok (haccepts : call.accepts = true) (hrole : db.HasRole role.id) :
    ∃ r, ((replacePermissions call.uid call.input role.id patched).run db).1 = .ok r := by
  rw [UpdateCall.accepts] at haccepts
  rw [replacePermissions]
  cases hperms : call.input.permissions with
  | none => exact ⟨_, rfl⟩
  | some perms =>
    rw [hperms] at haccepts
    cases hvalid : validatePermissions perms with
    | error e =>
      simp only [hvalid] at haccepts
      exact absurd haccepts Bool.false_ne_true
    | ok u =>
      have hrows : ∀ row ∈ rowsFor role.id call.uid perms, Db.HasRole { db with
          permissions := db.permissions.filter (·.roleId ≠ role.id) } row.roleId := by
        intro row hrow
        rw [roleId_rowsFor row hrow]
        exact hrole
      simp only [hvalid, PermissionRepository.deleteByRole, Prog.run_bind, Prog.run_atomic,
        run_createMany hrows, Prog.run_pure]
      exact ⟨_, rfl⟩

theorem replacePermissions_error (haccepts : call.accepts = false) :
    ∃ e, (replacePermissions call.uid call.input role.id patched).run db = (.error e, db) := by
  rw [UpdateCall.accepts] at haccepts
  rw [replacePermissions]
  cases hperms : call.input.permissions with
  | none =>
    rw [hperms] at haccepts
    exact absurd haccepts.symm Bool.false_ne_true
  | some perms =>
    rw [hperms] at haccepts
    cases hvalid : validatePermissions perms with
    | error e => exact ⟨e, by simp only [hvalid]; rfl⟩
    | ok u =>
      simp only [hvalid] at haccepts
      exact absurd haccepts.symm Bool.false_ne_true

end Updates

/-- **When a refused update leaves nothing.** A call that throws leaves the roles and their
permissions as they were exactly when its role is not found, protected or of another version, or
its permissions are accepted. -/
theorem leavesNothing_iff (call : UpdateCall) (db : Db) : LeavesNothing call.code db ↔
    ∀ role, call.target db = some role → call.Matches role → call.accepts = true := by
  rw [LeavesNothing, run_code]
  cases htarget : call.target db with
  | none => exact ⟨fun _ _ h => (nomatch h), fun _ _ _ => ⟨rfl, rfl⟩⟩
  | some role =>
    by_cases hmatch : call.Matches role
    · rw [checkUpdate_of_matches hmatch]
      obtain ⟨details, patched, hrun⟩ := run_applyUpdate htarget
      rw [hrun]
      refine ⟨fun h role' hrole' _ => ?_, fun h e he => ?_⟩
      · by_contra hrefused
        obtain ⟨e, he⟩ := @replacePermissions_error call (db.updateRole role.id details) role
          patched (Bool.eq_false_iff.mpr hrefused)
        have hkept := h e (by rw [he])
        rw [he] at hkept
        exact updateRole_ne (Db.hasRole_of_findRole htarget) details hkept.1
      · obtain ⟨r, hr⟩ := @replacePermissions_ok call _ role patched (h role rfl hmatch)
          (Db.hasRole_updateRole.mpr (Db.hasRole_of_findRole htarget))
        rw [hr] at he
        cases he
    · obtain ⟨e, he⟩ := checkUpdate_of_not_matches hmatch
      rw [he]
      exact ⟨fun _ role' hrole' hmatch' => absurd (Option.some.inj hrole' ▸ hmatch') hmatch,
        fun _ _ _ => ⟨rfl, rfl⟩⟩

/-- The version is the next one, and the permissions are the old ones. -/
theorem refused_update_stored :
    ¬ ∀ (call : UpdateCall) (db : Db), LeavesNothing call.code db := by
  intro h
  have hkept := h updateToBlank updateDb "action is required" (by decide +kernel)
  exact absurd (congrArg (fun roles => roles.map (·.version)) hkept.1) (by decide +kernel)

end OpenObs.Rbac
