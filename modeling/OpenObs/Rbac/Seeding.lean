import OpenObs.Foundation.Parts
import OpenObs.Foundation.Distinct
import OpenObs.Rbac.ResourcePermissions
import OpenObs.Rbac.RoleCatalog

/-!
# Seeding of the roles

`seed/rbac-seed.ts`: the catalog is brought into the tables for an org. A call inserts what it
does not find and never deletes; a role whose name is taken in its org stops the call, and
what the call inserted before stays. The ids are drawn by the call.
-/

namespace OpenObs.Rbac

open OpenObs.Foundation

namespace Seeding

structure SeedRbacResult where
  rolesInserted : ℕ := 0
  permissionsInserted : ℕ := 0
  builtinMappingsInserted : ℕ := 0
deriving DecidableEq

instance : Add SeedRbacResult :=
  ⟨fun a b => ⟨a.rolesInserted + b.rolesInserted, a.permissionsInserted + b.permissionsInserted,
    a.builtinMappingsInserted + b.builtinMappingsInserted⟩⟩

/-- What a round of one of the loops brings in: a role of an org, its permissions and, for a
basic role, the built-in role it is bound to. -/
structure SeedRole where
  orgId : String
  uid : String
  name : String
  details : RoleDetails
  permissions : List ResolvedPermission
  mapping : Option String

structure Draw where
  role : String
  permission : ℕ → String

/-- `findByUid`, and `create` where no row is found. -/
def ensureRole (id : String) (s : SeedRole) : Prog Db (String × ℕ) := do
  match ← Prog.read (·.findRoleByUid s.orgId s.uid) with
  | some existing => return (existing.id, 0)
  | none => do
      let row ← RoleRepository.create ⟨id, s.orgId, s.uid, s.name, 0, s.details⟩
      return (row.id, 1)

/-- The loop of `syncPermissions`: the set of keys is not updated in it. -/
def insertMissing (ids : ℕ → String) (roleId : String) (keys : List String) :
    ℕ → List ResolvedPermission → Prog Db ℕ
  | _, [] => pure 0
  | i, p :: desired =>
    if permissionKey p.action p.scope ∈ keys then
      insertMissing ids roleId keys (i + 1) desired
    else do
      let _ ← PermissionRepository.create ⟨ids i, roleId, p.action, p.scope⟩
      let inserted ← insertMissing ids roleId keys (i + 1) desired
      return inserted + 1

def syncPermissions (ids : ℕ → String) (roleId : String) (desired : List ResolvedPermission) :
    Prog Db ℕ := do
  let existing ← Prog.read (·.listPermissionsByRole roleId)
  insertMissing ids roleId (existing.map fun p => permissionKey p.action p.scope) 0 desired

/-- `findBuiltinRole` and `upsertBuiltinRole`. -/
def bindBuiltin (row : BuiltinRole) : Prog Db ℕ := do
  let before ← RoleRepository.hasBuiltinRole row
  RoleRepository.upsertBuiltinRole row
  return if before then 0 else 1

def seedRole (draw : Draw) (s : SeedRole) : Prog Db SeedRbacResult := do
  let (roleId, rolesInserted) ← ensureRole draw.role s
  let permissionsInserted ← syncPermissions draw.permission roleId s.permissions
  match s.mapping with
  | none => return ⟨rolesInserted, permissionsInserted, 0⟩
  | some role => do
      let builtinMappingsInserted ← bindBuiltin ⟨role, roleId, s.orgId⟩
      return ⟨rolesInserted, permissionsInserted, builtinMappingsInserted⟩

def seedRoles (draws : ℕ → Draw) : ℕ → List SeedRole → Prog Db SeedRbacResult
  | _, [] => pure {}
  | i, s :: rest => do
      let first ← seedRole (draws i) s
      let others ← seedRoles draws (i + 1) rest
      return first + others

def ofFixed (d : FixedRoleDefinition) : SeedRole :=
  { orgId := "", uid := d.uid, name := d.name
    details := ⟨some d.displayName, some d.description, some d.groupName, d.hidden⟩
    permissions := d.permissions, mapping := none }

def ofBasic (orgId mapping : String) (d : BasicRoleDefinition) : SeedRole :=
  { orgId, uid := d.uid, name := d.name
    details := ⟨some d.displayName, some d.description, some "Basic", false⟩
    permissions := resolveBasicRolePermissions d.name, mapping := some mapping }

def findBasic (name : String) : Option BasicRoleDefinition :=
  basicRoleDefinitions.find? (·.name = name)

def orgRoles (orgId : String) : List SeedRole :=
  (basicRoleDefinitions.filter (!·.global)).map fun d => ofBasic orgId d.builtinMappingRole d

def seedRbacForOrg (orgId : String) (draws : ℕ → Draw) : Prog Db SeedRbacResult :=
  if orgId = "" then throw "seedRbacForOrg: orgId must be non-empty (use a real org id)"
  else do
    let fixed ← seedRoles draws 0 (fixedRoleDefinitions.map ofFixed)
    match findBasic "basic:server_admin" with
    | none => throw "[rbac-seed] missing basic role definition: basic:server_admin"
    | some serverAdminDef => do
        let server ← seedRoles draws fixedRoleDefinitions.length
          [ofBasic "" "Server Admin" serverAdminDef]
        let basic ← seedRoles draws (fixedRoleDefinitions.length + 1) (orgRoles orgId)
        return fixed + server + basic

/-! ## Rows that are added -/

structure Added (orgs : String → Prop) (db db' : Db) : Prop where
  roles : ∃ rows, db'.roles = db.roles ++ rows ∧ ∀ r ∈ rows, orgs r.orgId
  permissions : ∃ rows, db'.permissions = db.permissions ++ rows ∧
    ∀ p ∈ rows, ∃ r ∈ db'.roles, r.id = p.roleId ∧ orgs r.orgId
  builtinRoles : ∃ rows, db'.builtinRoles = db.builtinRoles ++ rows ∧ ∀ b ∈ rows, orgs b.orgId
  tables : db' = { db with
    roles := db'.roles, permissions := db'.permissions, builtinRoles := db'.builtinRoles }

namespace Added

variable {orgs orgs' : String → Prop} {db db' db'' : Db}

theorem refl (db : Db) : Added orgs db db where
  roles := ⟨[], (List.append_nil _).symm, nofun⟩
  permissions := ⟨[], (List.append_nil _).symm, nofun⟩
  builtinRoles := ⟨[], (List.append_nil _).symm, nofun⟩
  tables := rfl

theorem mem_roles (h : Added orgs db db') {r : Role} (hr : r ∈ db.roles) : r ∈ db'.roles := by
  obtain ⟨rows, heq, -⟩ := h.roles
  rw [heq]
  exact List.mem_append_left _ hr

theorem trans (h : Added orgs db db') (h' : Added orgs db' db'') : Added orgs db db'' := by
  obtain ⟨roles, hroles, horgs⟩ := h.roles
  obtain ⟨roles', hroles', horgs'⟩ := h'.roles
  obtain ⟨perms, hperms, hpermOrgs⟩ := h.permissions
  obtain ⟨perms', hperms', hpermOrgs'⟩ := h'.permissions
  obtain ⟨rows, hrows, hrowOrgs⟩ := h.builtinRoles
  obtain ⟨rows', hrows', hrowOrgs'⟩ := h'.builtinRoles
  refine ⟨⟨roles ++ roles', by rw [hroles', hroles, List.append_assoc], fun r hr => ?_⟩,
    ⟨perms ++ perms', by rw [hperms', hperms, List.append_assoc], fun p hp => ?_⟩,
    ⟨rows ++ rows', by rw [hrows', hrows, List.append_assoc], fun b hb => ?_⟩, ?_⟩
  · exact (List.mem_append.mp hr).elim (horgs r) (horgs' r)
  · rcases List.mem_append.mp hp with hp | hp
    · obtain ⟨r, hr, hid, horg⟩ := hpermOrgs p hp
      exact ⟨r, h'.mem_roles hr, hid, horg⟩
    · exact hpermOrgs' p hp
  · exact (List.mem_append.mp hb).elim (hrowOrgs b) (hrowOrgs' b)
  · rw [h'.tables, h.tables]

theorem mono (h : Added orgs db db') (himp : ∀ o, orgs o → orgs' o) : Added orgs' db db' := by
  obtain ⟨roles, hroles, horgs⟩ := h.roles
  obtain ⟨perms, hperms, hpermOrgs⟩ := h.permissions
  obtain ⟨rows, hrows, hrowOrgs⟩ := h.builtinRoles
  refine ⟨⟨roles, hroles, fun r hr => himp _ (horgs r hr)⟩, ⟨perms, hperms, fun p hp => ?_⟩,
    ⟨rows, hrows, fun b hb => himp _ (hrowOrgs b hb)⟩, h.tables⟩
  obtain ⟨r, hr, hid, horg⟩ := hpermOrgs p hp
  exact ⟨r, hr, hid, himp _ horg⟩

theorem findRoleByUid (h : Added orgs db db') {orgId uid : String} {r : Role}
    (hr : db.findRoleByUid orgId uid = some r) : db'.findRoleByUid orgId uid = some r := by
  obtain ⟨rows, heq, -⟩ := h.roles
  rw [Db.findRoleByUid, heq, List.find?_append, ← Db.findRoleByUid, hr]
  rfl

theorem findRoleByUid_none (h : Added orgs db db') {orgId uid : String} (horg : ¬ orgs orgId)
    (hr : db.findRoleByUid orgId uid = none) : db'.findRoleByUid orgId uid = none := by
  obtain ⟨rows, heq, horgs⟩ := h.roles
  rw [Db.findRoleByUid, heq, List.find?_append, ← Db.findRoleByUid, hr, Option.none_or]
  refine List.find?_eq_none.mpr fun r hr' hfound => ?_
  exact horg ((of_decide_eq_true hfound).1 ▸ horgs r hr')

theorem findRoleByName (h : Added orgs db db') {orgId name : String}
    (hr : (db.findRoleByName orgId name).isSome) :
    (db'.findRoleByName orgId name).isSome := by
  obtain ⟨rows, heq, -⟩ := h.roles
  rw [Db.findRoleByName, heq, List.find?_append, ← Db.findRoleByName, Option.isSome_or, hr]
  rfl

end Added

/-! ## What a round finds -/

def Held (db : Db) (roleId : String) (p : ResolvedPermission) : Prop :=
  ∃ row ∈ db.permissions, row.roleId = roleId ∧
    permissionKey row.action row.scope = permissionKey p.action p.scope

def Done (s : SeedRole) (db : Db) : Prop :=
  ∃ r, db.findRoleByUid s.orgId s.uid = some r ∧ (∀ p ∈ s.permissions, Held db r.id p) ∧
    ∀ role, s.mapping = some role → ⟨role, r.id, s.orgId⟩ ∈ db.builtinRoles

def Blocked (s : SeedRole) (db : Db) : Prop :=
  db.findRoleByUid s.orgId s.uid = none ∧ (db.findRoleByName s.orgId s.name).isSome

section Round

variable {orgs : String → Prop} {db db' : Db} {s : SeedRole}

theorem Held.added (hadd : Added orgs db db') {roleId : String} {p : ResolvedPermission}
    (h : Held db roleId p) : Held db' roleId p := by
  obtain ⟨rows, heq, -⟩ := hadd.permissions
  obtain ⟨row, hrow, hrole⟩ := h
  exact ⟨row, by rw [heq]; exact List.mem_append_left _ hrow, hrole⟩

theorem Done.added (hadd : Added orgs db db') (h : Done s db) : Done s db' := by
  obtain ⟨rows, heq, -⟩ := hadd.builtinRoles
  obtain ⟨r, hr, hperms, hmapping⟩ := h
  refine ⟨r, hadd.findRoleByUid hr, fun p hp => (hperms p hp).added hadd, fun role hrole => ?_⟩
  rw [heq]
  exact List.mem_append_left _ (hmapping role hrole)

theorem Blocked.added (hadd : Added orgs db db') (horg : ¬ orgs s.orgId) (h : Blocked s db) :
    Blocked s db' :=
  ⟨hadd.findRoleByUid_none horg h.1, hadd.findRoleByName h.2⟩

theorem findRoleById_of_uid {orgId uid : String} {r : Role}
    (h : db.findRoleByUid orgId uid = some r) : (db.findRoleById r.id).isSome := by
  rw [Db.findRoleById, List.find?_isSome]
  exact ⟨r, List.mem_of_find?_eq_some h, by simp⟩

/-! ### The role -/

theorem ensureRole_found {id : String} {r : Role} (h : db.findRoleByUid s.orgId s.uid = some r) :
    (ensureRole id s).run db = (.ok (r.id, 0), db) := by
  rw [ensureRole, Prog.run_bind, Prog.run_read, h]
  rfl

theorem ensureRole_blocked (id : String) (h : Blocked s db) : ∃ e,
    (ensureRole id s).run db = (.error e, db) := by
  refine ⟨"UNIQUE constraint failed: role.org_id, role.name", ?_⟩
  rw [ensureRole, Prog.run_bind, Prog.run_read, h.1]
  dsimp only
  rw [Prog.run_bind, RoleRepository.create, Prog.run_attempt, if_pos h.2]

theorem ensureRole_ok (id : String) (h : ¬ Blocked s db) : ∃ r inserted db₁,
    (ensureRole id s).run db = (.ok (r.id, inserted), db₁) ∧
      db₁.findRoleByUid s.orgId s.uid = some r ∧ Added (· = s.orgId) db db₁ := by
  cases hfound : db.findRoleByUid s.orgId s.uid with
  | some r => exact ⟨r, 0, db, ensureRole_found hfound, hfound, Added.refl db⟩
  | none =>
    have hname : ¬ (db.findRoleByName s.orgId s.name).isSome := fun hn => h ⟨hfound, hn⟩
    refine ⟨⟨id, s.orgId, s.uid, s.name, 0, s.details⟩, 1, { db with
      roles := db.roles ++ [⟨id, s.orgId, s.uid, s.name, 0, s.details⟩] }, ?_, ?_, ?_⟩
    · rw [ensureRole, Prog.run_bind, Prog.run_read, hfound]
      dsimp only
      rw [Prog.run_bind, RoleRepository.create, Prog.run_attempt, if_neg hname,
        if_neg (by simp [hfound])]
      rfl
    · rw [Db.findRoleByUid, List.find?_append, ← Db.findRoleByUid, hfound]
      simp
    · exact
        { roles := ⟨_, rfl, by simp⟩
          permissions := ⟨[], (List.append_nil _).symm, nofun⟩
          builtinRoles := ⟨[], (List.append_nil _).symm, nofun⟩
          tables := rfl }

/-! ### The permissions -/

variable {ids : ℕ → String} {roleId : String} {keys : List String}
  {desired : List ResolvedPermission}

theorem insertMissing_still
    (h : ∀ p ∈ desired, permissionKey p.action p.scope ∈ keys) : ∀ i,
      (insertMissing ids roleId keys i desired).run db = (.ok 0, db) := by
  induction desired with
  | nil => exact fun _ => rfl
  | cons p desired ih =>
    intro i
    rw [insertMissing, if_pos (h p List.mem_cons_self)]
    exact ih (fun q hq => h q (List.mem_cons_of_mem p hq)) (i + 1)

theorem insertMissing_ok (ids : ℕ → String) (keys : List String)
    (desired : List ResolvedPermission) : ∀ (i : ℕ) {db : Db}, (db.findRoleById roleId).isSome → ∃ n rows,
    (insertMissing ids roleId keys i desired).run db =
        (.ok n, { db with permissions := db.permissions ++ rows }) ∧
      (∀ row ∈ rows, row.roleId = roleId) ∧
      ∀ p ∈ desired, permissionKey p.action p.scope ∈ keys ∨ ∃ row ∈ rows,
        permissionKey row.action row.scope = permissionKey p.action p.scope := by
  induction desired with
  | nil => exact fun _ _ _ => ⟨0, [], by rw [List.append_nil]; rfl, nofun, nofun⟩
  | cons p desired ih =>
    intro i db hrole
    by_cases hkey : permissionKey p.action p.scope ∈ keys
    · obtain ⟨n, rows, hrun, hrows, hheld⟩ := ih (i + 1) hrole
      refine ⟨n, rows, by rw [insertMissing, if_pos hkey, hrun], hrows, fun q hq => ?_⟩
      rcases List.mem_cons.mp hq with rfl | hq
      · exact Or.inl hkey
      · exact hheld q hq
    · let row : Permission := ⟨ids i, roleId, p.action, p.scope⟩
      obtain ⟨n, rows, hrun, hrows, hheld⟩ :=
        @ih (i + 1) { db with permissions := db.permissions ++ [row] } hrole
      refine ⟨n + 1, row :: rows, ?_, ?_, fun q hq => ?_⟩
      · rw [insertMissing, if_neg hkey, Prog.run_bind, PermissionRepository.create,
          Prog.run_attempt, if_neg (by simpa [Option.isSome_iff_ne_none] using hrole)]
        dsimp only
        rw [Prog.run_bind, hrun]
        simp [row]
      · exact List.forall_mem_cons.mpr ⟨rfl, hrows⟩
      · rcases List.mem_cons.mp hq with rfl | hq
        · exact Or.inr ⟨row, List.mem_cons_self, rfl⟩
        · rcases hheld q hq with hin | ⟨row', hrow', hsame⟩
          · exact Or.inl hin
          · exact Or.inr ⟨row', List.mem_cons_of_mem row hrow', hsame⟩

theorem mem_keys {p : ResolvedPermission} : permissionKey p.action p.scope ∈
    (db.listPermissionsByRole roleId).map (fun q => permissionKey q.action q.scope) ↔
      Held db roleId p := by
  simp [Db.listPermissionsByRole, Db.listPermissionsByRoles, Held, and_assoc]

theorem syncPermissions_still (h : ∀ p ∈ desired, Held db roleId p) :
    (syncPermissions ids roleId desired).run db = (.ok 0, db) := by
  rw [syncPermissions, Prog.run_bind, Prog.run_read]
  exact insertMissing_still (fun p hp => mem_keys.mpr (h p hp)) 0

theorem syncPermissions_ok (ids : ℕ → String) (desired : List ResolvedPermission)
    (hrole : (db.findRoleById roleId).isSome) : ∃ n rows,
    (syncPermissions ids roleId desired).run db =
        (.ok n, { db with permissions := db.permissions ++ rows }) ∧
      (∀ row ∈ rows, row.roleId = roleId) ∧
      ∀ p ∈ desired, Held { db with permissions := db.permissions ++ rows } roleId p := by
  rw [syncPermissions, Prog.run_bind, Prog.run_read]
  obtain ⟨n, rows, hrun, hrows, hheld⟩ := insertMissing_ok ids
    ((db.listPermissionsByRole roleId).map fun q => permissionKey q.action q.scope) desired 0
    hrole
  refine ⟨n, rows, hrun, hrows, fun p hp => ?_⟩
  rcases hheld p hp with hin | ⟨row, hrow, hsame⟩
  · obtain ⟨row, hrow, hkey⟩ := mem_keys.mp hin
    exact ⟨row, List.mem_append_left _ hrow, hkey⟩
  · exact ⟨row, List.mem_append_right _ hrow, hrows row hrow, hsame⟩

/-! ### The mapping -/

theorem hasBuiltinRole_run {row : BuiltinRole} : (RoleRepository.hasBuiltinRole row).run db =
    (.ok (decide (row ∈ db.builtinRoles)), db) := rfl

theorem bindBuiltin_still {row : BuiltinRole} (h : row ∈ db.builtinRoles) :
    (bindBuiltin row).run db = (.ok 0, db) := by
  rw [bindBuiltin, Prog.run_bind, hasBuiltinRole_run]
  dsimp only
  rw [Prog.run_bind, RoleRepository.upsertBuiltinRole, Prog.run_bind, hasBuiltinRole_run]
  simp [h]

theorem bindBuiltin_ok (row : BuiltinRole) (hrole : (db.findRoleById row.roleId).isSome) :
    ∃ n rows, (bindBuiltin row).run db =
        (.ok n, { db with builtinRoles := db.builtinRoles ++ rows }) ∧
      (∀ b ∈ rows, b = row) ∧ row ∈ db.builtinRoles ++ rows := by
  by_cases h : row ∈ db.builtinRoles
  · exact ⟨0, [], by rw [bindBuiltin_still h, List.append_nil], nofun,
      List.mem_append_left _ h⟩
  · refine ⟨1, [row], ?_, fun b hb => List.mem_singleton.mp hb,
      List.mem_append_right _ List.mem_cons_self⟩
    rw [bindBuiltin, Prog.run_bind, hasBuiltinRole_run]
    dsimp only
    rw [Prog.run_bind, RoleRepository.upsertBuiltinRole, Prog.run_bind, hasBuiltinRole_run]
    have hsome : ¬ (db.findRoleById row.roleId).isNone := by
      simpa [Option.isSome_iff_ne_none] using hrole
    simp only [h, decide_false, Bool.false_eq_true, if_false]
    rw [Prog.run_attempt, if_neg h, if_neg hsome]
    rfl

/-! ### The round -/

theorem seedRole_still {draw : Draw} (h : Done s db) :
    (seedRole draw s).run db = (.ok {}, db) := by
  obtain ⟨r, hr, hperms, hmapping⟩ := h
  rw [seedRole, Prog.run_bind, ensureRole_found hr]
  dsimp only
  rw [Prog.run_bind, syncPermissions_still hperms]
  dsimp only
  cases hmap : s.mapping with
  | none => rfl
  | some role =>
    dsimp only
    rw [Prog.run_bind, bindBuiltin_still (hmapping role hmap)]
    rfl

theorem seedRole_blocked (draw : Draw) (h : Blocked s db) :
    ∃ e, (seedRole draw s).run db = (.error e, db) := by
  obtain ⟨e, he⟩ := ensureRole_blocked draw.role h
  exact ⟨e, by rw [seedRole, Prog.run_bind, he]⟩

theorem seedRole_ok (draw : Draw) (h : ¬ Blocked s db) : ∃ result db',
    (seedRole draw s).run db = (.ok result, db') ∧ Added (· = s.orgId) db db' ∧ Done s db' := by
  obtain ⟨r, inserted, db₁, hrun, hr, hadd⟩ := ensureRole_ok draw.role h
  have horg : r.orgId = s.orgId := by
    have hfound := List.find?_some hr
    exact (of_decide_eq_true hfound).1
  obtain ⟨n, perms, hsync, hperms, hheld⟩ := syncPermissions_ok draw.permission s.permissions
    (findRoleById_of_uid hr)
  have hadd₂ : Added (· = s.orgId) db { db₁ with permissions := db₁.permissions ++ perms } :=
    hadd.trans
      { roles := ⟨[], (List.append_nil _).symm, nofun⟩
        permissions := ⟨perms, rfl, fun p hp =>
          ⟨r, List.mem_of_find?_eq_some hr, (hperms p hp).symm, horg⟩⟩
        builtinRoles := ⟨[], (List.append_nil _).symm, nofun⟩
        tables := rfl }
  cases hmap : s.mapping with
  | none =>
    refine ⟨⟨inserted, n, 0⟩, _, ?_, hadd₂, r, hr, hheld, by simp [hmap]⟩
    rw [seedRole, Prog.run_bind, hrun]
    dsimp only
    rw [Prog.run_bind, hsync, hmap]
    rfl
  | some role =>
    obtain ⟨m, rows, hbind, hrows, hin⟩ := @bindBuiltin_ok
      { db₁ with permissions := db₁.permissions ++ perms } ⟨role, r.id, s.orgId⟩
      (findRoleById_of_uid hr)
    have hadd₃ : Added (· = s.orgId) { db₁ with permissions := db₁.permissions ++ perms }
        { db₁ with
          permissions := db₁.permissions ++ perms, builtinRoles := db₁.builtinRoles ++ rows } :=
      { roles := ⟨[], (List.append_nil _).symm, nofun⟩
        permissions := ⟨[], (List.append_nil _).symm, nofun⟩
        builtinRoles := ⟨rows, rfl, fun b hb => by rw [hrows b hb]⟩
        tables := rfl }
    refine ⟨⟨inserted, n, m⟩, _, ?_, hadd₂.trans hadd₃, r, hr,
      fun p hp => (hheld p hp).added hadd₃, fun role' hrole => ?_⟩
    · rw [seedRole, Prog.run_bind, hrun]
      dsimp only
      rw [Prog.run_bind, hsync, hmap]
      dsimp only
      rw [Prog.run_bind, hbind]
      rfl
    · rw [hmap] at hrole
      obtain rfl := Option.some.inj hrole
      exact hin

end Round

/-! ## The loops -/

def Settled : List SeedRole → Db → Prop
  | [], _ => True
  | s :: rest, db => Done s db ∧ Settled rest db ∨ Blocked s db

section Loops

variable {orgs : String → Prop} {draws : ℕ → Draw} {db db' : Db} {rest rest' : List SeedRole}

theorem Settled.added (hadd : Added orgs db db') :
    ∀ {rest : List SeedRole}, (∀ s ∈ rest, ¬ orgs s.orgId) → Settled rest db → Settled rest db'
  | [], _, _ => trivial
  | s :: rest, horg, h => by
    rcases h with ⟨hdone, hrest⟩ | hblocked
    · exact Or.inl ⟨hdone.added hadd,
        hrest.added hadd fun t ht => horg t (List.mem_cons_of_mem s ht)⟩
    · exact Or.inr (hblocked.added hadd (horg s List.mem_cons_self))

theorem seedRoles_cons_still {s : SeedRole} {i : ℕ} (h : Done s db) :
    ((seedRoles draws i (s :: rest)).run db).2 = ((seedRoles draws (i + 1) rest).run db).2 := by
  rw [seedRoles, Prog.run_bind, seedRole_still h]
  exact Prog.run_discard

theorem seedRoles_cons_blocked (draws : ℕ → Draw) (rest : List SeedRole) {s : SeedRole} (i : ℕ)
    (h : Blocked s db) :
    ∃ e, (seedRoles draws i (s :: rest)).run db = (.error e, db) := by
  obtain ⟨e, he⟩ := seedRole_blocked (draws i) h
  exact ⟨e, by rw [seedRoles, Prog.run_bind, he]⟩

theorem seedRoles_still : ∀ {rest : List SeedRole} {i : ℕ}, Settled rest db →
    ((seedRoles draws i rest).run db).2 = db
  | [], _, _ => rfl
  | s :: rest, i, h => by
    rcases h with ⟨hdone, hrest⟩ | hblocked
    · rw [seedRoles_cons_still hdone]
      exact seedRoles_still hrest
    · obtain ⟨e, he⟩ := seedRoles_cons_blocked draws rest i hblocked
      rw [he]

theorem seedRoles_settles (horg : ∀ s ∈ rest, orgs s.orgId) : ∀ (i : ℕ) (db : Db),
    Settled rest ((seedRoles draws i rest).run db).2 ∧
      Added orgs db ((seedRoles draws i rest).run db).2 := by
  induction rest with
  | nil => exact fun _ db => ⟨trivial, Added.refl db⟩
  | cons s rest ih =>
    intro i db
    by_cases hblocked : Blocked s db
    · obtain ⟨e, he⟩ := seedRoles_cons_blocked draws rest i hblocked
      rw [he]
      exact ⟨Or.inr hblocked, Added.refl db⟩
    · obtain ⟨first, db₁, hfirst, hadd, hdone⟩ := seedRole_ok (draws i) hblocked
      have hrun : ((seedRoles draws i (s :: rest)).run db).2 =
          ((seedRoles draws (i + 1) rest).run db₁).2 := by
        rw [seedRoles, Prog.run_bind, hfirst]
        exact Prog.run_discard
      obtain ⟨hsettled, hadd'⟩ := ih (fun t ht => horg t (List.mem_cons_of_mem s ht))
        (i + 1) db₁
      rw [hrun]
      refine ⟨Or.inl ⟨hdone.added hadd', hsettled⟩, (hadd.mono fun o ho => ?_).trans hadd'⟩
      rw [ho]
      exact horg s List.mem_cons_self

theorem seedRoles_append {ys : List SeedRole} : ∀ {xs : List SeedRole} {i : ℕ} {db : Db},
    ((seedRoles draws i (xs ++ ys)).run db).2 =
      ((seedRoles draws i xs >>= fun _ => seedRoles draws (i + xs.length) ys).run db).2
  | [], _, _ => rfl
  | s :: xs, i, db => by
    rw [List.cons_append, seedRoles, Prog.run_bind, seedRoles, Prog.run_bind, Prog.run_bind]
    cases (seedRole (draws i) s).run db with
    | mk outcome db₁ =>
      cases outcome with
      | error e => rfl
      | ok first =>
        dsimp only
        have hlength : i + (s :: xs).length = i + 1 + xs.length := by
          rw [List.length_cons, Nat.add_assoc, Nat.add_comm 1]
        rw [Prog.run_discard, seedRoles_append, Prog.run_bind, Prog.run_bind, hlength]
        cases (seedRoles draws (i + 1) xs).run db₁ with
        | mk outcome db₂ => cases outcome <;> rfl

theorem Settled.kept {ys zs : List SeedRole} (hys : ∀ s ∈ ys, ¬ orgs s.orgId)
    (hzs : ∀ s ∈ zs, orgs s.orgId) : ∀ {xs : List SeedRole} {i : ℕ}, Settled (xs ++ ys) db →
      Settled (xs ++ ys) ((seedRoles draws i (xs ++ zs)).run db).2
  | [], _, h => h.added (seedRoles_settles hzs _ _).2 hys
  | s :: xs, i, h => by
    rw [List.cons_append, List.cons_append]
    rcases h with ⟨hdone, hrest⟩ | hblocked
    · rw [seedRoles_cons_still hdone]
      have hadd := (@seedRoles_settles (fun _ => True) draws (xs ++ zs) (fun _ _ => trivial)
        (i + 1) db).2
      exact Or.inl ⟨hdone.added hadd, hrest.kept hys hzs⟩
    · obtain ⟨e, he⟩ := seedRoles_cons_blocked draws (xs ++ zs) i hblocked
      rw [he]
      exact Or.inr hblocked

end Loops

/-! ## The calls -/

def globalRoles : List SeedRole :=
  fixedRoleDefinitions.map ofFixed ++
    (findBasic "basic:server_admin").toList.map (ofBasic "" "Server Admin")

def rounds (orgId : String) : List SeedRole := globalRoles ++ orgRoles orgId

def seed (orgId : String) (draws : ℕ → Draw) (db : Db) : Db :=
  ((seedRbacForOrg orgId draws).run db).2

section Calls

variable {orgId : String} {draws : ℕ → Draw} {db db' : Db}

theorem globalRoles_orgId {s : SeedRole} (h : s ∈ globalRoles) : s.orgId = "" := by
  rcases List.mem_append.mp h with h | h
  · obtain ⟨d, -, rfl⟩ := List.mem_map.mp h
    rfl
  · obtain ⟨d, -, rfl⟩ := List.mem_map.mp h
    rfl

theorem orgRoles_orgId {s : SeedRole} (h : s ∈ orgRoles orgId) : s.orgId = orgId := by
  obtain ⟨d, -, rfl⟩ := List.mem_map.mp h
  rfl

theorem seed_eq (horg : orgId ≠ "") :
    seed orgId draws db = ((seedRoles draws 0 (rounds orgId)).run db).2 := by
  have hserver : ∃ d, findBasic "basic:server_admin" = some d :=
    Option.isSome_iff_exists.mp (by decide)
  obtain ⟨d, hd⟩ := hserver
  have hlist : (findBasic "basic:server_admin").toList.map (ofBasic "" "Server Admin") =
      [ofBasic "" "Server Admin" d] := by
    rw [hd]
    rfl
  rw [seed, seedRbacForOrg, if_neg horg, rounds, globalRoles, hlist, List.append_assoc,
    seedRoles_append, Prog.run_bind, Prog.run_bind, hd]
  cases (seedRoles draws 0 (fixedRoleDefinitions.map ofFixed)).run db with
  | mk outcome db₁ =>
    cases outcome with
    | error e => rfl
    | ok fixed =>
      dsimp only
      rw [seedRoles_append, Prog.run_bind, Prog.run_bind, List.length_map, Nat.zero_add]
      cases (seedRoles draws fixedRoleDefinitions.length
          [ofBasic "" "Server Admin" d]).run db₁ with
      | mk outcome db₂ =>
        cases outcome with
        | error e => rfl
        | ok server => exact Prog.run_discard

theorem seed_added : Added (fun o => o = "" ∨ o = orgId) db (seed orgId draws db) := by
  by_cases horg : orgId = ""
  · subst horg
    exact Added.refl db
  · rw [seed_eq horg]
    refine (seedRoles_settles (fun s hs => ?_) 0 db).2
    exact (List.mem_append.mp hs).imp globalRoles_orgId orgRoles_orgId

theorem settling_seed :
    Settling seed fun orgId db => orgId = "" ∨ Settled (rounds orgId) db where
  still := by
    intro orgId db draws h
    by_cases horg : orgId = ""
    · subst horg
      rfl
    · rw [seed_eq horg]
      exact seedRoles_still (h.resolve_left horg)
  settles := by
    intro orgId draws db
    by_cases horg : orgId = ""
    · exact Or.inl horg
    · rw [seed_eq horg]
      exact Or.inr (@seedRoles_settles (fun _ => True) draws _ (fun _ _ => trivial) 0 db).1
  kept := by
    intro orgId other db draws hne h
    by_cases hother : other = ""
    · subst hother
      exact h
    · rw [seed_eq hother]
      refine h.imp id fun hsettled => ?_
      exact @Settled.kept (· = other) _ _ _ _ (fun s hs => by rwa [orgRoles_orgId hs])
        (fun s hs => orgRoles_orgId hs) _ _ hsettled

end Calls

/-! ## Sequences of calls -/

structure Seeded (calls : List (String × (ℕ → Draw))) (db db' : Db) : Prop where
  /-- Each distinct org once, in the order of the first calls. -/
  once : db' = callAll seed (firsts calls) db
  /-- Every row stays; those that come are global or of an org of the sequence. -/
  added : Added (fun o => o = "" ∨ o ∈ calls.map (·.1)) db db'
  /-- The rows of the other orgs are what they were. -/
  roles : ∀ o, o ≠ "" → o ∉ calls.map (·.1) →
    db'.roles.filter (·.orgId = o) = db.roles.filter (·.orgId = o)
  builtinRoles : ∀ o, o ≠ "" → o ∉ calls.map (·.1) →
    db'.builtinRoles.filter (·.orgId = o) = db.builtinRoles.filter (·.orgId = o)
  permissions : (db'.roles.map (·.id)).Nodup → ∀ r ∈ db.roles, r.orgId ≠ "" →
    r.orgId ∉ calls.map (·.1) →
      db'.permissions.filter (·.roleId = r.id) = db.permissions.filter (·.roleId = r.id)

section Sequences

variable {orgs : String → Prop} {db db' : Db}

theorem callAll_added : ∀ (calls : List (String × (ℕ → Draw))) (db : Db),
    Added (fun o => o = "" ∨ o ∈ calls.map (·.1)) db (callAll seed calls db)
  | [], db => Added.refl db
  | (orgId, draws) :: calls, db => by
    have hfirst : Added (fun o => o = "" ∨ o ∈ ((orgId, draws) :: calls).map (·.1)) db
        (seed orgId draws db) :=
      seed_added.mono fun o => Or.imp id fun h => h ▸ List.mem_cons_self
    exact hfirst.trans ((callAll_added calls (seed orgId draws db)).mono
      fun o => Or.imp id (List.mem_cons_of_mem orgId))

theorem filter_append_of_orgs {α : Type} {rows added : List α} {p : α → Prop} [DecidablePred p]
    (h : ∀ r ∈ added, ¬ p r) : (rows ++ added).filter p = rows.filter p := by
  have hnone : added.filter p = [] :=
    List.filter_eq_nil_iff.mpr fun r hr hp => h r hr (of_decide_eq_true hp)
  rw [List.filter_append, hnone, List.append_nil]

theorem Added.roles_of_other (h : Added orgs db db') {o : String} (ho : ¬ orgs o) :
    db'.roles.filter (·.orgId = o) = db.roles.filter (·.orgId = o) := by
  obtain ⟨rows, heq, horgs⟩ := h.roles
  rw [heq]
  exact filter_append_of_orgs fun r hr hp => ho (hp ▸ horgs r hr)

theorem Added.builtinRoles_of_other (h : Added orgs db db') {o : String} (ho : ¬ orgs o) :
    db'.builtinRoles.filter (·.orgId = o) = db.builtinRoles.filter (·.orgId = o) := by
  obtain ⟨rows, heq, horgs⟩ := h.builtinRoles
  rw [heq]
  exact filter_append_of_orgs fun b hb hp => ho (hp ▸ horgs b hb)

theorem Added.permissions_of_other (h : Added orgs db db')
    (hids : (db'.roles.map (·.id)).Nodup) {r : Role} (hr : r ∈ db.roles) (ho : ¬ orgs r.orgId) :
    db'.permissions.filter (·.roleId = r.id) = db.permissions.filter (·.roleId = r.id) := by
  obtain ⟨rows, heq, hroles⟩ := h.permissions
  rw [heq]
  refine filter_append_of_orgs fun p hp hid => ho ?_
  obtain ⟨r', hr', hid', horg⟩ := hroles p hp
  rw [List.inj_on_of_nodup_map hids (h.mem_roles hr) hr' (hid.symm.trans hid'.symm)]
  exact horg

end Sequences

/-- **Seeding is idempotent and only adds**: for every sequence of calls, whatever they draw
and whether or not they fail. -/
theorem seeding_once (calls : List (String × (ℕ → Draw))) (db : Db) :
    Seeded calls db (callAll seed calls db) := by
  have hadd := callAll_added calls db
  have hother : ∀ {o}, o ≠ "" → o ∉ calls.map (·.1) → ¬ (o = "" ∨ o ∈ calls.map (·.1)) :=
    fun hne hnot => not_or.mpr ⟨hne, hnot⟩
  exact
    { once := settling_seed.callAll_firsts calls db
      added := hadd
      roles := fun o hne hnot => hadd.roles_of_other (hother hne hnot)
      builtinRoles := fun o hne hnot => hadd.builtinRoles_of_other (hother hne hnot)
      permissions := fun hids r hr hne hnot =>
        hadd.permissions_of_other hids hr (hother hne hnot) }

end Seeding

end OpenObs.Rbac
