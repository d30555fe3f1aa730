import OpenObs.Foundation.Pool
import OpenObs.Rbac.Assignments

/-!
# Two updates of one role

`updateRole` compares the version it read with the version of the request and stores the incremented
version with an `UPDATE` that names the role by its id alone; in between the call waits, twice.
-/

namespace OpenObs.Rbac

open OpenObs.Foundation RoleService

/-! ## The calls -/

structure UpdateCall where
  uid : ℕ → String
  input : UpdateRoleInput

namespace UpdateCall

variable (call : UpdateCall)

def code : Prog Db (Role × List Permission) := updateRole call.uid call.input

def target (db : Db) : Option Role := db.findRole call.input.orgId call.input.roleUid

def accepts : Bool :=
  match call.input.permissions with
  | none => true
  | some perms => (validatePermissions perms).isOk

def secondRead : Prog Db (Role × List Permission) :=
  Prog.read (·.findRoleByUid "" call.input.roleUid) >>= checkUpdate call.uid call.input

/-- The columns are merged, and the `UPDATE` is next. -/
def storing (id : String) (details : RoleDetails) : Prog Db (Role × List Permission) := do
  match ← Prog.atomic fun db =>
      ((db.updateRole id details).findRoleById id, db.updateRole id details) with
  | none => throw "role not found"
  | some patched => replacePermissions call.uid call.input id patched

/-- The call has read the expected version and has not executed its `UPDATE`. -/
def Armed (id : String) (p : Prog Db (Role × List Permission)) : Prop :=
  p = applyUpdate call.uid call.input id ∨ ∃ details, p = call.storing id details

end UpdateCall

abbrev UpdateThread := Thread Db UpdateCall (Role × List Permission)

abbrev UpdateConfig := Config Db UpdateCall (Role × List Permission)

def UpdateThread.Armed (id : String) (th : UpdateThread) : Prop := th.op.Armed id th.prog

def OneArmed (id : String) (c : UpdateConfig) : Prop :=
  ∀ (i j : ℕ) (th th' : UpdateThread), c.threads[i]? = some th → c.threads[j]? = some th' →
    UpdateThread.Armed id th → UpdateThread.Armed id th' → i = j

def Db.grants (db : Db) (roleId : String) : List ResolvedPermission :=
  (db.permissions.filter (·.roleId = roleId)).map fun p => ⟨p.action, p.scope⟩

def UpdateCall.wanted (call : UpdateCall) (db : Db) (roleId : String) : List ResolvedPermission :=
  match call.input.permissions with
  | none => db.grants roleId
  | some perms => perms.map (·.grant)

/-- At most one call returns; the others threw the conflict, and the rows are the
ones it asked for. -/
def NoLostUpdate (db : Db) (roleId : String) (c : UpdateConfig) : Prop :=
  ∀ (i : ℕ) (call : UpdateCall) (r : Role × List Permission),
    c.threads[i]? = some ⟨call, .ret r⟩ →
    (∀ (j : ℕ) (th : UpdateThread), j ≠ i → c.threads[j]? = some th →
      th.prog = .fail "role version mismatch") ∧
    c.st.grants roleId = call.wanted db roleId

/-! ## Sections -/

section Sections

variable {call : UpdateCall} {f : Db → Db} {k : Db → Prog Db (Role × List Permission)}
  (db : Db)

theorem section_ready (h : Prog.sect f k = call.code) :
    f db = db ∧ k db =
      match db.findRoleByUid call.input.orgId call.input.roleUid with
      | some role => checkUpdate call.uid call.input (some role)
      | none => call.secondRead := by
  have heq : call.code = Prog.sect id (fun db => Prog.bind
      (match db.findRoleByUid call.input.orgId call.input.roleUid with
        | some role => .ret (some role)
        | none => Prog.read (·.findRoleByUid "" call.input.roleUid))
      (checkUpdate call.uid call.input)) := rfl
  rw [heq] at h
  cases h
  refine ⟨rfl, ?_⟩
  show Prog.bind (match db.findRoleByUid _ _ with | some role => _ | none => _) _ = _
  cases db.findRoleByUid call.input.orgId call.input.roleUid <;> rfl

theorem section_second (h : Prog.sect f k = call.secondRead) :
    f db = db ∧ k db =
      checkUpdate call.uid call.input (db.findRoleByUid "" call.input.roleUid) := by
  cases h
  exact ⟨rfl, rfl⟩

theorem section_apply {id : String}
    (h : Prog.sect f k = applyUpdate call.uid call.input id) :
    f db = db ∧ k db =
      match db.findRoleById id with
      | none => .fail "role not found"
      | some existing => call.storing id (call.input.patch.apply existing.details) := by
  have heq : applyUpdate call.uid call.input id = Prog.sect (fun db => db) (fun db => Prog.bind
      (match db.findRoleById id with
        | none => .ret none
        | some existing => Prog.atomic fun db =>
          ((db.updateRole id (call.input.patch.apply existing.details)).findRoleById id,
            db.updateRole id (call.input.patch.apply existing.details)))
      fun patched => match patched with
        | none => throw "role not found"
        | some patched => replacePermissions call.uid call.input id patched) := rfl
  rw [heq] at h
  cases h
  refine ⟨rfl, ?_⟩
  show Prog.bind (match db.findRoleById id with | none => _ | some existing => _) _ = _
  cases db.findRoleById id <;> rfl

theorem section_storing {id : String} {details : RoleDetails}
    (h : Prog.sect f k = call.storing id details) :
    f db = db.updateRole id details ∧ k db =
      match (db.updateRole id details).findRoleById id with
      | none => .fail "role not found"
      | some patched => replacePermissions call.uid call.input id patched := by
  cases h
  exact ⟨rfl, rfl⟩

end Sections

/-! ## Rows of a role -/

namespace Db

variable {db : Db} {id : String} {details : RoleDetails}

def HasRole (db : Db) (id : String) : Prop := (db.findRoleById id).isSome = true

theorem hasRole_iff : db.HasRole id ↔ ∃ r ∈ db.roles, r.id = id := by
  simp [HasRole, findRoleById, List.find?_isSome]

theorem hasRole_of_findRoleByUid {orgId uid : String} {role : Role}
    (h : db.findRoleByUid orgId uid = some role) : db.HasRole role.id :=
  hasRole_iff.mpr ⟨role, List.mem_of_find?_eq_some h, rfl⟩

theorem hasRole_of_findRole {orgId uid : String} {role : Role}
    (h : db.findRole orgId uid = some role) : db.HasRole role.id := by
  rw [findRole, Option.or_eq_some_iff] at h
  rcases h with h | ⟨-, h⟩
  · exact hasRole_of_findRoleByUid h
  · exact hasRole_of_findRoleByUid h

/-- The row of the `UPDATE`. -/
def bumped (id : String) (details : RoleDetails) (r : Role) : Role :=
  if r.id = id then { r with version := r.version + 1, details } else r

theorem findRoleByUid_updateRole {orgId uid : String} :
    (db.updateRole id details).findRoleByUid orgId uid =
      (db.findRoleByUid orgId uid).map (bumped id details) := by
  show (db.roles.map (bumped id details)).find? _ = _
  rw [List.find?_map]
  refine congrArg (Option.map _) (congrArg (fun q => List.find? q db.roles) ?_)
  funext r
  show decide ((bumped id details r).orgId = orgId ∧ (bumped id details r).uid = uid) = _
  by_cases h : r.id = id <;> simp [bumped, h]

theorem findRole_updateRole {orgId uid : String} :
    (db.updateRole id details).findRole orgId uid =
      (db.findRole orgId uid).map (bumped id details) := by
  rw [findRole, findRole, findRoleByUid_updateRole, findRoleByUid_updateRole]
  cases db.findRoleByUid orgId uid <;> rfl

theorem hasRole_updateRole {id' : String} :
    (db.updateRole id details).HasRole id' ↔ db.HasRole id' := by
  have hid (r : Role) : (bumped id details r).id = r.id := by
    by_cases h : r.id = id <;> simp [bumped, h]
  rw [hasRole_iff, hasRole_iff]
  show (∃ r ∈ db.roles.map (bumped id details), r.id = id') ↔ _
  simp [hid]

end Db

/-! ## The permissions -/

section Replacement

variable {call : UpdateCall} {id : String} {patched : Role} {db : Db}

theorem run_createMany {rows : List Permission} (hrole : ∀ row ∈ rows, db.HasRole row.roleId) :
    (PermissionRepository.createMany rows).run db =
      (.ok rows, { db with permissions := db.permissions ++ rows }) := by
  induction rows generalizing db with
  | nil => simp [PermissionRepository.createMany]
  | cons row rows ih =>
    have hfirst : (db.findRoleById row.roleId).isNone = false := by
      have h := hrole row List.mem_cons_self
      rw [Db.HasRole] at h
      rw [Option.isNone_eq_false_iff]
      exact h
    rw [PermissionRepository.createMany, Prog.run_bind, PermissionRepository.create,
      Prog.run_attempt, hfirst]
    have hrest : (PermissionRepository.createMany rows).run
        { db with permissions := db.permissions ++ [row] } = _ :=
      ih fun r hr => hrole r (List.mem_cons_of_mem row hr)
    show Prog.run (_ >>= _) { db with permissions := db.permissions ++ [row] } = _
    rw [Prog.run_bind, hrest]
    simp

theorem grants_rowsFor {uid : ℕ → String} {perms : List PermissionInput} :
    (rowsFor id uid perms).map (fun p => (⟨p.action, p.scope⟩ : ResolvedPermission)) =
      perms.map (·.grant) := by
  rw [rowsFor, List.map_map]
  show perms.zipIdx.map ((·.grant) ∘ Prod.fst) = _
  rw [← List.map_map, List.zipIdx_map_fst]

theorem roleId_rowsFor {uid : ℕ → String} {perms : List PermissionInput} :
    ∀ row ∈ rowsFor id uid perms, row.roleId = id := by
  intro row hrow
  obtain ⟨⟨p, i⟩, -, rfl⟩ := List.mem_map.mp hrow
  rfl

theorem run_replacePermissions (hrole : db.HasRole id) {r : Role × List Permission} {db' : Db}
    (hrun : (replacePermissions call.uid call.input id patched).run db = (.ok r, db')) :
    db'.grants id = call.wanted db id := by
  rw [replacePermissions] at hrun
  rw [UpdateCall.wanted]
  cases hperms : call.input.permissions with
  | none =>
    rw [hperms] at hrun
    cases hrun
    rfl
  | some perms =>
    rw [hperms] at hrun
    cases hvalid : validatePermissions perms with
    | error e =>
      simp only [hvalid] at hrun
      cases hrun
    | ok u =>
      have hkeep : Db.HasRole { db with
          permissions := db.permissions.filter (·.roleId ≠ id) } id := hrole
      have hrows : ∀ row ∈ rowsFor id call.uid perms, Db.HasRole { db with
          permissions := db.permissions.filter (·.roleId ≠ id) } row.roleId := by
        intro row hrow
        rw [roleId_rowsFor row hrow]
        exact hkeep
      simp only [hvalid, PermissionRepository.deleteByRole, Prog.run_bind, Prog.run_atomic,
        run_createMany hrows, Prog.run_pure] at hrun
      cases hrun
      have hold : (db.permissions.filter (·.roleId ≠ id)).filter (·.roleId = id) = [] := by
        rw [List.filter_filter, List.filter_eq_nil_iff]
        simp
      have hnew : (rowsFor id call.uid perms).filter (·.roleId = id) =
          rowsFor id call.uid perms :=
        List.filter_eq_self.mpr fun row hrow => decide_eq_true (roleId_rowsFor row hrow)
      show ((_ ++ _ : List Permission).filter _).map _ = _
      rw [List.filter_append, hold, hnew, List.nil_append, grants_rowsFor]

theorem replacePermissions_keeps_roles :
    (replacePermissions call.uid call.input id patched).Holds (fun _ _ => True)
      (fun s t => t.roles = s.roles) (fun _ _ => True) db := by
  have hcreate (rows : List Permission) : ∀ db, (PermissionRepository.createMany rows).Holds
      (fun _ _ => True) (fun s t => t.roles = s.roles) (fun _ _ => True) db := by
    induction rows with
    | nil => exact fun _ => trivial
    | cons row rows ih =>
      intro db
      refine Prog.Holds.bind_any (Prog.holds_attempt.mpr fun t _ => ⟨?_, trivial⟩)
        fun _ t => Prog.Holds.bind_any (ih t) fun _ _ => trivial
      split <;> rfl
  rw [replacePermissions]
  split
  · exact Prog.Holds.bind_any (Prog.holds_read.mpr fun _ _ => ⟨rfl, trivial⟩)
      fun _ _ => trivial
  · split
    · trivial
    · exact Prog.Holds.bind_any (Prog.holds_atomic.mpr fun _ _ => ⟨rfl, trivial⟩)
        fun _ t => Prog.Holds.bind_any (hcreate _ t) fun _ _ => trivial

end Replacement

/-! ## What an armed call comes to -/

def versionMismatch : String := "role version mismatch"

theorem validatePermission_ne {p : PermissionInput} {e : String}
    (h : validatePermission p = .error e) : e ≠ versionMismatch := by
  have hhead {s : String} (hs : s.toList.head? = some 'i') : s ≠ versionMismatch := by
    rintro rfl
    simp [versionMismatch] at hs
  rw [validatePermission] at h
  split at h
  · cases h
    decide
  · split at h
    · cases h
      exact hhead (by simp)
    · split at h
      · cases h
      · split at h
        · cases h
          exact hhead (by simp)
        · cases h

theorem validatePermissions_ne {perms : List PermissionInput} {e : String}
    (h : validatePermissions perms = .error e) : e ≠ versionMismatch := by
  induction perms with
  | nil => cases h
  | cons p ps ih =>
    rw [validatePermissions] at h
    cases hp : validatePermission p with
    | error e' =>
      rw [hp] at h
      cases h
      exact validatePermission_ne hp
    | ok u =>
      rw [hp] at h
      exact ih h

def Fate (call : UpdateCall) (r : Except String (Role × List Permission)) : Prop :=
  (call.accepts = true ↔ ∃ a, r = .ok a) ∧ r ≠ .error versionMismatch

/-- The role stays; what `Holds` is read with here. -/
def Keeps (id : String) (_ : Db) (t : Db) : Prop := t.HasRole id

section Fates

variable {call : UpdateCall} {id : String} {patched : Role}

theorem createMany_returns {rows : List Permission} (hrows : ∀ row ∈ rows, row.roleId = id) :
    ∀ {db : Db}, (PermissionRepository.createMany rows).Holds (Keeps id) (Keeps id)
      (fun r _ => ∃ out, r = .ok out) db := by
  induction rows with
  | nil => exact ⟨[], rfl⟩
  | cons row rows ih =>
    intro db
    have hid : row.roleId = id := hrows row List.mem_cons_self
    refine Prog.holds_attempt_bind.mpr fun t ht => ?_
    have hsome : (t.findRoleById row.roleId).isNone = false := by
      rw [hid, Option.isNone_eq_false_iff]
      exact ht
    rw [hsome]
    refine ⟨ht, Prog.Holds.bind ?_⟩
    refine (ih fun r hr => hrows r (List.mem_cons_of_mem row hr)).post ?_
    rintro _ t' ⟨out, rfl⟩
    exact ⟨_, rfl⟩

theorem replacePermissions_fate {db : Db} :
    (replacePermissions call.uid call.input id patched).Holds (Keeps id) (Keeps id)
      (fun r _ => Fate call r) db := by
  have hok {a : Role × List Permission} (hacc : call.accepts = true) : Fate call (.ok a) :=
    ⟨⟨fun _ => ⟨a, rfl⟩, fun _ => hacc⟩, fun h => by cases h⟩
  rw [replacePermissions]
  split
  · rename_i hperms
    have hacc : call.accepts = true := by simp [UpdateCall.accepts, hperms]
    exact Prog.holds_read_bind.mpr fun t ht => ⟨ht, hok hacc⟩
  · rename_i perms hperms
    split
    · rename_i e hvalid
      have hacc : call.accepts = false := by
        simp [UpdateCall.accepts, hperms, hvalid, Except.isOk, Except.toBool]
      refine ⟨⟨fun h => ?_, fun ⟨_, h⟩ => ?_⟩, fun h => ?_⟩
      · rw [hacc] at h
        cases h
      · cases h
      · cases h
        exact validatePermissions_ne hvalid rfl
    · rename_i hvalid
      have hacc : call.accepts = true := by
        simp [UpdateCall.accepts, hperms, hvalid, Except.isOk, Except.toBool]
      refine Prog.holds_atomic_bind.mpr fun t ht => ⟨ht, Prog.Holds.bind ?_⟩
      refine (createMany_returns roleId_rowsFor).post ?_
      rintro _ t' ⟨out, rfl⟩
      exact hok hacc

theorem storing_fate {details : RoleDetails} {db : Db} :
    (call.storing id details).Holds (Keeps id) (Keeps id) (fun r _ => Fate call r) db := by
  refine Prog.holds_atomic_bind.mpr fun t ht => ?_
  have hkeep : (t.updateRole id details).HasRole id := Db.hasRole_updateRole.mpr ht
  refine ⟨hkeep, ?_⟩
  obtain ⟨patched, hpatched⟩ := Option.isSome_iff_exists.mp hkeep
  simp only [hpatched]
  exact replacePermissions_fate

theorem armed_fate {p : Prog Db (Role × List Permission)} (h : call.Armed id p) {db : Db} :
    p.Holds (Keeps id) (Keeps id) (fun r _ => Fate call r) db := by
  rcases h with rfl | ⟨details, rfl⟩
  · intro t ht
    obtain ⟨existing, hexisting⟩ := Option.isSome_iff_exists.mp ht
    refine ⟨ht, ?_⟩
    show Prog.Holds _ _ _ (Prog.bind (match t.findRoleById id with | none => _ | some _ => _) _) _
    rw [hexisting]
    exact storing_fate
  · exact storing_fate

end Fates

theorem code_keeps {call : UpdateCall} {id : String} {db : Db} :
    call.code.Holds (Keeps id) (Keeps id) (fun _ _ => True) db := by
  -- whatever the others do, a section leaves the roles that are there
  have hread {α : Type} {f : Db → α} {db : Db} : (Prog.read f).Holds (fun _ _ => True)
      (fun s t => s.HasRole id → t.HasRole id) (fun _ _ => True) db :=
    Prog.holds_read.mpr fun _ _ => ⟨fun h => h, trivial⟩
  have hreplace (id' : String) (patched : Role) (db : Db) :
      (replacePermissions call.uid call.input id' patched).Holds (fun _ _ => True)
        (fun s t => s.HasRole id → t.HasRole id) (fun _ _ => True) db := by
    refine replacePermissions_keeps_roles.mono (fun _ _ h => h) ?_ (fun _ _ h => h)
    intro s t hroles h
    rw [Db.hasRole_iff, hroles]
    exact Db.hasRole_iff.mp h
  have hupdate (id' : String) (db : Db) :
      (RoleRepository.update id' call.input.patch).Holds (fun _ _ => True)
        (fun s t => s.HasRole id → t.HasRole id) (fun _ _ => True) db := by
    refine Prog.Holds.bind_any hread fun existing t => ?_
    cases existing with
    | none => trivial
    | some existing =>
      exact Prog.holds_atomic.mpr fun t _ => ⟨Db.hasRole_updateRole.mpr, trivial⟩
  have hcheck (found : Option Role) (db : Db) :
      (checkUpdate call.uid call.input found).Holds (fun _ _ => True)
        (fun s t => s.HasRole id → t.HasRole id) (fun _ _ => True) db := by
    cases found with
    | none => trivial
    | some existing =>
      rw [checkUpdate]
      split
      · trivial
      · split
        · trivial
        · refine Prog.Holds.bind_any (hupdate existing.id db) fun patched t => ?_
          cases patched with
          | none => trivial
          | some patched => exact hreplace existing.id patched t
  have hfind (db : Db) : (findAcrossScopes call.input.orgId call.input.roleUid).Holds
      (fun _ _ => True) (fun s t => s.HasRole id → t.HasRole id) (fun _ _ => True) db := by
    refine Prog.Holds.bind_any hread fun found t => ?_
    cases found with
    | none => exact hread
    | some role => trivial
  have hcode : call.code.Holds (fun _ _ => True) (fun s t => s.HasRole id → t.HasRole id)
      (fun _ _ => True) db := Prog.Holds.bind_any (hfind db) hcheck
  exact hcode.given (P := fun t => t.HasRole id) (fun _ _ h => ⟨trivial, h⟩)
    fun _ _ hs h => h hs

/-! ## Both calls armed -/

structure BothBound (id : String) (i j : ℕ) (call call' : UpdateCall) (c : UpdateConfig) :
    Prop where
  role : c.st.HasRole id
  all : ∀ (m : ℕ) (th : UpdateThread), c.threads[m]? = some th →
    th.prog.Holds (Keeps id) (Keeps id)
      (fun r _ => (m = i → Fate call r) ∧ (m = j → Fate call' r)) c.st

theorem BothBound.next {id : String} {i j m : ℕ} {call call' : UpdateCall}
    {c c' : UpdateConfig} (h : BothBound id i j call call' c)
    (hn : c.next UpdateCall.code (.step m) = some c') : BothBound id i j call call' c' := by
  obtain ⟨hrole, hall⟩ := Config.keep_next (P := fun t => t.HasRole id)
    (Q := fun m r => (m = i → Fate call r) ∧ (m = j → Fate call' r)) h.role h.all hn
  exact ⟨hrole, hall⟩

structure Kept (id : String) (c : UpdateConfig) : Prop where
  role : c.st.HasRole id
  all : ∀ (m : ℕ) (th : UpdateThread), c.threads[m]? = some th →
    th.prog.Holds (Keeps id) (Keeps id) (fun _ _ => True) c.st

theorem Kept.next {id : String} {m : ℕ} {c c' : UpdateConfig} (h : Kept id c)
    (hn : c.next UpdateCall.code (.step m) = some c') : Kept id c' := by
  obtain ⟨hrole, hall⟩ := Config.keep_next (P := fun t => t.HasRole id)
    (Q := fun _ _ => True) h.role h.all hn
  exact ⟨hrole, hall⟩

theorem bothBound_of_armed {id : String} {i j : ℕ} {th th' : UpdateThread} {c : UpdateConfig}
    (hkept : Kept id c) (hne : i ≠ j) (hi : c.threads[i]? = some th)
    (hj : c.threads[j]? = some th') (h : UpdateThread.Armed id th)
    (h' : UpdateThread.Armed id th') : BothBound id i j th.op th'.op c := by
  refine ⟨hkept.role, fun m t hm => ?_⟩
  by_cases hmi : m = i
  · subst hmi
    cases hi.symm.trans hm
    exact (armed_fate h).post fun r _ hr => ⟨fun _ => hr, fun hmj => absurd hmj hne⟩
  · by_cases hmj : m = j
    · subst hmj
      cases hj.symm.trans hm
      exact (armed_fate h').post fun r _ hr => ⟨fun heq => absurd heq hmi, fun _ => hr⟩
    · exact (hkept.all m t hm).post fun r _ _ =>
        ⟨fun heq => absurd heq hmi, fun heq => absurd heq hmj⟩

/-! ## One armed call at a time -/

def UpdateCall.Matches (call : UpdateCall) (role : Role) : Prop :=
  isProtected role.name = false ∧ role.version = call.input.version

theorem checkUpdate_of_matches {call : UpdateCall} {role : Role} (h : call.Matches role) :
    checkUpdate call.uid call.input (some role) = applyUpdate call.uid call.input role.id := by
  rw [checkUpdate, h.1, if_neg (by decide), if_neg (not_not.mpr h.2)]

theorem checkUpdate_of_not_matches {call : UpdateCall} {role : Role} (h : ¬ call.Matches role) :
    ∃ e, checkUpdate call.uid call.input (some role) = .fail e := by
  rw [checkUpdate]
  split
  · exact ⟨_, rfl⟩
  · rename_i hname
    split
    · exact ⟨_, rfl⟩
    · rename_i hversion
      exact absurd ⟨Bool.eq_false_iff.mpr hname, not_not.mp hversion⟩ h

/-- What a call is before any `UPDATE`: it has yet to read, it is armed, or it was
refused. -/
def Before (db : Db) (role : Role) (th : UpdateThread) : Prop :=
  th.prog = th.op.code ∨
  (th.prog = th.op.secondRead ∧
    db.findRoleByUid th.op.input.orgId th.op.input.roleUid = none) ∨
  (UpdateThread.Armed role.id th ∧ th.op.Matches role) ∨
  ((∃ e, th.prog = .fail e) ∧ ¬ th.op.Matches role)

/-- No `UPDATE` was executed, so the state is the first one. -/
structure Undecided (db : Db) (role : Role) (version : ℕ) (c : UpdateConfig) : Prop where
  st : c.st = db
  calls : ∀ (j : ℕ) (th : UpdateThread), c.threads[j]? = some th →
    th.op.target db = some role ∧ th.op.input.version = version ∧ Before db role th

def UpdateCall.Stale (call : UpdateCall) (db : Db) : Prop :=
  ∃ r, call.target db = some r ∧ isProtected r.name = false ∧ r.version ≠ call.input.version

/-- What the other call is after the `UPDATE`. -/
def After (db : Db) (th : UpdateThread) : Prop :=
  (th.prog = th.op.code ∧ th.op.Stale db) ∨
  (th.prog = th.op.secondRead ∧ th.op.Stale db ∧
    db.findRoleByUid th.op.input.orgId th.op.input.roleUid = none) ∨
  th.prog = .fail versionMismatch

/-- Call `i` executed its `UPDATE`; what is left of it is on its own with the
permissions. -/
structure DecidedBy (db : Db) (id : String) (i : ℕ) (call : UpdateCall) (c : UpdateConfig) :
    Prop where
  winner : ∃ p, c.threads[i]? = some ⟨call, p⟩ ∧
    p.Holds (fun _ _ => True) (fun s t => t.roles = s.roles) (fun _ _ => True) c.st ∧
    ∀ r db', p.run c.st = (.ok r, db') → db'.grants id = call.wanted db id
  others : ∀ (j : ℕ) (th : UpdateThread), j ≠ i → c.threads[j]? = some th → After c.st th

theorem checkUpdate_of_stale {call : UpdateCall} {r : Role} (hname : isProtected r.name = false)
    (hversion : r.version ≠ call.input.version) :
    checkUpdate call.uid call.input (some r) = .fail versionMismatch := by
  rw [checkUpdate, hname, if_neg (by decide), if_pos hversion]
  rfl

theorem After.congr {db db' : Db} {th : UpdateThread} (hroles : db'.roles = db.roles)
    (h : After db th) : After db' th := by
  have huid (orgId uid : String) : db'.findRoleByUid orgId uid = db.findRoleByUid orgId uid := by
    rw [Db.findRoleByUid, Db.findRoleByUid, hroles]
  have htarget : th.op.target db' = th.op.target db := by
    rw [UpdateCall.target, UpdateCall.target, Db.findRole, Db.findRole, huid, huid]
  rcases h with ⟨hp, hstale⟩ | ⟨hp, hstale, hnone⟩ | hp
  · exact Or.inl ⟨hp, by rw [UpdateCall.Stale, htarget]; exact hstale⟩
  · exact Or.inr (Or.inl ⟨hp, by rw [UpdateCall.Stale, htarget]; exact hstale,
      by rw [huid]; exact hnone⟩)
  · exact Or.inr (Or.inr hp)

theorem After.section {db : Db} {call : UpdateCall} {f : Db → Db}
    {k : Db → Prog Db (Role × List Permission)}
    (h : After db ⟨call, .sect f k⟩) : f db = db ∧ After db ⟨call, k db⟩ := by
  rcases h with ⟨hp, hstale⟩ | ⟨hp, hstale, hnone⟩ | hp
  · obtain ⟨hf, hk⟩ := section_ready db hp
    refine ⟨hf, ?_⟩
    obtain ⟨r, htarget, hname, hversion⟩ := hstale
    cases hfind : db.findRoleByUid call.input.orgId call.input.roleUid with
    | none =>
      rw [hfind] at hk
      exact Or.inr (Or.inl ⟨hk, ⟨r, htarget, hname, hversion⟩, hfind⟩)
    | some found =>
      rw [hfind] at hk
      have hfound : found = r := by
        rw [UpdateCall.target, Db.findRole, hfind] at htarget
        exact Option.some.inj htarget
      subst hfound
      exact Or.inr (Or.inr (hk.trans (checkUpdate_of_stale hname hversion)))
  · obtain ⟨hf, hk⟩ := section_second db hp
    refine ⟨hf, ?_⟩
    obtain ⟨r, htarget, hname, hversion⟩ := hstale
    have hsecond : db.findRoleByUid "" call.input.roleUid = some r := by
      rw [UpdateCall.target, Db.findRole, hnone] at htarget
      exact htarget
    rw [hsecond] at hk
    exact Or.inr (Or.inr (hk.trans (checkUpdate_of_stale hname hversion)))
  · cases hp

theorem DecidedBy.next {db : Db} {id : String} {i m : ℕ} {call : UpdateCall}
    {c c' : UpdateConfig} (h : DecidedBy db id i call c)
    (hn : c.next UpdateCall.code (.step m) = some c') : DecidedBy db id i call c' := by
  obtain ⟨p, hi, hkeeps, hrun⟩ := h.winner
  obtain ⟨op, f, k, hm, hst, hm', hother⟩ := Config.next_step_threads hn
  by_cases hmi : m = i
  · subst hmi
    cases hi.symm.trans hm
    obtain ⟨hroles, hk⟩ := hkeeps c.st trivial
    refine ⟨⟨k c.st, hm', ?_, ?_⟩, fun j th hji hj => ?_⟩
    · rw [hst]
      exact hk
    · rw [hst]
      exact hrun
    · rw [hst]
      exact (h.others j th hji ((hother j hji).symm.trans hj)).congr hroles
  · obtain ⟨hf, hafter⟩ := (h.others m _ hmi hm).section
    rw [hf] at hst
    refine ⟨⟨p, ?_, ?_, ?_⟩, fun j th hji hj => ?_⟩
    · rw [hother i (Ne.symm hmi)]
      exact hi
    · rw [hst]
      exact hkeeps
    · rw [hst]
      exact hrun
    · rw [hst]
      by_cases hjm : j = m
      · subst hjm
        cases hm'.symm.trans hj
        exact hafter
      · exact h.others j th hji ((hother j hjm).symm.trans hj)

theorem Before.section {db : Db} {role : Role} {call : UpdateCall} {f : Db → Db}
    {k : Db → Prog Db (Role × List Permission)} (htarget : call.target db = some role)
    (h : Before db role ⟨call, .sect f k⟩) :
    (f db = db ∧ Before db role ⟨call, k db⟩) ∨
    (call.Matches role ∧ ∃ details, Prog.sect f k = call.storing role.id details) := by
  -- the role was found: the call is armed or refused
  have hchecked {p : Prog Db (Role × List Permission)}
      (hp : p = checkUpdate call.uid call.input (some role)) : Before db role ⟨call, p⟩ := by
    by_cases hmatch : call.Matches role
    · rw [checkUpdate_of_matches hmatch] at hp
      exact Or.inr (Or.inr (Or.inl ⟨Or.inl hp, hmatch⟩))
    · obtain ⟨e, he⟩ := checkUpdate_of_not_matches hmatch
      exact Or.inr (Or.inr (Or.inr ⟨⟨e, hp.trans he⟩, hmatch⟩))
  rcases h with hp | ⟨hp, hnone⟩ | ⟨hp | ⟨details, hp⟩, hmatch⟩ | ⟨⟨e, hp⟩, -⟩
  · obtain ⟨hf, hk⟩ := section_ready db hp
    refine Or.inl ⟨hf, ?_⟩
    cases hfind : db.findRoleByUid call.input.orgId call.input.roleUid with
    | none =>
      rw [hfind] at hk
      exact Or.inr (Or.inl ⟨hk, hfind⟩)
    | some found =>
      rw [hfind] at hk
      have hfound : found = role := by
        rw [UpdateCall.target, Db.findRole, hfind] at htarget
        exact Option.some.inj htarget
      subst hfound
      exact hchecked hk
  · obtain ⟨hf, hk⟩ := section_second db hp
    have hsecond : db.findRoleByUid "" call.input.roleUid = some role := by
      rw [UpdateCall.target, Db.findRole, hnone] at htarget
      exact htarget
    rw [hsecond] at hk
    exact Or.inl ⟨hf, hchecked hk⟩
  · obtain ⟨hf, hk⟩ := section_apply db hp
    obtain ⟨existing, hexisting⟩ :=
      Option.isSome_iff_exists.mp (Db.hasRole_of_findRole htarget)
    rw [hexisting] at hk
    exact Or.inl ⟨hf, Or.inr (Or.inr (Or.inl ⟨Or.inr ⟨_, hk⟩, hmatch⟩))⟩
  · exact Or.inr ⟨hmatch, details, hp⟩
  · cases hp

theorem After.of_before {db : Db} {role : Role} {details : RoleDetails} {th : UpdateThread}
    (htarget : th.op.target db = some role) (hmatch : th.op.Matches role)
    (hbefore : Before db role th) (hidle : ¬ UpdateThread.Armed role.id th) :
    After (db.updateRole role.id details) th := by
  have hstale : th.op.Stale (db.updateRole role.id details) := by
    refine ⟨Db.bumped role.id details role, ?_, ?_, ?_⟩
    · rw [UpdateCall.target, Db.findRole_updateRole]
      rw [UpdateCall.target] at htarget
      rw [htarget]
      rfl
    · simpa [Db.bumped] using hmatch.1
    · have hversion : (Db.bumped role.id details role).version = role.version + 1 := by
        simp [Db.bumped]
      rw [hversion, ← hmatch.2]
      omega
  rcases hbefore with hp | ⟨hp, hnone⟩ | ⟨harmed, -⟩ | ⟨-, hnot⟩
  · exact Or.inl ⟨hp, hstale⟩
  · refine Or.inr (Or.inl ⟨hp, hstale, ?_⟩)
    rw [Db.findRoleByUid_updateRole, hnone]
    rfl
  · exact absurd harmed hidle
  · exact absurd hmatch hnot

theorem Undecided.next {db : Db} {role : Role} {version m : ℕ} {c c' : UpdateConfig}
    (h : Undecided db role version c) (hone : OneArmed role.id c)
    (hn : c.next UpdateCall.code (.step m) = some c') :
    Undecided db role version c' ∨ ∃ i call, DecidedBy db role.id i call c' := by
  obtain ⟨call, f, k, hm, hst, hm', hother⟩ := Config.next_step_threads hn
  obtain ⟨htarget, hversion, hbefore⟩ := h.calls m _ hm
  rw [h.st] at hst hm'
  rcases hbefore.section htarget with ⟨hf, hnext⟩ | ⟨hmatch, details, hp⟩
  · refine Or.inl ⟨hst.trans hf, fun j th hj => ?_⟩
    by_cases hjm : j = m
    · subst hjm
      cases hm'.symm.trans hj
      exact ⟨htarget, hversion, hnext⟩
    · exact h.calls j th ((hother j hjm).symm.trans hj)
  · right
    have harmed : UpdateThread.Armed role.id ⟨call, .sect f k⟩ := Or.inr ⟨details, hp⟩
    obtain ⟨hf, hk⟩ := section_storing db hp
    have hrole : (db.updateRole role.id details).HasRole role.id :=
      Db.hasRole_updateRole.mpr (Db.hasRole_of_findRole htarget)
    obtain ⟨patched, hpatched⟩ := Option.isSome_iff_exists.mp hrole
    rw [hpatched] at hk
    rw [hf] at hst
    rw [hk] at hm'
    refine ⟨m, call, ⟨_, hm', replacePermissions_keeps_roles, fun r db' hrun => ?_⟩,
      fun j th hjm hj => ?_⟩
    · rw [hst] at hrun
      exact run_replacePermissions hrole hrun
    · rw [hother j hjm] at hj
      obtain ⟨htarget', hversion', hbefore'⟩ := h.calls j th hj
      rw [hst]
      refine After.of_before htarget' ⟨hmatch.1, ?_⟩ hbefore' ?_
      · rw [hversion', ← hversion]
        exact hmatch.2
      · exact fun harmed' => hjm (hone j m _ _ hj hm harmed' harmed)

theorem DecidedBy.noLostUpdate {db : Db} {id : String} {i : ℕ} {call : UpdateCall}
    {c : UpdateConfig} (h : DecidedBy db id i call c)
    (hdone : ∀ th ∈ c.threads, th.prog.finished = true) : NoLostUpdate db id c := by
  have hothers (j : ℕ) (th : UpdateThread) (hji : j ≠ i) (hj : c.threads[j]? = some th) :
      th.prog = .fail versionMismatch := by
    have hfin := hdone th (List.mem_of_getElem? hj)
    rcases h.others j th hji hj with ⟨hp, -⟩ | ⟨hp, -, -⟩ | hp
    · rw [hp] at hfin
      cases hfin
    · rw [hp] at hfin
      cases hfin
    · exact hp
  intro m call' r hm
  by_cases hmi : m = i
  · subst hmi
    obtain ⟨p, hi, -, hrun⟩ := h.winner
    cases hi.symm.trans hm
    exact ⟨hothers, hrun r c.st rfl⟩
  · have := hothers m _ hmi hm
    cases this

theorem Undecided.noLostUpdate {db : Db} {role : Role} {version : ℕ} {c : UpdateConfig}
    (h : Undecided db role version c) : NoLostUpdate db role.id c := by
  intro m call r hm
  obtain ⟨-, -, hp | ⟨hp, -⟩ | ⟨hp | ⟨details, hp⟩, -⟩ | ⟨⟨e, hp⟩, -⟩⟩ := h.calls m _ hm
  all_goals cases hp

/-! ## Schedules of two calls -/

def updateStart (db : Db) (call call' : UpdateCall) : UpdateConfig :=
  ⟨db, [⟨call, call.code⟩, ⟨call', call'.code⟩]⟩

section Schedules

variable {db : Db} {role : Role} {version : ℕ}

theorem decided_of_allOk (sched : List ℕ) :
    ∀ {c c' : UpdateConfig}, (Undecided db role version c ∨ ∃ i call, DecidedBy db role.id i call c) →
      AllOk UpdateCall.code (fun c _ => OneArmed role.id c) c (sched.map .step) →
      c.exec UpdateCall.code (sched.map .step) = some c' →
      Undecided db role version c' ∨ ∃ i call, DecidedBy db role.id i call c' := by
  induction sched with
  | nil =>
    intro c c' h _ hexec
    cases hexec
    exact h
  | cons m sched ih =>
    intro c c' h hok hexec
    obtain ⟨d, hn, hd⟩ := Option.bind_eq_some_iff.mp hexec
    refine ih ?_ (hok.2 d hn) hd
    rcases h with hu | ⟨i, call, hdec⟩
    · exact hu.next hok.1 hn
    · exact Or.inr ⟨i, call, hdec.next hn⟩

theorem bothBound_exec {id : String} {i j : ℕ} {call call' : UpdateCall} (sched : List ℕ) :
    ∀ {c c' : UpdateConfig}, BothBound id i j call call' c →
      c.exec UpdateCall.code (sched.map .step) = some c' → BothBound id i j call call' c' := by
  induction sched with
  | nil =>
    intro c c' h hexec
    cases hexec
    exact h
  | cons m sched ih =>
    intro c c' h hexec
    obtain ⟨d, hn, hd⟩ := Option.bind_eq_some_iff.mp hexec
    exact ih (h.next hn) hd

theorem bothBound_of_not_allOk {id : String} (sched : List ℕ) :
    ∀ {c c' : UpdateConfig}, Kept id c → c.exec UpdateCall.code (sched.map .step) = some c' →
      ¬ AllOk UpdateCall.code (fun c _ => OneArmed id c) c (sched.map .step) →
      ∃ i j call call', i ≠ j ∧ (c.threads.map (·.op))[i]? = some call ∧
        (c.threads.map (·.op))[j]? = some call' ∧ BothBound id i j call call' c' := by
  induction sched with
  | nil => exact fun _ _ h => absurd trivial h
  | cons m sched ih =>
    intro c c' hkept hexec h
    obtain ⟨d, hn, hd⟩ := Option.bind_eq_some_iff.mp hexec
    by_cases hone : OneArmed id c
    · have hrest : ¬ AllOk UpdateCall.code (fun c _ => OneArmed id c) d (sched.map .step) := by
        refine fun hall => h ⟨hone, fun d' hd' => ?_⟩
        cases hn.symm.trans hd'
        exact hall
      have hops : d.threads.map (·.op) = c.threads.map (·.op) := Config.next_step_ops hn
      rw [← hops]
      exact ih (hkept.next hn) hd hrest
    · simp only [OneArmed, not_forall] at hone
      obtain ⟨i, j, th, th', hi, hj, harmed, harmed', hne⟩ := hone
      refine ⟨i, j, th.op, th'.op, hne, ?_, ?_, ?_⟩
      · rw [List.getElem?_map, hi]
        rfl
      · rw [List.getElem?_map, hj]
        rfl
      · exact bothBound_exec sched
          ((bothBound_of_armed hkept hne hi hj harmed harmed').next hn) hd

end Schedules

theorem ops_exec {c c' : UpdateConfig} (sched : List ℕ) :
    c.exec UpdateCall.code (sched.map .step) = some c' →
      c'.threads.map (·.op) = c.threads.map (·.op) := by
  induction sched generalizing c with
  | nil =>
    intro hexec
    cases hexec
    rfl
  | cons m sched ih =>
    intro hexec
    obtain ⟨d, hn, hd⟩ := Option.bind_eq_some_iff.mp hexec
    exact (ih hd).trans (Config.next_step_ops hn)

theorem BothBound.symm {id : String} {i j : ℕ} {call call' : UpdateCall} {c : UpdateConfig}
    (h : BothBound id i j call call' c) : BothBound id j i call' call c :=
  ⟨h.role, fun m th hm => (h.all m th hm).post fun _ _ hr => hr.symm⟩

def Ends (p : Prog Db (Role × List Permission)) (r : Except String (Role × List Permission)) :
    Prop :=
  p = match r with | .ok a => .ret a | .error e => .fail e

theorem BothBound.fate {id : String} {i j : ℕ} {call call' : UpdateCall} {c : UpdateConfig}
    (h : BothBound id i j call call' c) {th : UpdateThread} (hi : c.threads[i]? = some th)
    (hdone : th.prog.finished = true) : ∃ r, Ends th.prog r ∧ Fate call r := by
  have hall := h.all i th hi
  cases hp : th.prog with
  | ret a =>
    rw [hp] at hall
    exact ⟨.ok a, rfl, hall.1 rfl⟩
  | fail e =>
    rw [hp] at hall
    exact ⟨.error e, rfl, hall.1 rfl⟩
  | sect f k =>
    rw [hp] at hdone
    cases hdone

/-- Two calls that were armed at once: each returns exactly if it is accepted, and
neither throws a conflict. -/
structure BothFates (call call' : UpdateCall) (c : UpdateConfig) : Prop where
  ends : ∃ p p' r r', c.threads = [⟨call, p⟩, ⟨call', p'⟩] ∧ Ends p r ∧ Ends p' r' ∧
    Fate call r ∧ Fate call' r'

theorem bothFates_of_not_allOk {db : Db} {role : Role} {call call' : UpdateCall}
    {sched : List ℕ} {c : UpdateConfig} (htarget : call.target db = some role)
    (hexec : (updateStart db call call').exec UpdateCall.code (sched.map .step) = some c)
    (hdone : ∀ th ∈ c.threads, th.prog.finished = true)
    (hnot : ¬ AllOk UpdateCall.code (fun c _ => OneArmed role.id c) (updateStart db call call')
      (sched.map .step)) : BothFates call call' c := by
  have hkept : Kept role.id (updateStart db call call') := by
    refine ⟨Db.hasRole_of_findRole htarget, fun m th hm => ?_⟩
    have hmem := List.mem_of_getElem? hm
    rw [updateStart, List.mem_cons, List.mem_singleton] at hmem
    rcases hmem with rfl | rfl
    · exact code_keeps
    · exact code_keeps
  have hbound : BothBound role.id 0 1 call call' c := by
    obtain ⟨i, j, a, b, hne, hi, hj, hbound⟩ := bothBound_of_not_allOk sched hkept hexec hnot
    match i, j, hne with
    | 0, 1, _ =>
      cases hi
      cases hj
      exact hbound
    | 1, 0, _ =>
      cases hi
      cases hj
      exact hbound.symm
    | 0, 0, hne => exact absurd rfl hne
    | 1, 1, hne => exact absurd rfl hne
    | i + 2, _, _ => cases hi
    | _, j + 2, _ => cases hj
  have hops : c.threads.map (·.op) = [call, call'] := ops_exec sched hexec
  obtain ⟨th, th', hthreads⟩ : ∃ th th' : UpdateThread, c.threads = [th, th'] := by
    have hlen := congrArg List.length hops
    rw [List.length_map] at hlen
    exact List.length_eq_two.mp hlen
  rw [hthreads] at hops
  obtain ⟨p, hp⟩ : ∃ p, th = ⟨call, p⟩ := ⟨th.prog, by cases hops; rfl⟩
  obtain ⟨p', hp'⟩ : ∃ p', th' = ⟨call', p'⟩ := ⟨th'.prog, by cases hops; rfl⟩
  subst hp hp'
  have h₀ : c.threads[0]? = some ⟨call, p⟩ := by rw [hthreads]; rfl
  have h₁ : c.threads[1]? = some ⟨call', p'⟩ := by rw [hthreads]; rfl
  obtain ⟨r, hends, hfate⟩ := hbound.fate h₀ (hdone _ (List.mem_of_getElem? h₀))
  obtain ⟨r', hends', hfate'⟩ := hbound.symm.fate h₁ (hdone _ (List.mem_of_getElem? h₁))
  exact ⟨p, p', r, r', hthreads, hends, hends', hfate, hfate'⟩

theorem BothFates.noLostUpdate {db : Db} {id : String} {call call' : UpdateCall}
    {c : UpdateConfig} (h : BothFates call call' c) (hrej : call.accepts = false)
    (hrej' : call'.accepts = false) : NoLostUpdate db id c := by
  obtain ⟨p, p', r, r', hthreads, hends, hends', hfate, hfate'⟩ := h.ends
  -- a call that returned was accepted
  have hno {call : UpdateCall} {p : Prog Db (Role × List Permission)}
      {r : Except String (Role × List Permission)} (hends : Ends p r)
      (hfate : Fate call r) (hrej : call.accepts = false) (a : Role × List Permission) :
      p ≠ .ret a := by
    rintro rfl
    cases r with
    | ok a' =>
      have hacc := hfate.1.mpr ⟨a', rfl⟩
      rw [hrej] at hacc
      cases hacc
    | error e => cases hends
  intro m op a hm
  have hmem := List.mem_of_getElem? hm
  rw [hthreads, List.mem_cons, List.mem_singleton] at hmem
  rcases hmem with heq | heq
  · cases heq
    exact absurd rfl (hno hends hfate hrej a)
  · cases heq
    exact absurd rfl (hno hends' hfate' hrej' a)

theorem BothFates.lost {db : Db} {id : String} {call call' : UpdateCall} {c : UpdateConfig}
    (h : BothFates call call' c) (hacc : call.accepts = true ∨ call'.accepts = true) :
    ¬ NoLostUpdate db id c := by
  obtain ⟨p, p', r, r', hthreads, hends, hends', hfate, hfate'⟩ := h.ends
  have hconflict {call : UpdateCall} {p : Prog Db (Role × List Permission)}
      {r : Except String (Role × List Permission)} (hends : Ends p r)
      (hfate : Fate call r) : p ≠ .fail versionMismatch := by
    rintro rfl
    cases r with
    | ok a => cases hends
    | error e =>
      cases hends
      exact hfate.2 rfl
  have h₀ : c.threads[0]? = some ⟨call, p⟩ := by rw [hthreads]; rfl
  have h₁ : c.threads[1]? = some ⟨call', p'⟩ := by rw [hthreads]; rfl
  intro hlost
  rcases hacc with hacc | hacc
  · obtain ⟨a, rfl⟩ := hfate.1.mp hacc
    cases hends
    exact hconflict hends' hfate' ((hlost 0 call a h₀).1 1 _ (by decide) h₁)
  · obtain ⟨a, rfl⟩ := hfate'.1.mp hacc
    cases hends'
    exact hconflict hends hfate ((hlost 1 call' a h₁).1 0 _ (by decide) h₀)

theorem noLostUpdate_of_allOk {db : Db} {role : Role} {call call' : UpdateCall}
    {sched : List ℕ} {c : UpdateConfig} (htarget : call.target db = some role)
    (htarget' : call'.target db = some role)
    (hversion : call.input.version = call'.input.version)
    (hexec : (updateStart db call call').exec UpdateCall.code (sched.map .step) = some c)
    (hdone : ∀ th ∈ c.threads, th.prog.finished = true)
    (hok : AllOk UpdateCall.code (fun c _ => OneArmed role.id c) (updateStart db call call')
      (sched.map .step)) : NoLostUpdate db role.id c := by
  have hstart : Undecided db role call.input.version (updateStart db call call') := by
    refine ⟨rfl, fun j th hj => ?_⟩
    have hmem := List.mem_of_getElem? hj
    rw [updateStart, List.mem_cons, List.mem_singleton] at hmem
    rcases hmem with rfl | rfl
    · exact ⟨htarget, rfl, Or.inl rfl⟩
    · exact ⟨htarget', hversion.symm, Or.inl rfl⟩
  rcases decided_of_allOk sched (Or.inl hstart) hok hexec with hu | ⟨i, op, hdec⟩
  · exact hu.noLostUpdate
  · exact hdec.noLostUpdate hdone

/-- **The version check.** Two calls that update one role with one expected version:
in every finished schedule of their sections, a call that returns has the other throw
the conflict and its permissions stored, if and only if at no time both calls were
armed, or neither request is accepted. -/
theorem noLostUpdate_iff (db : Db) (role : Role) (call call' : UpdateCall)
    (htarget : call.target db = some role) (htarget' : call'.target db = some role)
    (hversion : call.input.version = call'.input.version) (sched : List ℕ) (c : UpdateConfig)
    (hexec : (updateStart db call call').exec UpdateCall.code (sched.map .step) = some c)
    (hdone : ∀ th ∈ c.threads, th.prog.finished = true) :
    NoLostUpdate db role.id c ↔
      AllOk UpdateCall.code (fun c _ => OneArmed role.id c) (updateStart db call call')
        (sched.map .step) ∨
      (call.accepts = false ∧ call'.accepts = false) := by
  constructor
  · intro hlost
    by_contra hcond
    rw [not_or, not_and_or, Bool.not_eq_false, Bool.not_eq_false] at hcond
    exact (bothFates_of_not_allOk htarget hexec hdone hcond.1).lost hcond.2 hlost
  · intro hcond
    by_cases hok : AllOk UpdateCall.code (fun c _ => OneArmed role.id c)
        (updateStart db call call') (sched.map .step)
    · exact noLostUpdate_of_allOk htarget htarget' hversion hexec hdone hok
    · obtain ⟨hrej, hrej'⟩ := hcond.resolve_left hok
      exact (bothFates_of_not_allOk htarget hexec hdone hok).noLostUpdate hrej hrej'

/-! ### One role, two requests -/

def updateDb : Db :=
  { roles := [⟨"r", "org", "dev", "dev", 3, {}⟩]
    permissions := [⟨"p", "r", "dashboards:read", "dashboards:*"⟩] }

def updateTo (action : String) : UpdateCall :=
  ⟨fun _ => action, ⟨"dev", "org", 3, {}, some [⟨action, none⟩]⟩⟩

/-- A request whose list is refused, after the `UPDATE`. -/
def updateToBlank : UpdateCall := ⟨fun _ => "", ⟨"dev", "org", 3, {}, some [⟨"", none⟩]⟩⟩

theorem noLostUpdate_both_refused :
    ∃ c, (updateStart updateDb updateToBlank updateToBlank).exec UpdateCall.code
        ([0, 1, 0, 1, 0, 1].map .step) = some c ∧ NoLostUpdate updateDb "r" c := by
  have hexec : ((updateStart updateDb updateToBlank updateToBlank).exec UpdateCall.code
      ([0, 1, 0, 1, 0, 1].map .step)).any (fun c => c.threads.all (·.prog.finished)) = true := by
    decide +kernel
  obtain ⟨c, hc, hfin⟩ := (Option.any_eq_true _ _).mp hexec
  exact ⟨c, hc, (noLostUpdate_iff updateDb ⟨"r", "org", "dev", "dev", 3, {}⟩ updateToBlank
    updateToBlank rfl rfl rfl [0, 1, 0, 1, 0, 1] c hc (by simpa using hfin)).mpr
    (Or.inr ⟨by decide, by decide⟩)⟩

/-- **A lost update.** Both calls read version 3; then both store, both replace the
permissions and both return. -/
theorem both_updates_return :
    ¬ ∀ (db : Db) (role : Role) (call call' : UpdateCall), call.target db = some role →
      call'.target db = some role → call.input.version = call'.input.version →
      ∀ (sched : List ℕ) (c : UpdateConfig),
      (updateStart db call call').exec UpdateCall.code (sched.map .step) = some c →
      (∀ th ∈ c.threads, th.prog.finished = true) → NoLostUpdate db role.id c := by
  intro h
  have hexec : ((updateStart updateDb (updateTo "plans:read") (updateTo "plans:approve")).exec
      UpdateCall.code ([0, 1, 0, 1, 0, 1, 0, 1, 0, 1].map .step)).any (fun c =>
        c.threads.all (fun th => th.prog matches .ret _) && (c.threads.length == 2)) = true := by
    decide +kernel
  obtain ⟨c, hc, hcond⟩ := (Option.any_eq_true _ _).mp hexec
  rw [Bool.and_eq_true, List.all_eq_true, beq_iff_eq] at hcond
  obtain ⟨hret, hlen⟩ := hcond
  have hfin : ∀ th ∈ c.threads, th.prog.finished = true := by
    intro th hth
    have := hret th hth
    split at this
    · rename_i heq
      rw [heq]
      rfl
    · cases this
  have hlost := h updateDb _ (updateTo "plans:read") (updateTo "plans:approve") rfl rfl rfl _ c
    hc hfin
  obtain ⟨th, th', hthreads⟩ := List.length_eq_two.mp hlen
  obtain ⟨op, p⟩ := th
  obtain ⟨op', p'⟩ := th'
  have h₀ := hret ⟨op, p⟩ (by rw [hthreads]; simp)
  have h₁ := hret ⟨op', p'⟩ (by rw [hthreads]; simp)
  cases p with
  | ret a =>
    have := (hlost 0 op a (by rw [hthreads]; rfl)).1 1 ⟨op', p'⟩ (by decide)
      (by rw [hthreads]; rfl)
    rw [this] at h₁
    cases h₁
  | fail e => cases h₀
  | sect f k => cases h₀

end OpenObs.Rbac
