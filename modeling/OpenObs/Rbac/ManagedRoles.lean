import OpenObs.Rbac.ResourcePermissions

/-!
# Managed roles

One round of `setBulk`, run alone: the managed role is found or created, the rows at the scope
become those of the level, and the role is assigned.
-/

namespace OpenObs.Rbac

open OpenObs.Foundation

/-! ## Texts that name a principal or a resource -/

theorem append_ne_append {a b : String} (n : ℕ) {c d : Char} (ha : a.toList[n]? = some c)
    (hb : b.toList[n]? = some d) (hcd : c ≠ d) (s t : String) : a ++ s ≠ b ++ t := by
  intro h
  have hchars : (a.toList ++ s.toList)[n]? = (b.toList ++ t.toList)[n]? := by
    rw [← String.toList_append, ← String.toList_append, h]
  rw [List.getElem?_append_left (List.getElem?_eq_some_iff.mp ha).1, ha,
    List.getElem?_append_left (List.getElem?_eq_some_iff.mp hb).1, hb] at hchars
  exact hcd (Option.some.inj hchars)

theorem principalKey_injective {p q : GrantPrincipal} (h : principalKey p = principalKey q) :
    p = q := by
  cases p with
  | user u =>
    cases q with
    | user v => rw [(String.append_right_inj _).mp h]
    | team v => exact absurd h (append_ne_append 0 rfl rfl (by decide) u v)
    | role r => exact absurd h (append_ne_append 0 rfl rfl (by decide) u r.text)
  | team t =>
    cases q with
    | user v => exact absurd h (append_ne_append 0 rfl rfl (by decide) t v)
    | team v => rw [(String.append_right_inj _).mp h]
    | role r => exact absurd h (append_ne_append 0 rfl rfl (by decide) t r.text)
  | role r =>
    cases q with
    | user v => exact absurd h (append_ne_append 0 rfl rfl (by decide) r.text v)
    | team v => exact absurd h (append_ne_append 0 rfl rfl (by decide) r.text v)
    | role r' => cases r <;> cases r' <;> first | rfl | exact absurd h (by decide)

theorem managedRoleNameFor_injective {p q : GrantPrincipal}
    (h : managedRoleNameFor p = managedRoleNameFor q) : p = q := by
  have hne {a b : String} {c d : Char} (s t u v : String) (ha : a.toList[8]? = some c)
      (hb : b.toList[8]? = some d) (hcd : c ≠ d) : a ++ s ++ u ≠ b ++ t ++ v := by
    rw [String.append_assoc, String.append_assoc]
    exact append_ne_append 8 ha hb hcd (s ++ u) (t ++ v)
  cases p with
  | user u =>
    cases q with
    | user v => rw [(String.append_right_inj _).mp ((String.append_left_inj _).mp h)]
    | team v => exact absurd h (hne u v _ _ rfl rfl (by decide))
    | role r => exact absurd h (hne u r.text _ _ rfl rfl (by decide))
  | team t =>
    cases q with
    | user v => exact absurd h (hne t v _ _ rfl rfl (by decide))
    | team v => rw [(String.append_right_inj _).mp ((String.append_left_inj _).mp h)]
    | role r => exact absurd h (hne t r.text _ _ rfl rfl (by decide))
  | role r =>
    cases q with
    | user v => exact absurd h (hne r.text v _ _ rfl rfl (by decide))
    | team v => exact absurd h (hne r.text v _ _ rfl rfl (by decide))
    | role r' => cases r <;> cases r' <;> first | rfl | exact absurd h (by decide)

theorem managedRoleUidFor_injective {p q : GrantPrincipal}
    (h : managedRoleUidFor p = managedRoleUidFor q) : p = q := by
  cases p with
  | user u =>
    cases q with
    | user v => rw [(String.append_right_inj _).mp h]
    | team v => exact absurd h (append_ne_append 8 rfl rfl (by decide) u v)
    | role r => exact absurd h (append_ne_append 8 rfl rfl (by decide) u r.lower)
  | team t =>
    cases q with
    | user v => exact absurd h (append_ne_append 8 rfl rfl (by decide) t v)
    | team v => rw [(String.append_right_inj _).mp h]
    | role r => exact absurd h (append_ne_append 8 rfl rfl (by decide) t r.lower)
  | role r =>
    cases q with
    | user v => exact absurd h (append_ne_append 8 rfl rfl (by decide) r.lower v)
    | team v => exact absurd h (append_ne_append 8 rfl rfl (by decide) r.lower v)
    | role r' => cases r <;> cases r' <;> first | rfl | exact absurd h (by decide)

def resourceScope (resource : ResourceKind) (uid : String) : String :=
  resource.text ++ ":uid:" ++ uid

theorem resourceScope_injective {r r' : ResourceKind} {u u' : String}
    (h : resourceScope r u = resourceScope r' u') : r = r' ∧ u = u' := by
  have hparts {k k' v v' : String} (hk : ':' ∉ k.toList) (hk' : ':' ∉ k'.toList)
      (heq : k ++ ":uid:" ++ v = k' ++ ":uid:" ++ v') : k = k' ∧ v = v' := by
    have hcolon (w x : String) : w ++ ":uid:" ++ x = w ++ String.singleton ':' ++ ("uid:" ++ x) := by
      simp [← String.toList_inj]
    rw [hcolon, hcolon] at heq
    have hsplit := congrArg (Text.split · ':') heq
    simp only [Text.split_append, Text.split_of_not_mem hk, Text.split_of_not_mem hk'] at hsplit
    have hkk : k = k' := (List.cons.inj hsplit).1
    rw [hkk] at heq
    exact ⟨hkk, (String.append_right_inj _).mp ((String.append_right_inj _).mp heq)⟩
  have hcolon (k : ResourceKind) : ':' ∉ k.text.toList := by
    cases k <;> decide
  obtain ⟨hk, hu⟩ := hparts (hcolon r) (hcolon r') h
  refine ⟨?_, hu⟩
  cases r <;> cases r' <;> first | rfl | exact absurd hk (by decide)

/-! ## Rows at a scope -/

namespace Db

variable (db : Db)

def rowsAt (roleId scope : String) : List Permission :=
  db.permissions.filter fun r => r.roleId = roleId ∧ r.scope = scope

def managedRole (orgId : String) (p : GrantPrincipal) : Option Role :=
  db.findRoleByName orgId (managedRoleNameFor p)

structure GrantKeys : Prop where
  role_id : (db.roles.map (·.id)).Nodup
  permission_id : (db.permissions.map (·.id)).Nodup
  permission_role : ∀ r ∈ db.permissions, ∃ role ∈ db.roles, role.id = r.roleId

def without (rows : List Permission) : Db :=
  { db with permissions := db.permissions.filter (·.id ∉ rows.map (·.id)) }

def withRows (rows : List Permission) : Db :=
  { db with permissions := db.permissions ++ rows }

end Db

/-- The rows the first loop of `syncActionsForRole` deletes. -/
def unwantedRows (want : List String) : List Permission → List Permission
  | [] => []
  | row :: rows =>
    if row.action ∈ want then unwantedRows (want.erase row.action) rows
    else row :: unwantedRows want rows

def missingActions (want : List String) : List Permission → List String
  | [] => want
  | row :: rows =>
    if row.action ∈ want then missingActions (want.erase row.action) rows
    else missingActions want rows

def newRows (roleId scope : String) (uid : ℕ → String) : List String → List Permission
  | [] => []
  | action :: actions => ⟨uid actions.length, roleId, action, scope⟩ ::
      newRows roleId scope uid actions

section Loops

variable {db : Db}

theorem without_nil : db.without [] = db := by
  simp [Db.without]

theorem without_without {rows rows' : List Permission} :
    (db.without rows).without rows' = db.without (rows ++ rows') := by
  show { db with permissions := List.filter _ (List.filter _ db.permissions) } = _
  rw [List.filter_filter, Db.without]
  have hpred : (fun r : Permission => decide (r.id ∉ rows'.map (·.id)) &&
      decide (r.id ∉ rows.map (·.id))) = fun r => decide (r.id ∉ (rows ++ rows').map (·.id)) := by
    funext r
    rw [List.map_append, ← Bool.decide_and]
    exact decide_eq_decide.mpr (by rw [List.mem_append, not_or, and_comm])
  rw [hpred]

open ResourcePermissionService

theorem run_delete {row : Permission} :
    (PermissionRepository.delete row.id).run db =
      (.ok (db.permissions.find? (·.id = row.id)).isSome, db.without [row]) := by
  rw [PermissionRepository.delete, Prog.run_bind, Prog.run_read]
  cases hrow : db.permissions.find? (·.id = row.id) with
  | none =>
    have hsame : db.permissions.filter (·.id ∉ [row].map (·.id)) = db.permissions := by
      rw [List.filter_eq_self]
      intro r hr
      simpa using List.find?_eq_none.mp hrow r hr
    rw [Db.without, hsame]
    rfl
  | some r =>
    show (_, { db with permissions := db.permissions.filter (·.id ≠ row.id) }) = _
    simp [Db.without]

theorem run_removeUnwanted {rows : List Permission} : ∀ {want : List String} {db : Db},
    (removeUnwanted want rows).run db =
      (.ok (missingActions want rows), db.without (unwantedRows want rows)) := by
  induction rows with
  | nil =>
    intro want db
    rw [unwantedRows, without_nil]
    rfl
  | cons row rows ih =>
    intro want db
    rw [removeUnwanted, unwantedRows, missingActions]
    split
    · exact ih
    · rw [Prog.run_bind, run_delete]
      show (removeUnwanted want rows).run (db.without [row]) = _
      rw [ih, without_without, List.singleton_append]

theorem run_deleteAtScope {scope : String} {rows : List Permission} : ∀ {db : Db},
    (deleteAtScope scope rows).run db =
      (.ok (), db.without (rows.filter (·.scope = scope))) := by
  induction rows with
  | nil =>
    intro db
    rw [List.filter_nil, without_nil]
    rfl
  | cons row rows ih =>
    intro db
    rw [deleteAtScope]
    split
    · rename_i hscope
      rw [Prog.run_bind, run_delete, List.filter_cons, if_pos (decide_eq_true hscope)]
      show (deleteAtScope scope rows).run (db.without [row]) = _
      rw [ih, without_without, List.singleton_append]
    · rename_i hscope
      rw [List.filter_cons, if_neg (by simpa using hscope)]
      exact ih

theorem run_addWanted {roleId scope : String} {uid : ℕ → String} {actions : List String} :
    ∀ {db : Db}, (db.findRoleById roleId).isNone = false →
      (addWanted roleId scope uid actions).run db =
        (.ok (), db.withRows (newRows roleId scope uid actions)) := by
  induction actions with
  | nil =>
    intro db _
    simp [addWanted, newRows, Db.withRows]
  | cons action actions ih =>
    intro db hrole
    rw [addWanted, Prog.run_bind, PermissionRepository.create, Prog.run_attempt, hrole]
    show (addWanted roleId scope uid actions).run (db.withRows [_]) = _
    have hrest := @ih (db.withRows [⟨uid actions.length, roleId, action, scope⟩]) hrole
    rw [hrest, newRows]
    simp [Db.withRows]

end Loops

/-! ## The difference with the stored rows -/

section Difference

theorem unwantedRows_sublist {rows : List Permission} :
    ∀ {want : List String}, (unwantedRows want rows).Sublist rows := by
  induction rows with
  | nil => exact List.Sublist.refl _
  | cons row rows ih =>
    intro want
    rw [unwantedRows]
    split
    · exact ih.cons row
    · exact ih.cons_cons row

theorem kept_append_missing {rows : List Permission} : ∀ {want : List String},
    (rows.map (·.id)).Nodup →
    ((rows.filter fun r => r.id ∉ (unwantedRows want rows).map (·.id)).map (·.action) ++
      missingActions want rows).Perm want := by
  induction rows with
  | nil => exact fun _ => List.Perm.refl _
  | cons row rows ih =>
    intro want hnd
    obtain ⟨hrow, hrows⟩ := List.nodup_cons.mp hnd
    rw [unwantedRows, missingActions]
    split
    · rename_i hwant
      have hstay : row.id ∉ (unwantedRows (want.erase row.action) rows).map (·.id) :=
        fun h => hrow ((unwantedRows_sublist.map _).subset h)
      rw [List.filter_cons, if_pos (decide_eq_true hstay), List.map_cons, List.cons_append]
      exact ((ih hrows).cons row.action).trans (List.perm_cons_erase hwant).symm
    · have hrest : rows.filter (fun r => r.id ∉ (row :: unwantedRows want rows).map (·.id)) =
          rows.filter fun r => r.id ∉ (unwantedRows want rows).map (·.id) := by
        apply List.filter_congr
        intro r hr
        have hne : r.id ≠ row.id := fun h => hrow (List.mem_map.mpr ⟨r, hr, h⟩)
        simp [hne, -List.mem_map]
      rw [List.filter_cons, if_neg (by simp), hrest]
      exact ih hrows

theorem unwantedRows_of_perm {rows : List Permission} : ∀ {want : List String},
    (rows.map (·.action)).Perm want → unwantedRows want rows = [] ∧ missingActions want rows = [] := by
  induction rows with
  | nil => exact fun h => ⟨rfl, List.nil_perm.mp h⟩
  | cons row rows ih =>
    intro want h
    have hmem : row.action ∈ want := h.subset List.mem_cons_self
    rw [unwantedRows, missingActions, if_pos hmem, if_pos hmem]
    exact ih ((List.perm_cons row.action).mp (h.trans (List.perm_cons_erase hmem)))

theorem map_newRows {roleId scope : String} {uid : ℕ → String} {actions : List String} :
    (newRows roleId scope uid actions).map (·.action) = actions := by
  induction actions with
  | nil => rfl
  | cons action actions ih => rw [newRows, List.map_cons, ih]

theorem mem_newRows {roleId scope : String} {uid : ℕ → String} {actions : List String}
    {r : Permission} (h : r ∈ newRows roleId scope uid actions) :
    r.roleId = roleId ∧ r.scope = scope ∧ ∃ n < actions.length, r.id = uid n := by
  induction actions with
  | nil => cases h
  | cons action actions ih =>
    rw [newRows, List.mem_cons] at h
    rcases h with rfl | h
    · exact ⟨rfl, rfl, actions.length, Nat.lt_succ_self _, rfl⟩
    · obtain ⟨hrole, hscope, n, hn, hid⟩ := ih h
      exact ⟨hrole, hscope, n, Nat.lt_succ_of_lt hn, hid⟩

theorem nodup_newRows {roleId scope : String} {uid : ℕ → String} (huid : Function.Injective uid)
    {actions : List String} : ((newRows roleId scope uid actions).map (·.id)).Nodup := by
  induction actions with
  | nil => exact List.nodup_nil
  | cons action actions ih =>
    rw [newRows, List.map_cons, List.nodup_cons]
    refine ⟨fun h => ?_, ih⟩
    obtain ⟨r, hr, hid⟩ := List.mem_map.mp h
    obtain ⟨-, -, n, hn, hrn⟩ := mem_newRows hr
    exact absurd (huid (hrn.symm.trans hid)) (Nat.ne_of_lt hn)

end Difference

/-! ## The rows of one role at one scope -/

/-- The rows of the role at the scope carry the actions, once each; nothing else has
changed. -/
structure Synced (roleId scope : String) (actions : List String) (db db' : Db) : Prop where
  only : db' = { db with permissions := db'.permissions }
  rows : ((db'.rowsAt roleId scope).map (·.action)).Perm actions
  others : ∀ r s, r ≠ roleId ∨ s ≠ scope → db'.rowsAt r s = db.rowsAt r s

structure NewIds (uid : ℕ → String) (db : Db) : Prop where
  injective : Function.Injective uid
  role : ∀ n, uid n ∉ db.roles.map (·.id)
  permission : ∀ n, uid n ∉ db.permissions.map (·.id)

section Sync

open ResourcePermissionService

variable {db : Db} {roleId scope : String}

theorem listPermissionsByRole_perm :
    ((db.listPermissionsByRole roleId).filter (·.scope = scope)).Perm (db.rowsAt roleId scope) := by
  have hsort : (db.listPermissionsByRole roleId).Perm
      (db.permissions.filter (·.roleId ∈ [roleId])) := List.mergeSort_perm _ _
  refine (hsort.filter _).trans (List.Perm.of_eq ?_)
  rw [List.filter_filter, Db.rowsAt]
  apply List.filter_congr
  intro r _
  simp [Bool.and_comm]

theorem eq_of_id (hkeys : db.GrantKeys) {r r' : Permission} (hr : r ∈ db.permissions)
    (hr' : r' ∈ db.permissions) (hid : r.id = r'.id) : r = r' :=
  List.inj_on_of_nodup_map hkeys.permission_id hr hr' hid

theorem rowsAt_without {rows : List Permission} (hkeys : db.GrantKeys)
    (hrows : ∀ r ∈ rows, r ∈ db.rowsAt roleId scope) {r s : String}
    (h : r ≠ roleId ∨ s ≠ scope) : (db.without rows).rowsAt r s = db.rowsAt r s := by
  rw [Db.rowsAt, Db.rowsAt, Db.without, List.filter_filter]
  apply List.filter_congr
  intro row hrow
  by_cases hat : row.roleId = r ∧ row.scope = s
  · have hstay : row.id ∉ rows.map (·.id) := by
      intro hid
      obtain ⟨d, hd, hdid⟩ := List.mem_map.mp hid
      have hdrow := List.mem_filter.mp (hrows d hd)
      have heq := eq_of_id hkeys hdrow.1 hrow hdid
      have hdat : d.roleId = roleId ∧ d.scope = scope := by simpa using hdrow.2
      rw [heq, hat.1, hat.2] at hdat
      rcases h with h | h
      · exact h hdat.1
      · exact h hdat.2
    simp [hat, hstay, -List.mem_map]
  · simp [hat]

theorem rowsAt_withRows {rows : List Permission} (hrows : ∀ r ∈ rows, r.roleId = roleId ∧ r.scope = scope)
    {r s : String} (h : r ≠ roleId ∨ s ≠ scope) : (db.withRows rows).rowsAt r s = db.rowsAt r s := by
  have hnone : rows.filter (fun row => row.roleId = r ∧ row.scope = s) = [] := by
    rw [List.filter_eq_nil_iff]
    intro row hrow hat
    have hat' : row.roleId = r ∧ row.scope = s := by simpa using hat
    rw [(hrows row hrow).1, (hrows row hrow).2] at hat'
    rcases h with h | h
    · exact h hat'.1.symm
    · exact h hat'.2.symm
  rw [Db.rowsAt, Db.withRows, List.filter_append, hnone, List.append_nil, Db.rowsAt]

theorem rowsAt_without_self {rows : List Permission} :
    (db.without rows).rowsAt roleId scope =
      (db.rowsAt roleId scope).filter (·.id ∉ rows.map (·.id)) := by
  rw [Db.rowsAt, Db.rowsAt, Db.without, List.filter_filter, List.filter_filter]
  apply List.filter_congr
  intro row _
  exact Bool.and_comm _ _

theorem rowsAt_withRows_self {rows : List Permission}
    (hrows : ∀ r ∈ rows, r.roleId = roleId ∧ r.scope = scope) :
    (db.withRows rows).rowsAt roleId scope = db.rowsAt roleId scope ++ rows := by
  have hall : rows.filter (fun row => row.roleId = roleId ∧ row.scope = scope) = rows := by
    rw [List.filter_eq_self]
    intro row hrow
    exact decide_eq_true (hrows row hrow)
  rw [Db.rowsAt, Db.withRows, List.filter_append, hall, Db.rowsAt]

theorem keys_without {rows : List Permission} (h : db.GrantKeys) : (db.without rows).GrantKeys where
  role_id := h.role_id
  permission_id := h.permission_id.sublist (List.filter_sublist.map _)
  permission_role r hr := h.permission_role r (List.mem_filter.mp hr).1

theorem keys_withRows {rows : List Permission} (h : db.GrantKeys)
    (hrole : ∃ role ∈ db.roles, role.id = roleId)
    (hrows : ∀ r ∈ rows, r.roleId = roleId) (hnd : (rows.map (·.id)).Nodup)
    (hnew : ∀ r ∈ rows, r.id ∉ db.permissions.map (·.id)) : (db.withRows rows).GrantKeys where
  role_id := h.role_id
  permission_id := by
    show ((db.permissions ++ rows).map (·.id)).Nodup
    rw [List.map_append, List.nodup_append]
    refine ⟨h.permission_id, hnd, ?_⟩
    intro a ha b hb hab
    obtain ⟨r, hr, rfl⟩ := List.mem_map.mp hb
    exact hnew r hr (hab ▸ ha)
  permission_role r hr := by
    rcases List.mem_append.mp hr with hr | hr
    · exact h.permission_role r hr
    · rw [hrows r hr]
      exact hrole

theorem findRoleById_isNone (h : ∃ role ∈ db.roles, role.id = roleId) :
    (db.findRoleById roleId).isNone = false := by
  obtain ⟨role, hrole, hid⟩ := h
  cases hfind : db.findRoleById roleId with
  | none => exact absurd hid (by simpa using List.find?_eq_none.mp hfind role hrole)
  | some r => rfl

/-- **The rows after `syncActionsForRole`.** -/
theorem run_syncActionsForRole {uid : ℕ → String} {desired : List String} (hkeys : db.GrantKeys)
    (hids : NewIds uid db) (hrole : ∃ role ∈ db.roles, role.id = roleId) :
    ∃ db', (syncActionsForRole uid roleId scope desired).run db = (.ok (), db') ∧
      Synced roleId scope desired db db' ∧ db'.GrantKeys ∧
      ∀ r ∈ db'.permissions, r ∈ db.permissions ∨ ∃ n, r.id = uid n := by
  let rows := (db.listPermissionsByRole roleId).filter (·.scope = scope)
  let fresh := newRows roleId scope uid (missingActions desired rows)
  have hperm : rows.Perm (db.rowsAt roleId scope) := listPermissionsByRole_perm
  have hat : ∀ r ∈ unwantedRows desired rows, r ∈ db.rowsAt roleId scope :=
    fun r hr => hperm.subset (unwantedRows_sublist.subset hr)
  have hnew : ∀ r ∈ fresh, r.roleId = roleId ∧ r.scope = scope :=
    fun r hr => ⟨(mem_newRows hr).1, (mem_newRows hr).2.1⟩
  have hid : ∀ r ∈ fresh, ∃ n, r.id = uid n := fun r hr => by
    obtain ⟨n, -, hn⟩ := (mem_newRows hr).2.2
    exact ⟨n, hn⟩
  refine ⟨(db.without (unwantedRows desired rows)).withRows fresh, ?_, ⟨rfl, ?_, ?_⟩, ?_, ?_⟩
  · rw [syncActionsForRole, Prog.run_bind, Prog.run_read]
    show (removeUnwanted desired rows >>= _).run db = _
    rw [Prog.run_bind, run_removeUnwanted]
    have hrole' : ∃ role ∈ (db.without (unwantedRows desired rows)).roles, role.id = roleId := hrole
    exact run_addWanted (findRoleById_isNone hrole')
  · rw [rowsAt_withRows_self hnew, rowsAt_without_self, List.map_append, map_newRows]
    have hnd : (rows.map (·.id)).Nodup :=
      (hperm.map _).nodup_iff.mpr (hkeys.permission_id.sublist (List.filter_sublist.map _))
    refine List.Perm.trans (List.Perm.append_right _ ?_) (kept_append_missing hnd)
    exact (hperm.symm.filter _).map _
  · intro r s hne
    rw [rowsAt_withRows hnew hne, rowsAt_without hkeys hat hne]
  · refine keys_withRows (keys_without hkeys) hrole (fun r hr => (hnew r hr).1)
      (nodup_newRows hids.injective) fun r hr hmem => ?_
    obtain ⟨n, hn⟩ := hid r hr
    rw [hn] at hmem
    exact hids.permission n ((List.filter_sublist.map _).subset hmem)
  · intro r hr
    rcases List.mem_append.mp hr with hr | hr
    · exact Or.inl (List.mem_filter.mp hr).1
    · exact Or.inr (hid r hr)

theorem run_syncActionsForRole_self {uid : ℕ → String} {desired : List String}
    (h : ((db.rowsAt roleId scope).map (·.action)).Perm desired) :
    (syncActionsForRole uid roleId scope desired).run db = (.ok (), db) := by
  have hperm : (((db.listPermissionsByRole roleId).filter (·.scope = scope)).map (·.action)).Perm
      desired := (listPermissionsByRole_perm.map _).trans h
  obtain ⟨hunwanted, hmissing⟩ := unwantedRows_of_perm hperm
  rw [syncActionsForRole, Prog.run_bind, Prog.run_read]
  show (removeUnwanted desired _ >>= _).run db = _
  rw [Prog.run_bind, run_removeUnwanted, hunwanted, hmissing, without_nil]
  rfl

end Sync

/-! ## Managed roles and their assignments -/

namespace Db

variable (db : Db)

def hasPrincipal : GrantPrincipal → Prop
  | .user userId => db.principalExists (.user userId) = true
  | .team teamId => db.principalExists (.team teamId) = true
  | .role _ => True

instance (p : GrantPrincipal) : Decidable (db.hasPrincipal p) :=
  match p with
  | .user userId => inferInstanceAs (Decidable (db.principalExists (.user userId) = true))
  | .team teamId => inferInstanceAs (Decidable (db.principalExists (.team teamId) = true))
  | .role _ => inferInstanceAs (Decidable True)

def holdsRole (orgId roleId : String) : GrantPrincipal → Prop
  | .user userId => (db.listAssignments orgId (.user userId)).any (·.roleId = roleId) = true
  | .team teamId => (db.listAssignments orgId (.team teamId)).any (·.roleId = roleId) = true
  | .role role => ⟨role.text, roleId, orgId⟩ ∈ db.builtinRoles

/-- The tables take the entry: its principal is a row, and its managed role is there or can be
created. -/
def Accepts (orgId : String) (e : GrantEntry) : Prop :=
  e.2 ≠ none → db.hasPrincipal e.1 ∧
    ((db.managedRole orgId e.1).isSome = true ∨
      db.findRoleByUid orgId (managedRoleUidFor e.1) = none)

def Settled (orgId : String) (resource : ResourceKind) (scope : String) : GrantEntry → Prop
  | (p, none) => ∀ role, db.managedRole orgId p = some role → db.rowsAt role.id scope = []
  | (p, some level) => ∃ role, db.managedRole orgId p = some role ∧
      ((db.rowsAt role.id scope).map (·.action)).Perm (actionsForLevel resource level) ∧
      db.holdsRole orgId role.id p

end Db

theorem name_of_managedRole {db : Db} {orgId : String} {p : GrantPrincipal} {role : Role}
    (h : db.managedRole orgId p = some role) : role.name = managedRoleNameFor p := by
  have hfound : role.orgId = orgId ∧ role.name = managedRoleNameFor p := by
    simpa using List.find?_some h
  exact hfound.2

theorem org_of_managedRole {db : Db} {orgId : String} {p : GrantPrincipal} {role : Role}
    (h : db.managedRole orgId p = some role) : role.orgId = orgId := by
  have hfound : role.orgId = orgId ∧ role.name = managedRoleNameFor p := by
    simpa using List.find?_some h
  exact hfound.1

theorem mem_of_managedRole {db : Db} {orgId : String} {p : GrantPrincipal} {role : Role}
    (h : db.managedRole orgId p = some role) : role ∈ db.roles :=
  List.mem_of_find?_eq_some h

structure SetFrame (orgId scope : String) (ps : List GrantPrincipal) (db db' : Db) : Prop where
  people : db'.users = db.users ∧ db'.teams = db.teams
  roles : ∀ role ∈ db.roles, role ∈ db'.roles
  found : ∀ o n role, db.findRoleByName o n = some role → db'.findRoleByName o n = some role
  name : ∀ o n, (∀ p ∈ ps, n ≠ managedRoleNameFor p) →
    db'.findRoleByName o n = db.findRoleByName o n
  org : ∀ o n, o ≠ orgId → db'.findRoleByName o n = db.findRoleByName o n
  uid : ∀ o u, (∀ p ∈ ps, u ≠ managedRoleUidFor p) → db'.findRoleByUid o u = db.findRoleByUid o u
  rows : ∀ r s, (s ≠ scope ∨ ∀ p ∈ ps, ∀ role, db'.managedRole orgId p = some role → role.id ≠ r) →
    db'.rowsAt r s = db.rowsAt r s
  holds : ∀ o r q, db.holdsRole o r q → db'.holdsRole o r q

namespace SetFrame

variable {orgId scope : String} {ps ps' : List GrantPrincipal} {db db' db'' : Db}

theorem refl (db : Db) : SetFrame orgId scope ps db db where
  people := ⟨rfl, rfl⟩
  roles _ h := h
  found _ _ _ h := h
  name _ _ _ := rfl
  org _ _ _ := rfl
  uid _ _ _ := rfl
  rows _ _ _ := rfl
  holds _ _ _ h := h

theorem trans (h : SetFrame orgId scope ps db db') (h' : SetFrame orgId scope ps' db' db'') :
    SetFrame orgId scope (ps ++ ps') db db'' where
  people := ⟨h'.people.1.trans h.people.1, h'.people.2.trans h.people.2⟩
  roles role hrole := h'.roles role (h.roles role hrole)
  found o n role hrole := h'.found o n role (h.found o n role hrole)
  name o n hn := (h'.name o n fun p hp => hn p (List.mem_append_right ps hp)).trans
    (h.name o n fun p hp => hn p (List.mem_append_left ps' hp))
  org o n ho := (h'.org o n ho).trans (h.org o n ho)
  uid o u hu := (h'.uid o u fun p hp => hu p (List.mem_append_right ps hp)).trans
    (h.uid o u fun p hp => hu p (List.mem_append_left ps' hp))
  rows r s hout := by
    refine Eq.trans (h'.rows r s ?_) (h.rows r s ?_)
    · exact hout.imp_right fun hps p hp => hps p (List.mem_append_right ps hp)
    · exact hout.imp_right fun hps p hp role hrole =>
        hps p (List.mem_append_left ps' hp) role (h'.found _ _ role hrole)
  holds o r q hq := h'.holds o r q (h.holds o r q hq)

theorem hasPrincipal (h : SetFrame orgId scope ps db db') {p : GrantPrincipal} :
    db'.hasPrincipal p ↔ db.hasPrincipal p := by
  cases p with
  | user u => simp only [Db.hasPrincipal, Db.principalExists, Db.findUser, h.people.1]
  | team t => simp only [Db.hasPrincipal, Db.principalExists, h.people.2]
  | role r => exact Iff.rfl

theorem accepts (h : SetFrame orgId scope ps db db') {e : GrantEntry} (he : e.1 ∉ ps)
    (hacc : db.Accepts orgId e) : db'.Accepts orgId e := by
  intro hlevel
  obtain ⟨hp, hrole⟩ := hacc hlevel
  refine ⟨h.hasPrincipal.mpr hp, hrole.imp (fun hsome => ?_) fun hnone => ?_⟩
  · obtain ⟨role, hrole⟩ := Option.isSome_iff_exists.mp hsome
    exact Option.isSome_iff_exists.mpr ⟨role, h.found _ _ role hrole⟩
  · have hother : ∀ p ∈ ps, managedRoleUidFor e.1 ≠ managedRoleUidFor p :=
      fun p hp huid => he (managedRoleUidFor_injective huid ▸ hp)
    rw [h.uid orgId _ hother]
    exact hnone

theorem settled (h : SetFrame orgId scope ps db db') (hkeys : db'.GrantKeys)
    {resource : ResourceKind} {e : GrantEntry} (he : e.1 ∉ ps)
    (hset : db.Settled orgId resource scope e) : db'.Settled orgId resource scope e := by
  obtain ⟨p, level⟩ := e
  have hsame : db'.managedRole orgId p = db.managedRole orgId p :=
    h.name orgId _ fun q hq hname => he (managedRoleNameFor_injective hname ▸ hq)
  have hrows : ∀ role, db'.managedRole orgId p = some role →
      db'.rowsAt role.id scope = db.rowsAt role.id scope := by
    intro role hrole
    refine h.rows _ _ (Or.inr fun q hq role' hrole' hid => ?_)
    -- two roles with one id are one role, and its name is that of one principal
    have heq : role' = role := List.inj_on_of_nodup_map hkeys.role_id
      (List.mem_of_find?_eq_some hrole') (List.mem_of_find?_eq_some hrole) hid
    have hname : managedRoleNameFor p = managedRoleNameFor q := by
      rw [← (name_of_managedRole hrole), ← (name_of_managedRole hrole'), heq]
    exact he (managedRoleNameFor_injective hname ▸ hq)
  cases level with
  | none =>
    intro role hrole
    rw [hrows role hrole]
    exact hset role (hsame ▸ hrole)
  | some level =>
    obtain ⟨role, hrole, hperm, hholds⟩ := hset
    have hrole' : db'.managedRole orgId p = some role := hsame.trans hrole
    refine ⟨role, hrole', ?_, h.holds _ _ _ hholds⟩
    rw [hrows role hrole']
    exact hperm

end SetFrame

/-! ## One round of the loop -/

section Round

open ResourcePermissionService

variable {db : Db} {orgId : String} {p : GrantPrincipal}

def newManagedRole (id orgId : String) (p : GrantPrincipal) : Role :=
  { id
    orgId
    uid := managedRoleUidFor p
    name := managedRoleNameFor p
    details :=
      { description := some "Managed role for per-resource permissions", hidden := true } }

def Db.addRole (db : Db) (role : Role) : Db := { db with roles := db.roles ++ [role] }

theorem run_findByName_bind {α : Type} {k : Option Role → Prog Db α} {found : Option Role}
    (h : db.managedRole orgId p = found) :
    (RoleRepository.findByName orgId (managedRoleNameFor p) >>= k).run db = (k found).run db := by
  rw [← h]
  rfl

theorem run_ensureManagedRole_some {id : String} {role : Role}
    (h : db.managedRole orgId p = some role) :
    (ensureManagedRole id orgId p).run db = (.ok role, db) := by
  rw [ensureManagedRole, run_findByName_bind h]
  rfl

theorem run_ensureManagedRole_none {id : String} (h : db.managedRole orgId p = none)
    (huid : db.findRoleByUid orgId (managedRoleUidFor p) = none) :
    (ensureManagedRole id orgId p).run db =
      (.ok (newManagedRole id orgId p), db.addRole (newManagedRole id orgId p)) := by
  rw [ensureManagedRole, run_findByName_bind h]
  show (RoleRepository.create (newManagedRole id orgId p)).run db = _
  have hname : db.findRoleByName (newManagedRole id orgId p).orgId
      (newManagedRole id orgId p).name = none := h
  have huid' : db.findRoleByUid (newManagedRole id orgId p).orgId
      (newManagedRole id orgId p).uid = none := huid
  rw [RoleRepository.create, Prog.run_attempt, hname, huid']
  rfl

theorem frame_addRole {scope id : String} (hkeys : db.GrantKeys) (h : db.managedRole orgId p = none)
    (hid : id ∉ db.roles.map (·.id)) :
    SetFrame orgId scope [p] db (db.addRole (newManagedRole id orgId p)) ∧
      (db.addRole (newManagedRole id orgId p)).GrantKeys ∧
      (db.addRole (newManagedRole id orgId p)).managedRole orgId p =
        some (newManagedRole id orgId p) := by
  have hfind (o n : String) : (db.addRole (newManagedRole id orgId p)).findRoleByName o n =
      (db.findRoleByName o n).or
        (if orgId = o ∧ managedRoleNameFor p = n then some (newManagedRole id orgId p) else none) := by
    show List.find? _ (db.roles ++ [newManagedRole id orgId p]) = _
    rw [List.find?_append, Db.findRoleByName, List.find?_singleton]
    simp only [decide_eq_true_eq]
    rfl
  have hfindUid (o u : String) : (db.addRole (newManagedRole id orgId p)).findRoleByUid o u =
      (db.findRoleByUid o u).or
        (if orgId = o ∧ managedRoleUidFor p = u then some (newManagedRole id orgId p) else none) := by
    show List.find? _ (db.roles ++ [newManagedRole id orgId p]) = _
    rw [List.find?_append, Db.findRoleByUid, List.find?_singleton]
    simp only [decide_eq_true_eq]
    rfl
  refine ⟨⟨⟨rfl, rfl⟩, fun _ => List.mem_append_left _, ?_, ?_, ?_, ?_, fun _ _ _ => rfl,
    fun _ _ q hq => ?_⟩, ⟨?_, ?_, ?_⟩, ?_⟩
  · intro o n role hrole
    rw [hfind, hrole, Option.some_or]
  · intro o n hn
    have hne : ¬ (orgId = o ∧ managedRoleNameFor p = n) :=
      fun heq => hn p (List.mem_singleton_self p) heq.2.symm
    rw [hfind, if_neg hne, Option.or_none]
  · intro o n ho
    have hne : ¬ (orgId = o ∧ managedRoleNameFor p = n) := fun heq => ho heq.1.symm
    rw [hfind, if_neg hne, Option.or_none]
  · intro o u hu
    have hne : ¬ (orgId = o ∧ managedRoleUidFor p = u) :=
      fun heq => hu p (List.mem_singleton_self p) heq.2.symm
    rw [hfindUid, if_neg hne, Option.or_none]
  · cases q <;> exact hq
  · show ((db.roles ++ [newManagedRole id orgId p]).map (·.id)).Nodup
    rw [List.map_append, List.nodup_append]
    refine ⟨hkeys.role_id, by simp, ?_⟩
    intro a ha b hb hab
    obtain rfl := List.mem_singleton.mp hb
    exact hid (hab ▸ ha)
  · exact hkeys.permission_id
  · intro r hr
    obtain ⟨role, hrole, hrid⟩ := hkeys.permission_role r hr
    exact ⟨role, List.mem_append_left _ hrole, hrid⟩
  · rw [Db.managedRole, hfind]
    show (db.managedRole orgId p).or _ = _
    rw [h, if_pos ⟨rfl, rfl⟩, Option.none_or]

theorem frame_assigned {scope : String} {ps : List GrantPrincipal} {db' : Db}
    (honly : db' = { db with
      userRoles := db'.userRoles, teamRoles := db'.teamRoles, builtinRoles := db'.builtinRoles })
    (huser : ∀ r ∈ db.userRoles, r ∈ db'.userRoles) (hteam : ∀ r ∈ db.teamRoles, r ∈ db'.teamRoles)
    (hbuiltin : ∀ r ∈ db.builtinRoles, r ∈ db'.builtinRoles) :
    SetFrame orgId scope ps db db' := by
  have hroles : db'.roles = db.roles := by rw [honly]
  have hrows : db'.permissions = db.permissions := by rw [honly]
  refine ⟨⟨by rw [honly], by rw [honly]⟩, fun _ => hroles.symm ▸ id, ?_, ?_, ?_, ?_, ?_, ?_⟩
  · intro o n role h
    rw [Db.findRoleByName, hroles]
    exact h
  · intro o n _
    rw [Db.findRoleByName, hroles, Db.findRoleByName]
  · intro o n _
    rw [Db.findRoleByName, hroles, Db.findRoleByName]
  · intro o u _
    rw [Db.findRoleByUid, hroles, Db.findRoleByUid]
  · intro r s _
    rw [Db.rowsAt, hrows, Db.rowsAt]
  · intro o r q hq
    cases q with
    | user u =>
      obtain ⟨a, ha, har⟩ := List.any_eq_true.mp hq
      obtain ⟨row, hrow, rfl⟩ := List.mem_map.mp ha
      obtain ⟨hmem, hread⟩ := List.mem_filter.mp hrow
      exact List.any_eq_true.mpr
        ⟨_, List.mem_map.mpr ⟨row, List.mem_filter.mpr ⟨huser row hmem, hread⟩, rfl⟩, har⟩
    | team t =>
      obtain ⟨a, ha, har⟩ := List.any_eq_true.mp hq
      obtain ⟨row, hrow, rfl⟩ := List.mem_map.mp ha
      obtain ⟨hmem, hread⟩ := List.mem_filter.mp hrow
      exact List.any_eq_true.mpr
        ⟨_, List.mem_map.mpr ⟨row, List.mem_filter.mpr ⟨hteam row hmem, hread⟩, rfl⟩, har⟩
    | role r' => exact hbuiltin _ hq

structure AssignedIn (orgId roleId : String) (p : GrantPrincipal) (db db' : Db) : Prop where
  only : db' = { db with
    userRoles := db'.userRoles, teamRoles := db'.teamRoles, builtinRoles := db'.builtinRoles }
  userRoles : ∀ r ∈ db.userRoles, r ∈ db'.userRoles
  teamRoles : ∀ r ∈ db.teamRoles, r ∈ db'.teamRoles
  builtinRoles : ∀ r ∈ db.builtinRoles, r ∈ db'.builtinRoles
  holds : db'.holdsRole orgId roleId p

theorem assignedIn_self {roleId : String} (h : db.holdsRole orgId roleId p) :
    AssignedIn orgId roleId p db db :=
  ⟨rfl, fun _ hr => hr, fun _ hr => hr, fun _ hr => hr, h⟩

theorem run_ensureAssigned_self {q : Principal} {roleId : String}
    (h : (db.listAssignments orgId q).any (·.roleId = roleId) = true) :
    (ensureAssigned q orgId roleId).run db = (.ok (), db) := by
  rw [ensureAssigned, Prog.run_bind, Prog.run_read]
  show Prog.run (if _ then _ else _) db = _
  rw [if_pos h]
  rfl

theorem readableIn_self (orgId : String) : Db.readableIn orgId orgId = true := by
  simp [Db.readableIn]

theorem not_assigned {q : Principal} {roleId : String}
    (h : ¬ (db.listAssignments orgId q).any (·.roleId = roleId) = true) :
    ¬ db.Assigned q ⟨orgId, roleId⟩ := by
  intro ha
  apply h
  cases q with
  | user u =>
    exact List.any_eq_true.mpr ⟨_, List.mem_map.mpr ⟨_, List.mem_filter.mpr
      ⟨ha, by simp [readableIn_self]⟩, rfl⟩, by simp⟩
  | team t =>
    exact List.any_eq_true.mpr ⟨_, List.mem_map.mpr ⟨_, List.mem_filter.mpr
      ⟨ha, by simp [readableIn_self]⟩, rfl⟩, by simp⟩

theorem run_ensureAssigned_new {q : Principal} {roleId : String}
    (h : ¬ (db.listAssignments orgId q).any (·.roleId = roleId) = true)
    (hq : db.principalExists q = true) (hrole : ∃ role ∈ db.roles, role.id = roleId) :
    (ensureAssigned q orgId roleId).run db = (.ok (), db.addAssignment ⟨orgId, roleId⟩ q) := by
  have hfk : ¬ (db.principalExists q = false ∨ (db.findRoleById roleId).isNone = true) := by
    rw [hq, findRoleById_isNone hrole]
    simp
  rw [ensureAssigned, Prog.run_bind, Prog.run_read]
  show Prog.run (if _ then _ else _) db = _
  rw [if_neg h, createAssignment, Prog.run_attempt, if_neg (not_assigned h), if_neg hfk]

theorem run_ensureAssignment_self {roleId : String} (h : db.holdsRole orgId roleId p) :
    (ensureAssignment orgId roleId p).run db = (.ok (), db) := by
  cases p with
  | user u => exact run_ensureAssigned_self h
  | team t => exact run_ensureAssigned_self h
  | role r =>
    rw [ensureAssignment, RoleRepository.hasBuiltinRole, Prog.run_bind, Prog.run_read]
    show Prog.run (if _ then _ else _) db = _
    have hmem : (⟨r.text, roleId, orgId⟩ : BuiltinRole) ∈ db.builtinRoles := h
    rw [if_pos (decide_eq_true hmem)]
    rfl

theorem run_ensureAssignment {roleId : String} (hp : db.hasPrincipal p)
    (hrole : ∃ role ∈ db.roles, role.id = roleId) :
    ∃ db', (ensureAssignment orgId roleId p).run db = (.ok (), db') ∧
      AssignedIn orgId roleId p db db' := by
  by_cases h : db.holdsRole orgId roleId p
  · exact ⟨db, run_ensureAssignment_self h, assignedIn_self h⟩
  · cases p with
    | user u =>
      refine ⟨_, run_ensureAssigned_new h hp hrole, rfl, fun r hr => List.mem_append_left _ hr,
        fun _ hr => hr, fun _ hr => hr, ?_⟩
      exact List.any_eq_true.mpr ⟨_, List.mem_map.mpr ⟨⟨orgId, u, roleId⟩, List.mem_filter.mpr
        ⟨List.mem_append_right _ (List.mem_singleton_self _), by simp [readableIn_self]⟩, rfl⟩,
        by simp⟩
    | team t =>
      refine ⟨_, run_ensureAssigned_new h hp hrole, rfl, fun _ hr => hr,
        fun r hr => List.mem_append_left _ hr, fun _ hr => hr, ?_⟩
      exact List.any_eq_true.mpr ⟨_, List.mem_map.mpr ⟨⟨orgId, t, roleId⟩, List.mem_filter.mpr
        ⟨List.mem_append_right _ (List.mem_singleton_self _), by simp [readableIn_self]⟩, rfl⟩,
        by simp⟩
    | role r =>
      have hnot : ¬ decide ((⟨r.text, roleId, orgId⟩ : BuiltinRole) ∈ db.builtinRoles) = true :=
        fun hmem => h (show _ ∈ db.builtinRoles from of_decide_eq_true hmem)
      refine ⟨{ db with builtinRoles := db.builtinRoles ++ [⟨r.text, roleId, orgId⟩] }, ?_, rfl,
        fun _ hr => hr, fun _ hr => hr, fun r hr => List.mem_append_left _ hr,
        List.mem_append_right _ (List.mem_singleton_self _)⟩
      rw [ensureAssignment, RoleRepository.hasBuiltinRole, Prog.run_bind, Prog.run_read]
      show Prog.run (if _ then _ else _) db = _
      rw [if_neg hnot, RoleRepository.upsertBuiltinRole, RoleRepository.hasBuiltinRole,
        Prog.run_bind, Prog.run_read]
      show Prog.run (if _ then _ else _) db = _
      rw [if_neg hnot, Prog.run_attempt, if_neg (by simpa using hnot), findRoleById_isNone hrole]
      rfl

variable {uid : ℕ → String} {resource : ResourceKind} {scope : String}

theorem Synced.frame {role : Role} {actions : List String} {db' : Db}
    (h : Synced role.id scope actions db db') (hrole : db.managedRole orgId p = some role) :
    SetFrame orgId scope [p] db db' := by
  have hroles : db'.roles = db.roles := by rw [h.only]
  refine ⟨⟨by rw [h.only], by rw [h.only]⟩, fun _ => hroles.symm ▸ id, ?_, ?_, ?_, ?_, ?_, ?_⟩
  · intro o n role h
    rw [Db.findRoleByName, hroles]
    exact h
  · intro o n _
    rw [Db.findRoleByName, hroles, Db.findRoleByName]
  · intro o n _
    rw [Db.findRoleByName, hroles, Db.findRoleByName]
  · intro o u _
    rw [Db.findRoleByUid, hroles, Db.findRoleByUid]
  · intro r s hout
    apply h.others
    refine Or.symm (hout.imp_right fun hps => Ne.symm (hps p (List.mem_singleton_self p) role ?_))
    rw [Db.managedRole, Db.findRoleByName, hroles]
    exact hrole
  · intro o r q hq
    cases q with
    | user u =>
      have huser : db'.userRoles = db.userRoles := by rw [h.only]
      simp only [Db.holdsRole, Db.listAssignments, Db.listUserRoles, huser] at hq ⊢
      exact hq
    | team t =>
      have hteam : db'.teamRoles = db.teamRoles := by rw [h.only]
      simp only [Db.holdsRole, Db.listAssignments, Db.listTeamRoles, hteam] at hq ⊢
      exact hq
    | role r' =>
      have hbuiltin : db'.builtinRoles = db.builtinRoles := by rw [h.only]
      simp only [Db.holdsRole, hbuiltin] at hq ⊢
      exact hq

structure Draws (uid : ℕ → String) (db db' : Db) : Prop where
  roles : ∀ role ∈ db'.roles, role ∈ db.roles ∨ ∃ n, role.id = uid n
  permissions : ∀ r ∈ db'.permissions, r ∈ db.permissions ∨ ∃ n, r.id = uid n

theorem run_grant {role : Role} {level : PermissionLevel} (hkeys : db.GrantKeys)
    (hids : NewIds uid db) (hp : db.hasPrincipal p) (hrole : db.managedRole orgId p = some role) :
    ∃ db', ((do
        syncActionsForRole uid role.id scope (actionsForLevel resource level)
        ensureAssignment orgId role.id p) : Prog Db Unit).run db = (.ok (), db') ∧
      db'.Settled orgId resource scope (p, some level) ∧ SetFrame orgId scope [p] db db' ∧
      db'.GrantKeys ∧ Draws uid db db' := by
  have hmem : ∃ r ∈ db.roles, r.id = role.id := ⟨role, mem_of_managedRole hrole, rfl⟩
  obtain ⟨db₁, hrun₁, hsync, hkeys₁, hdraws⟩ :=
    @run_syncActionsForRole db role.id scope uid (actionsForLevel resource level) hkeys hids hmem
  have hframe₁ : SetFrame orgId scope [p] db db₁ := hsync.frame hrole
  have hroles₁ : db₁.roles = db.roles := by rw [hsync.only]
  have hmem₁ : ∃ r ∈ db₁.roles, r.id = role.id := hroles₁.symm ▸ hmem
  obtain ⟨db₂, hrun₂, hassigned⟩ :=
    @run_ensureAssignment db₁ orgId p role.id (hframe₁.hasPrincipal.mpr hp) hmem₁
  have hframe₂ : SetFrame orgId scope [] db₁ db₂ :=
    frame_assigned hassigned.only hassigned.userRoles hassigned.teamRoles hassigned.builtinRoles
  have hperms₂ : db₂.permissions = db₁.permissions := by rw [hassigned.only]
  have hroles₂ : db₂.roles = db₁.roles := by rw [hassigned.only]
  refine ⟨db₂, ?_, ⟨role, hframe₂.found _ _ role (hframe₁.found _ _ role hrole), ?_,
    hassigned.holds⟩, hframe₁.trans hframe₂, ⟨?_, ?_, ?_⟩, ⟨?_, ?_⟩⟩
  · rw [Prog.run_bind, hrun₁]
    exact hrun₂
  · rw [Db.rowsAt, hperms₂]
    exact hsync.rows
  · rw [hroles₂]
    exact hkeys₁.role_id
  · rw [hperms₂]
    exact hkeys₁.permission_id
  · rw [hperms₂, hroles₂]
    exact hkeys₁.permission_role
  · rw [hroles₂, hroles₁]
    exact fun r hr => Or.inl hr
  · rw [hperms₂]
    exact hdraws

theorem run_removeGrant_none (h : db.managedRole orgId p = none) :
    (removeGrant orgId p scope).run db = (.ok (), db) := by
  rw [removeGrant, run_findByName_bind h]
  rfl

theorem run_removeGrant_some {role : Role} (h : db.managedRole orgId p = some role) :
    (removeGrant orgId p scope).run db = (.ok (), db.without
      ((db.listPermissionsByRole role.id).filter (·.scope = scope))) := by
  rw [removeGrant, run_findByName_bind h]
  dsimp only
  rw [Prog.run_bind, Prog.run_read]
  exact run_deleteAtScope

theorem run_removeGrant (hkeys : db.GrantKeys) :
    ∃ db', (removeGrant orgId p scope).run db = (.ok (), db') ∧
      db'.Settled orgId resource scope (p, none) ∧ SetFrame orgId scope [p] db db' ∧
      db'.GrantKeys ∧ Draws uid db db' := by
  cases hrole : db.managedRole orgId p with
  | none =>
    refine ⟨db, run_removeGrant_none hrole, fun role h => ?_, SetFrame.refl db, hkeys,
      fun _ => Or.inl, fun _ => Or.inl⟩
    rw [hrole] at h
    cases h
  | some role =>
    let rows := (db.listPermissionsByRole role.id).filter (·.scope = scope)
    have hperm : rows.Perm (db.rowsAt role.id scope) := listPermissionsByRole_perm
    have hempty : (db.without rows).rowsAt role.id scope = [] := by
      rw [rowsAt_without_self, List.filter_eq_nil_iff]
      intro r hr
      simpa using ⟨r, hperm.symm.subset hr, rfl⟩
    have hsync : Synced role.id scope [] db (db.without rows) := by
      refine ⟨rfl, ?_, fun r s hne => ?_⟩
      · rw [hempty]
        exact List.Perm.refl _
      · exact rowsAt_without hkeys (fun r hr => hperm.subset hr) hne
    refine ⟨db.without rows, ?_, fun role' h => ?_, hsync.frame hrole, keys_without hkeys,
      fun _ => Or.inl, fun r hr => Or.inl (List.mem_filter.mp hr).1⟩
    · exact run_removeGrant_some hrole
    · have hsame : (db.without rows).managedRole orgId p = some role := hrole
      rw [hsame] at h
      cases h
      exact hempty

/-- **One item.** An entry the tables take is set, and the frame is kept. -/
theorem run_setOne {e : GrantEntry} (hkeys : db.GrantKeys) (hids : NewIds uid db)
    (hacc : db.Accepts orgId e) :
    ∃ db', (setOne uid orgId resource scope e).run db = (.ok (), db') ∧
      db'.Settled orgId resource scope e ∧ SetFrame orgId scope [e.1] db db' ∧
      db'.GrantKeys ∧ Draws uid db db' := by
  obtain ⟨p, level⟩ := e
  cases level with
  | none => exact run_removeGrant hkeys
  | some level =>
    obtain ⟨hp, hrole⟩ := hacc (by simp)
    have hshift : Function.Injective fun n => uid (n + 1) :=
      fun m n h => Nat.succ.inj (hids.injective h)
    rw [setOne]
    cases hm : db.managedRole orgId p with
    | some role =>
      obtain ⟨db', hrun, hset, hframe, hkeys', hdraws⟩ :=
        @run_grant db orgId p (fun n => uid (n + 1)) resource scope role level hkeys
          ⟨hshift, fun n => hids.role (n + 1), fun n => hids.permission (n + 1)⟩ hp hm
      refine ⟨db', ?_, hset, hframe, hkeys', fun r hr => ?_, fun r hr => ?_⟩
      · rw [Prog.run_bind, run_ensureManagedRole_some hm]
        exact hrun
      · exact (hdraws.roles r hr).imp_right fun ⟨n, hn⟩ => ⟨n + 1, hn⟩
      · exact (hdraws.permissions r hr).imp_right fun ⟨n, hn⟩ => ⟨n + 1, hn⟩
    | none =>
      have huid : db.findRoleByUid orgId (managedRoleUidFor p) = none := by
        rcases hrole with h | h
        · rw [hm] at h
          cases h
        · exact h
      obtain ⟨hframe₁, hkeys₁, hm₁⟩ := @frame_addRole db orgId p scope (uid 0) hkeys hm (hids.role 0)
      have hids₁ : NewIds (fun n => uid (n + 1)) (db.addRole (newManagedRole (uid 0) orgId p)) := by
        refine ⟨hshift, fun n => ?_, fun n => hids.permission (n + 1)⟩
        show uid (n + 1) ∉ (db.roles ++ [newManagedRole (uid 0) orgId p]).map (·.id)
        rw [List.map_append, List.mem_append, not_or]
        refine ⟨hids.role (n + 1), fun h => ?_⟩
        exact absurd (hids.injective (List.mem_singleton.mp h)) (Nat.succ_ne_zero n)
      obtain ⟨db', hrun, hset, hframe, hkeys', hdraws⟩ :=
        @run_grant _ orgId p (fun n => uid (n + 1)) resource scope _ level hkeys₁ hids₁
          (hframe₁.hasPrincipal.mpr hp) hm₁
      have hframe' : SetFrame orgId scope [p] db db' := by
        have h := hframe₁.trans hframe
        exact ⟨h.people, h.roles, h.found, fun o n hn => h.name o n (by simpa using hn), h.org,
          fun o u hu => h.uid o u (by simpa using hu),
          fun r s hr => h.rows r s (by simpa using hr), h.holds⟩
      refine ⟨db', ?_, hset, hframe', hkeys', fun r hr => ?_, fun r hr => ?_⟩
      · rw [Prog.run_bind, run_ensureManagedRole_none hm huid]
        exact hrun
      · rcases hdraws.roles r hr with h | ⟨n, hn⟩
        · rcases List.mem_append.mp h with h | h
          · exact Or.inl h
          · exact Or.inr ⟨0, by rw [List.mem_singleton.mp h]; rfl⟩
        · exact Or.inr ⟨n + 1, hn⟩
      · exact (hdraws.permissions r hr).imp_right fun ⟨n, hn⟩ => ⟨n + 1, hn⟩

theorem run_setOne_self {e : GrantEntry} (h : db.Settled orgId resource scope e) :
    (setOne uid orgId resource scope e).run db = (.ok (), db) := by
  obtain ⟨p, level⟩ := e
  cases level with
  | none =>
    show (removeGrant orgId p scope).run db = _
    cases hrole : db.managedRole orgId p with
    | none => exact run_removeGrant_none hrole
    | some role =>
      have hnil : (db.listPermissionsByRole role.id).filter (·.scope = scope) = [] := by
        have hperm := @listPermissionsByRole_perm db role.id scope
        rw [h role hrole] at hperm
        exact List.perm_nil.mp hperm
      rw [run_removeGrant_some hrole, hnil, without_nil]
  | some level =>
    obtain ⟨role, hrole, hperm, hholds⟩ := h
    rw [setOne, Prog.run_bind, run_ensureManagedRole_some hrole]
    show (syncActionsForRole _ role.id scope _ >>= _).run db = _
    rw [Prog.run_bind, run_syncActionsForRole_self hperm]
    exact run_ensureAssignment_self hholds

end Round

end OpenObs.Rbac
