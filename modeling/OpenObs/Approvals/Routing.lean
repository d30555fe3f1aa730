import OpenObs.Approvals.Access
import OpenObs.Rbac.UserPermissions

/-!
# Who is told about an approval

`services/approval-router.ts` finds the users of an org whose `approvals:approve` grant covers a
row. It walks the sources of `getUserPermissions` backwards, from the permissions to the users.
-/

namespace OpenObs.Approvals

open OpenObs.Plans OpenObs.Rbac

/-! ## Pages of a sorted list -/

theorem mem_take_mergeSort {α β : Type} [LinearOrder β] {key : α → β} {l : List α}
    (hkeys : (l.map key).Nodup) {x : α} (hx : x ∈ l) {n : ℕ} :
    x ∈ (l.mergeSort fun a b => decide (key a ≤ key b)).take n ↔
      (l.filter fun y => decide (key y < key x)).length < n := by
  have hperm : (l.mergeSort fun a b => decide (key a ≤ key b)).Perm l :=
    List.mergeSort_perm l _
  have hsorted : (l.mergeSort fun a b => decide (key a ≤ key b)).Pairwise
      fun a b => key a ≤ key b := by
    have h : (l.mergeSort fun a b => decide (key a ≤ key b)).Pairwise
        fun a b => decide (key a ≤ key b) = true :=
      List.pairwise_mergeSort
        (fun a b c hab hbc => decide_eq_true
          ((of_decide_eq_true hab).trans (of_decide_eq_true hbc)))
        (fun a b => by simpa using le_total (key a) (key b)) l
    exact h.imp fun hab => of_decide_eq_true hab
  have hnodup : ((l.mergeSort fun a b => decide (key a ≤ key b)).map key).Nodup :=
    (hperm.map key).nodup_iff.mpr hkeys
  rw [← (hperm.filter _).length_eq]
  generalize (l.mergeSort fun a b => decide (key a ≤ key b)) = s at *
  obtain ⟨before, after, rfl⟩ := List.append_of_mem (hperm.mem_iff.mpr hx)
  rw [List.map_append, List.map_cons, List.nodup_append] at hnodup
  obtain ⟨-, hafter, hdisj⟩ := hnodup
  rw [List.pairwise_append, List.pairwise_cons] at hsorted
  obtain ⟨-, ⟨hle, -⟩, hcross⟩ := hsorted
  -- what is in front has smaller keys, what is behind has larger ones
  have hlt : ∀ y ∈ before, key y < key x := by
    intro y hy
    refine lt_of_le_of_ne (hcross y hy x List.mem_cons_self) ?_
    exact hdisj _ (List.mem_map_of_mem hy) _ List.mem_cons_self
  have hge : ∀ y ∈ after, ¬ key y < key x := fun y hy => not_lt_of_ge (hle y hy)
  have hfilter : (before ++ x :: after).filter (fun y => decide (key y < key x)) = before := by
    rw [List.filter_append, List.filter_eq_self.mpr fun y hy => decide_eq_true (hlt y hy),
      List.filter_cons_of_neg (by simp), List.filter_eq_nil_iff.mpr fun y hy => by
        simpa using hge y hy, List.append_nil]
  rw [hfilter, List.take_append]
  constructor
  · intro hmem
    by_contra hlen
    have hzero : n - before.length = 0 := by omega
    rw [hzero, List.take_zero, List.append_nil] at hmem
    exact absurd (hlt x (List.mem_of_mem_take hmem)) (lt_irrefl _)
  · intro hlen
    refine List.mem_append_right _ ?_
    obtain ⟨k, hk⟩ : ∃ k, n - before.length = k + 1 := ⟨n - before.length - 1, by omega⟩
    rw [hk, List.take_succ_cons]
    exact List.mem_cons_self

/-! ## The router -/

def approvalsApprove : String := "approvals:approve"

def permScopeMatchesRow (permScope : String) (candidateScopes : List String) : Bool :=
  candidateScopes.any fun candidate => scopeCovers permScope candidate

def routerLimit : ℕ := 10000

def matchingRoleIds (db : Db) (row : ApprovalRequest) : List String :=
  (((db.listPermissionsByAction approvalsApprove).filter fun p =>
    permScopeMatchesRow p.scope (approvalRowScopes row)).map (·.roleId)).eraseDups

def matchingBuiltinRoleNames (db : Db) (orgId : String) (row : ApprovalRequest) :
    List String :=
  (((db.listBuiltinRoles orgId).filter (·.roleId ∈ matchingRoleIds db row)).map
    (·.role)).eraseDups

def findApprovers (db : Db) (orgId : String) (row : ApprovalRequest) : List String :=
  if (matchingRoleIds db row).isEmpty then []
  else
    let direct := (matchingRoleIds db row).flatMap fun roleId =>
      ((db.listUsersOfRole roleId).filter fun r => r.orgId = orgId ∨ r.orgId = "").map
        (·.userId)
    let byTeam := (matchingRoleIds db row).flatMap fun roleId =>
      ((db.listTeamsOfRole roleId).filter fun r => r.orgId = orgId ∨ r.orgId = "").flatMap
        fun r => (db.listTeamMembers r.teamId).map (·.userId)
    let byBuiltin :=
      if (matchingBuiltinRoleNames db orgId row).isEmpty then []
      else ((db.listUsersByOrg orgId routerLimit).filter
        (·.1.role.text ∈ matchingBuiltinRoleNames db orgId row)).map (·.1.userId)
    (direct ++ byTeam ++ byBuiltin).eraseDups

def Approves (db : Db) (row : ApprovalRequest) (roleId : String) : Prop :=
  ∃ p ∈ db.permissions, p.roleId = roleId ∧ p.action = approvalsApprove ∧
    ∃ s ∈ approvalRowScopes row, scopeCovers p.scope s = true

theorem mem_matchingRoleIds {db : Db} {row : ApprovalRequest} {roleId : String} :
    roleId ∈ matchingRoleIds db row ↔ Approves db row roleId := by
  simp only [matchingRoleIds, List.mem_eraseDups, List.mem_map, List.mem_filter,
    Db.listPermissionsByAction, permScopeMatchesRow, List.any_eq_true, decide_eq_true_eq,
    Approves]
  constructor
  · rintro ⟨p, ⟨⟨hp, ha⟩, hs⟩, rfl⟩
    exact ⟨p, hp, rfl, ha, hs⟩
  · rintro ⟨p, hp, rfl, ha, hs⟩
    exact ⟨p, ⟨⟨hp, ha⟩, hs⟩, rfl⟩

theorem mem_matchingBuiltinRoleNames {db : Db} {orgId : String} {row : ApprovalRequest}
    {name : String} :
    name ∈ matchingBuiltinRoleNames db orgId row ↔
      ∃ b ∈ db.builtinRoles, b.orgId = orgId ∧ Approves db row b.roleId ∧ b.role = name := by
  simp only [matchingBuiltinRoleNames, List.mem_eraseDups, List.mem_map, List.mem_filter,
    Db.mem_listBuiltinRoles, decide_eq_true_eq, mem_matchingRoleIds]
  constructor
  · rintro ⟨b, ⟨⟨hb, horg⟩, happ⟩, hrole⟩
    exact ⟨b, hb, horg, happ, hrole⟩
  · rintro ⟨b, hb, horg, happ, hrole⟩
    exact ⟨b, ⟨⟨hb, horg⟩, happ⟩, hrole⟩

/-- **Who the router finds.** -/
theorem mem_findApprovers {db : Db} {orgId : String} {row : ApprovalRequest}
    {userId : String} :
    userId ∈ findApprovers db orgId row ↔
      (∃ r ∈ db.userRoles, r.userId = userId ∧ (r.orgId = orgId ∨ r.orgId = "") ∧
        Approves db row r.roleId) ∨
      (∃ r ∈ db.teamRoles, (r.orgId = orgId ∨ r.orgId = "") ∧ Approves db row r.roleId ∧
        ∃ m ∈ db.teamMembers, m.teamId = r.teamId ∧ m.userId = userId) ∨
      (∃ b ∈ db.builtinRoles, b.orgId = orgId ∧ Approves db row b.roleId ∧
        ∃ mu ∈ db.listUsersByOrg orgId routerLimit, mu.1.role.text = b.role ∧
          mu.1.userId = userId) := by
  unfold findApprovers
  split
  · -- no permission matches, so no role approves
    rename_i hempty
    have hnone (roleId : String) : ¬ Approves db row roleId := by
      rw [← mem_matchingRoleIds, List.isEmpty_iff.mp hempty]
      exact List.not_mem_nil
    simp [hnone]
  · rw [List.mem_eraseDups, List.mem_append, List.mem_append, or_assoc]
    refine or_congr ?_ (or_congr ?_ ?_)
    · simp only [List.mem_flatMap, List.mem_map, List.mem_filter, mem_matchingRoleIds,
        Db.listUsersOfRole, decide_eq_true_eq]
      constructor
      · rintro ⟨roleId, happ, r, ⟨⟨hr, rfl⟩, horg⟩, hu⟩
        exact ⟨r, hr, hu, horg, happ⟩
      · rintro ⟨r, hr, hu, horg, happ⟩
        exact ⟨r.roleId, happ, r, ⟨⟨hr, rfl⟩, horg⟩, hu⟩
    · simp only [List.mem_flatMap, List.mem_map, List.mem_filter, mem_matchingRoleIds,
        Db.listTeamsOfRole, Db.listTeamMembers, decide_eq_true_eq]
      constructor
      · rintro ⟨roleId, happ, r, ⟨⟨hr, rfl⟩, horg⟩, m, ⟨hm, hteam⟩, hu⟩
        exact ⟨r, hr, horg, happ, m, hm, hteam, hu⟩
      · rintro ⟨r, hr, horg, happ, m, hm, hteam, hu⟩
        exact ⟨r.roleId, happ, r, ⟨⟨hr, rfl⟩, horg⟩, m, ⟨hm, hteam⟩, hu⟩
    · split
      · rename_i hempty
        constructor
        · intro h
          exact absurd h List.not_mem_nil
        · rintro ⟨b, hb, horg, happ, -⟩
          have hin := mem_matchingBuiltinRoleNames.mpr ⟨b, hb, horg, happ, rfl⟩
          rw [List.isEmpty_iff.mp hempty] at hin
          exact absurd hin List.not_mem_nil
      · simp only [List.mem_map, List.mem_filter, decide_eq_true_eq,
          mem_matchingBuiltinRoleNames]
        constructor
        · rintro ⟨mu, ⟨hmu, b, hb, horg, happ, hrole⟩, hu⟩
          exact ⟨b, hb, horg, happ, mu, hmu, hrole.symm, hu⟩
        · rintro ⟨b, hb, horg, happ, mu, hmu, hrole, hu⟩
          exact ⟨mu, ⟨hmu, b, hb, horg, happ, hrole.symm⟩, hu⟩

/-! ## Routing and authorisation -/

/-- The identity of a user in an org: the role of the membership, the flag of
the user row. -/
def identityIn (db : Db) (u : User) (orgId : String) : Identity :=
  { userId := u.id, orgId := orgId,
    orgRole := ((db.findMembership orgId u.id).map (·.role)).getD .none,
    isServerAdmin := u.isAdmin }

def Authorised (db : Db) (u : User) (orgId : String) (row : ApprovalRequest) : Prop :=
  ∃ p ∈ getUserPermissions db (identityIn db u orgId), p.action = approvalsApprove ∧
    ∃ s ∈ approvalRowScopes row, scopeCovers p.scope s = true

def OnFirstPage (db : Db) (orgId : String) (u : User) : Prop :=
  ((db.members orgId).filter fun mu => decide (mu.2.login < u.login)).length < routerLimit

def SharedSource (db : Db) (u : User) (orgId : String) (row : ApprovalRequest) : Prop :=
  ∃ roleId, Approves db row roleId ∧
    (FromAssignment db (identityIn db u orgId) roleId ∨
      FromTeam db (identityIn db u orgId) roleId ∨
      (FromBuiltin db (identityIn db u orgId) roleId ∧ OnFirstPage db orgId u))

/-- An approving role only the access-control service sees: the server-admin
role, or the built-in role of a member past the first page. -/
def AuthorisationOnly (db : Db) (u : User) (orgId : String) (row : ApprovalRequest) : Prop :=
  ∃ roleId, Approves db row roleId ∧
    (FromServerAdmin db (identityIn db u orgId) roleId ∨
      (FromBuiltin db (identityIn db u orgId) roleId ∧ ¬ OnFirstPage db orgId u))

/-- An approving role only the router sees: a team the user is a member of in
another org, or a built-in role bound to `None`. -/
def RoutingOnly (db : Db) (u : User) (orgId : String) (row : ApprovalRequest) : Prop :=
  (∃ r ∈ db.teamRoles, (r.orgId = orgId ∨ r.orgId = "") ∧ Approves db row r.roleId ∧
    ∃ m ∈ db.teamMembers, m.teamId = r.teamId ∧ m.userId = u.id ∧ m.orgId ≠ orgId) ∨
  (db.findMembership orgId u.id = some ⟨orgId, u.id, .none⟩ ∧ OnFirstPage db orgId u ∧
    ∃ b ∈ db.builtinRoles, b.orgId = orgId ∧ b.role = "None" ∧ Approves db row b.roleId)

/-- Every approving row of the user's roles is hidden by one with the same
`action|scope` text. -/
def Masked (db : Db) (u : User) (orgId : String) (row : ApprovalRequest) : Prop :=
  ∀ p ∈ db.permissions, p.roleId ∈ roleIds db (identityIn db u orgId) →
    p.action = approvalsApprove → (∃ s ∈ approvalRowScopes row, scopeCovers p.scope s = true) →
    ∃ q ∈ db.permissions, q.roleId ∈ roleIds db (identityIn db u orgId) ∧ Hides q p

theorem source_iff {db : Db} {u : User} {orgId : String} {row : ApprovalRequest}
    (horg : orgId ≠ "") :
    SharedSource db u orgId row ∨ AuthorisationOnly db u orgId row ↔
      ∃ roleId ∈ roleIds db (identityIn db u orgId), Approves db row roleId := by
  constructor
  · rintro (⟨roleId, happ, hsrc⟩ | ⟨roleId, happ, hsrc⟩)
    · refine ⟨roleId, (mem_roleIds horg).mpr ?_, happ⟩
      rcases hsrc with h | h | ⟨h, -⟩
      · exact Or.inr (Or.inr (Or.inl h))
      · exact Or.inr (Or.inr (Or.inr h))
      · exact Or.inl h
    · refine ⟨roleId, (mem_roleIds horg).mpr ?_, happ⟩
      rcases hsrc with h | ⟨h, -⟩
      · exact Or.inr (Or.inl h)
      · exact Or.inl h
  · rintro ⟨roleId, hrole, happ⟩
    rcases (mem_roleIds horg).mp hrole with h | h | h | h
    · by_cases hpage : OnFirstPage db orgId u
      · exact Or.inl ⟨roleId, happ, Or.inr (Or.inr ⟨h, hpage⟩)⟩
      · exact Or.inr ⟨roleId, happ, Or.inr ⟨h, hpage⟩⟩
    · exact Or.inr ⟨roleId, happ, Or.inl h⟩
    · exact Or.inl ⟨roleId, happ, Or.inl h⟩
    · exact Or.inl ⟨roleId, happ, Or.inr (Or.inl h)⟩

theorem authorised_iff {db : Db} {u : User} {orgId : String} {row : ApprovalRequest}
    (horg : orgId ≠ "") :
    Authorised db u orgId row ↔
      (SharedSource db u orgId row ∨ AuthorisationOnly db u orgId row) ∧
        ¬ Masked db u orgId row := by
  rw [source_iff horg]
  constructor
  · rintro ⟨rp, hrp, hact, hcov⟩
    obtain ⟨p, hp, hrole, rfl, hhide⟩ := mem_getUserPermissions.mp hrp
    refine ⟨⟨p.roleId, hrole, p, hp, rfl, hact, hcov⟩, fun hmask => ?_⟩
    obtain ⟨q, hq, hqrole, hqhide⟩ := hmask p hp hrole hact hcov
    exact hhide q hq hqrole hqhide
  · rintro ⟨-, hmask⟩
    simp only [Masked, not_forall, not_exists, not_and] at hmask
    obtain ⟨p, hp, hrole, hact, hcov, hhide⟩ := hmask
    exact ⟨⟨p.action, p.scope⟩, mem_getUserPermissions.mpr ⟨p, hp, hrole, rfl, hhide⟩,
      hact, hcov⟩

/-! ## Members and their page -/

theorem mem_members {db : Db} {orgId : String} {mu : OrgUser × User} :
    mu ∈ db.members orgId ↔
      mu.1 ∈ db.orgUsers ∧ mu.1.orgId = orgId ∧ mu.2 ∈ db.users ∧ mu.2.id = mu.1.userId := by
  obtain ⟨m, u⟩ := mu
  simp only [Db.members, List.mem_flatMap, List.mem_map, List.mem_filter, decide_eq_true_eq,
    Prod.mk.injEq]
  constructor
  · rintro ⟨m', ⟨hm, horg⟩, u', ⟨hu, hid⟩, rfl, rfl⟩
    exact ⟨hm, horg, hu, hid⟩
  · rintro ⟨hm, horg, hu, hid⟩
    exact ⟨m, ⟨hm, horg⟩, u, ⟨hu, hid⟩, rfl, rfl⟩

theorem nodup_member_logins {db : Db} (hschema : db.Schema) (orgId : String) :
    ((db.members orgId).map (·.2.login)).Nodup := by
  have hlogin {u v : User} (hu : u ∈ db.users) (hv : v ∈ db.users)
      (h : u.login = v.login) : u = v := List.inj_on_of_nodup_map hschema.user_login hu hv h
  rw [List.Nodup, List.pairwise_map, Db.members, List.pairwise_flatMap]
  constructor
  · intro m _
    rw [List.pairwise_map]
    have husers : (db.users.map (·.login)).Nodup := hschema.user_login
    rw [List.Nodup, List.pairwise_map] at husers
    exact husers.filter _
  · have hpairs : (db.orgUsers.map fun m => (m.orgId, m.userId)).Nodup := hschema.org_user
    rw [List.Nodup, List.pairwise_map] at hpairs
    refine (hpairs.filter _).imp_of_mem ?_
    intro m m' hm hm' hne mu hmu mu' hmu' heq
    obtain ⟨u, hu, rfl⟩ := List.mem_map.mp hmu
    obtain ⟨u', hu', rfl⟩ := List.mem_map.mp hmu'
    rw [List.mem_filter, decide_eq_true_eq] at hm hm' hu hu'
    have huu : u = u' := hlogin hu.1 hu'.1 heq
    refine hne (Prod.ext (hm.2.trans hm'.2.symm) ?_)
    exact hu.2.symm.trans ((congrArg User.id huu).trans hu'.2)

theorem mem_listUsersByOrg {db : Db} (hschema : db.Schema) {orgId : String}
    {mu : OrgUser × User} :
    mu ∈ db.listUsersByOrg orgId routerLimit ↔
      mu ∈ db.members orgId ∧ OnFirstPage db orgId mu.2 := by
  have hkeys := nodup_member_logins hschema orgId
  constructor
  · intro h
    have hmem : mu ∈ db.members orgId := List.mem_mergeSort.mp (List.mem_of_mem_take h)
    exact ⟨hmem, (mem_take_mergeSort hkeys hmem).mp h⟩
  · rintro ⟨hmem, hpage⟩
    exact (mem_take_mergeSort hkeys hmem).mpr hpage

theorem findMembership_eq {db : Db} (hschema : db.Schema) {m : OrgUser}
    (hm : m ∈ db.orgUsers) : db.findMembership m.orgId m.userId = some m := by
  cases hfind : db.findMembership m.orgId m.userId with
  | none =>
    have hnone := List.find?_eq_none.mp hfind m hm
    simp at hnone
  | some m' =>
    have hm' := List.mem_of_find?_eq_some hfind
    have hcond := List.find?_some hfind
    rw [decide_eq_true_eq] at hcond
    exact congrArg some (List.inj_on_of_nodup_map hschema.org_user hm' hm
      (Prod.ext hcond.1 hcond.2))

theorem mem_of_findMembership {db : Db} {orgId userId : String} {m : OrgUser}
    (h : db.findMembership orgId userId = some m) :
    m ∈ db.orgUsers ∧ m.orgId = orgId ∧ m.userId = userId := by
  have hcond := List.find?_some h
  rw [decide_eq_true_eq] at hcond
  exact ⟨List.mem_of_find?_eq_some h, hcond⟩

theorem builtin_reached_iff {db : Db} (hschema : db.Schema) {orgId : String}
    {row : ApprovalRequest} {u : User} (hu : u ∈ db.users) :
    (∃ b ∈ db.builtinRoles, b.orgId = orgId ∧ Approves db row b.roleId ∧
      ∃ mu ∈ db.listUsersByOrg orgId routerLimit, mu.1.role.text = b.role ∧
        mu.1.userId = u.id) ↔
      ∃ m, db.findMembership orgId u.id = some m ∧ OnFirstPage db orgId u ∧
        ∃ b ∈ db.builtinRoles, b.orgId = orgId ∧ b.role = m.role.text ∧
          Approves db row b.roleId := by
  constructor
  · rintro ⟨b, hb, horg, happ, ⟨m, v⟩, hmu, hrole, huid⟩
    obtain ⟨hmem, hpage⟩ := (mem_listUsersByOrg hschema).mp hmu
    obtain ⟨hm, hmorg, hv, hvid⟩ := mem_members.mp hmem
    obtain rfl : v = u :=
      List.inj_on_of_nodup_map hschema.user_id hv hu (hvid.trans huid)
    refine ⟨m, ?_, hpage, b, hb, horg, hrole.symm, happ⟩
    rw [← hmorg, ← huid]
    exact findMembership_eq hschema hm
  · rintro ⟨m, hfind, hpage, b, hb, horg, hrole, happ⟩
    obtain ⟨hm, hmorg, huid⟩ := mem_of_findMembership hfind
    refine ⟨b, hb, horg, happ, (m, u), (mem_listUsersByOrg hschema).mpr ⟨?_, hpage⟩,
      hrole.symm, huid⟩
    exact mem_members.mpr ⟨hm, hmorg, hu, huid.symm⟩

theorem routed_iff {db : Db} (hschema : db.Schema) {orgId : String} {row : ApprovalRequest}
    {u : User} (hu : u ∈ db.users) :
    u.id ∈ findApprovers db orgId row ↔
      SharedSource db u orgId row ∨ RoutingOnly db u orgId row := by
  rw [mem_findApprovers, builtin_reached_iff hschema hu]
  constructor
  · rintro (⟨r, hr, huid, horg, happ⟩ | ⟨r, hr, horg, happ, m, hm, hteam, huid⟩ |
      ⟨m, hfind, hpage, b, hb, horg, hrole, happ⟩)
    · exact Or.inl ⟨r.roleId, happ, Or.inl ⟨r, hr, huid, horg, rfl⟩⟩
    · by_cases hmorg : m.orgId = orgId
      · exact Or.inl ⟨r.roleId, happ,
          Or.inr (Or.inl ⟨m, hm, huid, hmorg, r, hr, hteam.symm, horg, rfl⟩)⟩
      · exact Or.inr (Or.inl ⟨r, hr, horg, happ, m, hm, hteam, huid, hmorg⟩)
    · by_cases hnone : m.role = .none
      · obtain ⟨-, hmorg, huid⟩ := mem_of_findMembership hfind
        have hm : m = ⟨orgId, u.id, .none⟩ := by
          rw [← hmorg, ← huid, ← hnone]
        rw [hnone] at hrole
        exact Or.inr (Or.inr ⟨hm ▸ hfind, hpage, b, hb, horg, hrole, happ⟩)
      · have horgRole : (identityIn db u orgId).orgRole = m.role := by
          simp [identityIn, hfind]
        refine Or.inl ⟨b.roleId, happ, Or.inr (Or.inr ⟨⟨?_, b, hb, horg, ?_, rfl⟩, hpage⟩)⟩
        · rw [horgRole]
          exact hnone
        · rw [horgRole]
          exact hrole
  · rintro (⟨roleId, happ, hsrc⟩ | hroute)
    · rcases hsrc with ⟨r, hr, huid, horg, rfl⟩ | ⟨m, hm, huid, hmorg, r, hr, hteam, horg, rfl⟩ |
        ⟨⟨hnone, b, hb, horg, hrole, rfl⟩, hpage⟩
      · exact Or.inl ⟨r, hr, huid, horg, happ⟩
      · exact Or.inr (Or.inl ⟨r, hr, horg, happ, m, hm, hteam.symm, huid⟩)
      · cases hfind : db.findMembership orgId u.id with
        | none => exact absurd (by simp [identityIn, hfind]) hnone
        | some m =>
          have horgRole : (identityIn db u orgId).orgRole = m.role := by
            simp [identityIn, hfind]
          rw [horgRole] at hrole
          exact Or.inr (Or.inr ⟨m, rfl, hpage, b, hb, horg, hrole, happ⟩)
    · rcases hroute with ⟨r, hr, horg, happ, m, hm, hteam, huid, -⟩ |
        ⟨hfind, hpage, b, hb, horg, hrole, happ⟩
      · exact Or.inr (Or.inl ⟨r, hr, horg, happ, m, hm, hteam, huid⟩)
      · exact Or.inr (Or.inr ⟨_, hfind, hpage, b, hb, horg, hrole, happ⟩)

/-- **When routing and authorisation agree.** In every state the schema admits,
the router finds a user exactly when the access-control service authorises the
user, if and only if the user has an unmasked approving role from a shared
source, or one that each side sees for a reason of its own, or none that the
router sees and none that authorises. -/
theorem routing_agrees_iff (db : Db) (hschema : db.Schema) (orgId : String)
    (horg : orgId ≠ "") (row : ApprovalRequest) (u : User) (hu : u ∈ db.users) :
    (u.id ∈ findApprovers db orgId row ↔ Authorised db u orgId row) ↔
      (SharedSource db u orgId row ∧ ¬ Masked db u orgId row) ∨
      (RoutingOnly db u orgId row ∧ AuthorisationOnly db u orgId row ∧
        ¬ Masked db u orgId row) ∨
      (¬ SharedSource db u orgId row ∧ ¬ RoutingOnly db u orgId row ∧
        (AuthorisationOnly db u orgId row → Masked db u orgId row)) := by
  rw [routed_iff hschema hu, authorised_iff horg]
  by_cases hshared : SharedSource db u orgId row
  · simp [hshared]
  · by_cases hroute : RoutingOnly db u orgId row <;> simp [hshared, hroute]

/-! ## Two states -/

def approverDb : Db :=
  { orgs := ["org_main"], users := [⟨"u1", "ann", "ann@example.com", "org_main", false, false,
      false⟩],
    orgUsers := [⟨"org_main", "u1", .viewer⟩],
    roles := [⟨"r1", "org_main", "approver", "approver", 0, {}⟩],
    permissions := [⟨"p1", "r1", "approvals:approve", "approvals:*"⟩],
    userRoles := [⟨"org_main", "u1", "r1"⟩] }

theorem routing_agrees_assignment :
    "u1" ∈ findApprovers approverDb "org_main" (sampleRow "k8s-prod") ↔
      Authorised approverDb ⟨"u1", "ann", "ann@example.com", "org_main", false, false, false⟩
        "org_main" (sampleRow "k8s-prod") := by
  have hschema : approverDb.Schema :=
    ⟨by decide, by decide, by decide, by
      intro m hm
      obtain rfl := List.mem_singleton.mp hm
      exact ⟨_, List.mem_singleton_self _, rfl⟩⟩
  have hrole : FromAssignment approverDb (identityIn approverDb
      ⟨"u1", "ann", "ann@example.com", "org_main", false, false, false⟩ "org_main") "r1" :=
    ⟨_, List.mem_singleton_self _, rfl, Or.inl rfl, rfl⟩
  have hcov : ∃ s ∈ approvalRowScopes (sampleRow "k8s-prod"),
      scopeCovers "approvals:*" s = true := ⟨_, List.mem_cons_self, by decide⟩
  refine (routing_agrees_iff approverDb hschema "org_main" (by decide) (sampleRow "k8s-prod")
    _ (List.mem_singleton_self _)).mpr (Or.inl ⟨?_, ?_⟩)
  · exact ⟨"r1", ⟨_, List.mem_singleton_self _, rfl, rfl, hcov⟩, Or.inl hrole⟩
  · intro hmask
    obtain ⟨q, hq, -, -, hpair, -⟩ := hmask _ (List.mem_singleton_self _)
      ((mem_roleIds (by decide)).mpr (Or.inr (Or.inr (Or.inl hrole)))) rfl hcov
    obtain rfl := List.mem_singleton.mp hq
    exact hpair ⟨rfl, rfl⟩

def serverAdminDb : Db :=
  { orgs := ["org_main"], users := [⟨"root", "root", "root@example.com", "org_main", true, false,
      false⟩],
    roles := [⟨"sa", "", "basic:server_admin", "basic:server_admin", 0, {}⟩],
    permissions := [⟨"p1", "sa", "approvals:approve", "*"⟩],
    builtinRoles := [⟨"Server Admin", "sa", ""⟩] }

/-- The server admin may approve the row and is not told about it. -/
theorem routing_misses_server_admin :
    serverAdminDb.Schema ∧
    ¬ ("root" ∈ findApprovers serverAdminDb "org_main" (sampleRow "k8s-prod") ↔
      Authorised serverAdminDb
        ⟨"root", "root", "root@example.com", "org_main", true, false, false⟩
        "org_main" (sampleRow "k8s-prod")) := by
  refine ⟨⟨by decide, by decide, by decide, fun m hm => absurd hm List.not_mem_nil⟩, ?_⟩
  intro hagree
  have hcov : ∃ s ∈ approvalRowScopes (sampleRow "k8s-prod"), scopeCovers "*" s = true :=
    ⟨_, List.mem_cons_self, by decide⟩
  have hrole : "sa" ∈ roleIds serverAdminDb (identityIn serverAdminDb
      ⟨"root", "root", "root@example.com", "org_main", true, false, false⟩ "org_main") :=
    (mem_roleIds (by decide)).mpr
      (Or.inr (Or.inl ⟨rfl, _, List.mem_singleton_self _, rfl, rfl, rfl⟩))
  have hauth : Authorised serverAdminDb
      ⟨"root", "root", "root@example.com", "org_main", true, false, false⟩
      "org_main" (sampleRow "k8s-prod") := by
    refine ⟨⟨"approvals:approve", "*"⟩, mem_getUserPermissions.mpr
      ⟨_, List.mem_singleton_self _, hrole, rfl, ?_⟩, rfl, hcov⟩
    rintro q hq - ⟨-, hpair, -⟩
    obtain rfl := List.mem_singleton.mp hq
    exact hpair ⟨rfl, rfl⟩
  rcases mem_findApprovers.mp (hagree.mpr hauth) with ⟨r, hr, -⟩ | ⟨r, hr, -⟩ | ⟨b, hb, horg, -⟩
  · exact absurd hr List.not_mem_nil
  · exact absurd hr List.not_mem_nil
  · obtain rfl := List.mem_singleton.mp hb
    exact absurd horg (by decide)

end OpenObs.Approvals
