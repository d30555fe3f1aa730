import OpenObs.Approvals.Routing
import OpenObs.Approvals.Store

/-!
# Approvals of another org

The detail, approve, reject and override routes of `routes/approval.ts`.
-/

namespace OpenObs.Approvals

open OpenObs.Foundation OpenObs.Plans OpenObs.Rbac

/-! ## The routes -/

def approvalsOverride : String := "approvals:override"

/-- The evaluator of `evalRowAccess`. -/
def rowEvaluator (permissions : List ResolvedPermission) (action : String)
    (row : ApprovalRequest) : Evaluator :=
  .any ((approvalRowScopes row ++
    if holdsApprovalsWildcard permissions action then ["approvals:*"] else []).map
      fun s => .action action [s])

/-- `evalRowAccess` through the access-control service of the gateway, its
fallback included. -/
def rowAccess (db : Db) (identity : Identity) (action : String) (row : ApprovalRequest) :
    Bool :=
  AccessControl.evaluate (.gateway db) db identity
    (rowEvaluator (ensurePermissions db identity) action row)

inductive Request : Type where
  | detail (id : String)
  | resolve (verdict : Verdict) (id : String)

inductive Response : Type where
  | notFound
  | conflict (message : String)
  | ok (row : ApprovalRequest)

def statusText : ApprovalStatus → String
  | .pending => "pending"
  | .approved => "approved"
  | .rejected => "rejected"
  | .expired => "expired"

def Verdict.action : Verdict → String
  | .approve => approvalsApprove
  | .reject => approvalsApprove
  | .override => approvalsOverride

def Verdict.refusal (record : ApprovalRequest) : Verdict → Response
  | .approve => .conflict
      ("Approval request is already " ++ statusText record.status ++ " and cannot be approved")
  | .reject => .conflict
      ("Approval request is already " ++ statusText record.status ++ " and cannot be rejected")
  | .override => .notFound

def legacyOrgRole : OrgRole → String
  | .admin => "admin"
  | .editor => "operator"
  | _ => "viewer"

def resolvedByRoles (identity : Identity) : List String :=
  if identity.isServerAdmin then ["admin"] else [legacyOrgRole identity.orgRole]

def route (db : Db) (identity : Identity) : Request → Prog World Response
  | .detail id => do
      let record ← findById id
      match record with
      | none => return .notFound
      | some record =>
        if rowAccess db identity approvalsRead record then return .ok record
        else return .notFound
  | .resolve verdict id => do
      let record ← findById id
      match record with
      | none => return .notFound
      | some record =>
        if rowAccess db identity verdict.action record then do
          let updated ←
            resolution verdict id identity.userId (some (resolvedByRoles identity))
          match updated with
          | none => return verdict.refusal record
          | some row => return .ok row
        else return .notFound

/-! ## Who passes the row check -/

/-- Some permission the caller holds, in whatever org, covers a scope of the
row; or the legacy ACL of a dashboard that the scopes of the row spell out. -/
def Reaches (db : Db) (identity : Identity) (action : String) (row : ApprovalRequest) :
    Prop :=
  (∃ p ∈ ensurePermissions db identity, p.action = action ∧
    ∃ want ∈ approvalRowScopes row, scopeCovers p.scope want = true) ∨
  ∃ target, extractDashboardAclTarget
      (rowEvaluator (ensurePermissions db identity) action row) = some target ∧
    grantsAtLeast db identity.orgId target.uid identity target.level = true

theorem rowAccess_iff {db : Db} {identity : Identity} {action : String}
    {row : ApprovalRequest} :
    rowAccess db identity action row = true ↔ Reaches db identity action row := by
  have hprimary : (effective (.gateway db) identity.orgId
      (rowEvaluator (ensurePermissions db identity) action row)).evaluate
        (ensurePermissions db identity) =
      evalRowAccess (Resolvers.byKind db identity.orgId) (ensurePermissions db identity)
        action row := by
    rw [evaluate_effective]
    refine congrArg (Evaluator.evaluate _) (Evaluator.mutate_congr fun s hs => ?_)
    have hmem : s ∈ approvalRowScopes row ++
        if holdsApprovalsWildcard (ensurePermissions db identity) action then ["approvals:*"]
        else [] := by
      simpa [rowEvaluator, Evaluator.scopes, List.mem_flatMap] using hs
    have hself : Rbac.resolve (Resolvers.byKind db identity.orgId) s = [s] :=
      resolve_candidate hmem
    show tokenResolver (registry db identity.orgId) s = _
    rw [tokenResolver, registry, hself, ite_self]
  rw [rowAccess, AccessControl.evaluate_iff, hprimary, evalRowAccess_iff]
  simp [Reaches, AccessControlDeps.gateway]

/-! ## A request alone -/

theorem run_resolution {verdict : Verdict} {id resolvedBy : String}
    {roles : Option (List String)} {w : World} {a : ApprovalRequest}
    (ha : w.approval id = some a) :
    (resolution verdict id resolvedBy roles).run w =
      if verdict = .override ∨ a.status = .pending then
        (.ok (some (a.resolve verdict.status resolvedBy w.now roles)),
          resolvedWorld verdict id resolvedBy roles w
            (a.resolve verdict.status resolvedBy w.now roles))
      else (.ok none, w) := by
  have hresolve (v : Verdict) : (announce (resolve id v.status resolvedBy roles)).run w =
      (.ok (some (a.resolve v.status resolvedBy w.now roles)),
        resolvedWorld v id resolvedBy roles w (a.resolve v.status resolvedBy w.now roles)) := by
    have hrow : (w.resolveApproval id v.status resolvedBy roles).approval id =
        some (a.resolve v.status resolvedBy w.now roles) := World.approval_resolveApproval ha
    simp only [announce, resolve, Prog.atomic, bind, Prog.bind, Prog.run, hrow]
    rfl
  have hpending (v : Verdict) :
      (announce (resolvePending v.status id resolvedBy roles)).run w =
        if a.status = .pending then
          (announce (resolve id v.status resolvedBy roles)).run w
        else (.ok none, w) := by
    simp only [announce, resolvePending, findById, Prog.read, bind, Prog.bind, Prog.run, ha]
    by_cases hp : a.status = .pending
    · simp only [hp, if_true]
      rfl
    · simp only [hp, if_false]
      rfl
  cases verdict with
  | approve =>
    show (announce (resolvePending Verdict.approve.status id resolvedBy roles)).run w = _
    rw [hpending, hresolve]
    simp
  | reject =>
    show (announce (resolvePending Verdict.reject.status id resolvedBy roles)).run w = _
    rw [hpending, hresolve]
    simp
  | override =>
    show (announce (resolve id Verdict.override.status resolvedBy roles)).run w = _
    rw [hresolve]
    simp

theorem run_detail {db : Db} {identity : Identity} {w : World} {rowId : String} :
    (route db identity (.detail rowId)).run w =
      match w.approval rowId with
      | none => (.ok .notFound, w)
      | some record =>
        (.ok (if rowAccess db identity approvalsRead record then .ok record else .notFound),
          w) := by
  simp only [route, findById, Prog.read, bind, Prog.bind, Prog.run, id]
  cases w.approval rowId with
  | none => rfl
  | some record =>
    dsimp only
    split <;> rfl

theorem run_resolve_denied {db : Db} {identity : Identity} {w : World} {verdict : Verdict}
    {rowId : String} (h : ∀ record, w.approval rowId = some record →
      rowAccess db identity verdict.action record = false) :
    (route db identity (.resolve verdict rowId)).run w = (.ok .notFound, w) := by
  simp only [route, findById, Prog.read, bind, Prog.bind, Prog.run, id]
  cases hrow : w.approval rowId with
  | none => rfl
  | some record =>
    simp only [h record hrow, Bool.false_eq_true, if_false]
    rfl

theorem run_resolve_allowed {db : Db} {identity : Identity} {w : World} {verdict : Verdict}
    {rowId : String} {record : ApprovalRequest} (hrow : w.approval rowId = some record)
    (haccess : rowAccess db identity verdict.action record = true) :
    (route db identity (.resolve verdict rowId)).run w =
      if verdict = .override ∨ record.status = .pending then
        (.ok (.ok (record.resolve verdict.status identity.userId w.now
            (some (resolvedByRoles identity)))),
          resolvedWorld verdict rowId identity.userId (some (resolvedByRoles identity)) w
            (record.resolve verdict.status identity.userId w.now
              (some (resolvedByRoles identity))))
      else (.ok (verdict.refusal record), w) := by
  have hrun : (route db identity (.resolve verdict rowId)).run w =
      (resolution verdict rowId identity.userId (some (resolvedByRoles identity)) >>=
        fun updated => match updated with
          | none => pure (verdict.refusal record)
          | some row => pure (.ok row)).run w := by
    simp only [route, findById, Prog.read, bind, Prog.bind, Prog.run, id, hrow, haccess,
      if_true]
  rw [hrun, Prog.run_bind, run_resolution hrow]
  by_cases hopen : verdict = .override ∨ record.status = .pending
  · rw [if_pos hopen, if_pos hopen]
    rfl
  · rw [if_neg hopen, if_neg hopen]
    rfl

/-! ## Isolation -/

def Isolated (db : Db) (identity : Identity) (row : ApprovalRequest) (w : World) : Prop :=
  ∀ req : Request,
    (∀ r, ((route db identity req).run w).1 = .ok (.ok r) → r.id ≠ row.id) ∧
    ((route db identity req).run w).2.approval row.id = some row

/-- The row is out of the caller's reach: not to be read, not to be overridden,
and not to be resolved while it is pending. -/
def OutOfReach (db : Db) (identity : Identity) (row : ApprovalRequest) : Prop :=
  ¬ Reaches db identity approvalsRead row ∧ ¬ Reaches db identity approvalsOverride row ∧
  (row.status = .pending → ¬ Reaches db identity approvalsApprove row)

theorem outOfReach_of_isolated {db : Db} {identity : Identity} {row : ApprovalRequest}
    {w : World} (hrow : w.approval row.id = some row) (h : Isolated db identity row w) :
    OutOfReach db identity row := by
  -- a resolution that goes through returns the row
  have hresolve (verdict : Verdict) (hopen : verdict = .override ∨ row.status = .pending) :
      ¬ Reaches db identity verdict.action row := by
    intro hreach
    have hrun := run_resolve_allowed hrow (rowAccess_iff.mpr hreach)
    rw [if_pos hopen] at hrun
    exact (h (.resolve verdict row.id)).1 _ (congrArg Prod.fst hrun) rfl
  refine ⟨fun hread => ?_, hresolve .override (Or.inl rfl),
    fun hp => hresolve .approve (Or.inr hp)⟩
  refine (h (.detail row.id)).1 row ?_ rfl
  rw [run_detail, hrow]
  simp only [rowAccess_iff.mpr hread, if_true]

theorem isolated_of_outOfReach {db : Db} {identity : Identity} {row : ApprovalRequest}
    {w : World} (hrow : w.approval row.id = some row) (h : OutOfReach db identity row) :
    Isolated db identity row w := by
  obtain ⟨hread, hoverride, happrove⟩ := h
  rintro (rowId | ⟨verdict, rowId⟩)
  · rw [run_detail]
    cases hrec : w.approval rowId with
    | none => exact ⟨fun r hr => (nomatch hr), hrow⟩
    | some record =>
      refine ⟨fun r hr hid => ?_, hrow⟩
      dsimp only at hr
      by_cases hacc : rowAccess db identity approvalsRead record = true
      · rw [if_pos hacc] at hr
        cases hr
        rw [← hid, World.approval_id hrec, hrec] at hrow
        cases hrow
        exact hread (rowAccess_iff.mp hacc)
      · rw [if_neg hacc] at hr
        cases hr
  · by_cases hallowed : ∃ record, w.approval rowId = some record ∧
        rowAccess db identity verdict.action record = true
    · obtain ⟨record, hrec, haccess⟩ := hallowed
      rw [run_resolve_allowed hrec haccess]
      by_cases hid : rowId = row.id
      · subst hid
        cases hrow.symm.trans hrec
        have hreach := rowAccess_iff.mp haccess
        have hclosed : ¬ (verdict = .override ∨ row.status = .pending) := by
          rintro (rfl | hp)
          · exact hoverride hreach
          · cases verdict with
            | approve => exact happrove hp hreach
            | reject => exact happrove hp hreach
            | override => exact hoverride hreach
        rw [if_neg hclosed]
        refine ⟨fun r hr => ?_, hrow⟩
        cases verdict <;> cases hr
      · split
        · refine ⟨fun r hr => ?_, ?_⟩
          · cases hr
            show record.id ≠ row.id
            rw [World.approval_id hrec]
            exact hid
          · exact (World.approval_resolveApproval_ne (Ne.symm hid)).trans hrow
        · refine ⟨fun r hr => ?_, hrow⟩
          cases verdict <;> cases hr
    · rw [run_resolve_denied fun record hrec => by
        by_contra hacc
        exact hallowed ⟨record, hrec, by simpa using hacc⟩]
      exact ⟨fun r hr => (nomatch hr), hrow⟩

/-- **Isolation, exactly.** Whatever the orgs of the caller and of a stored row,
the routes keep the caller from the row if and only if no permission the caller
resolves to in its own org covers a scope of the row for reading, overriding
or, while it is pending, approving. -/
theorem isolated_iff (db : Db) (identity : Identity) (row : ApprovalRequest) (w : World)
    (hrow : w.approval row.id = some row) :
    Isolated db identity row w ↔ OutOfReach db identity row :=
  ⟨outOfReach_of_isolated hrow, isolated_of_outOfReach hrow⟩

/-! ## Two callers -/

def storeWith (row : ApprovalRequest) : World :=
  { plans := [], approvals := [row], calls := [], notified := [], now := "" }

def connectorReader (connectorId : String) : Identity :=
  { userId := "u1", orgId := "org_acme", orgRole := .none, isServerAdmin := false,
    permissions := some [⟨approvalsRead, "approvals:connector:" ++ connectorId⟩] }

/-- A grant on another connector does not reach the row. -/
theorem isolated_other_connector :
    Isolated {} (connectorReader "k8s-dev") (sampleRow "k8s-prod")
      (storeWith (sampleRow "k8s-prod")) := by
  have hno (action : String) :
      ¬ Reaches {} (connectorReader "k8s-dev") action (sampleRow "k8s-prod") := by
    rintro (⟨p, hp, -, want, hwant, hcov⟩ | ⟨target, -, hgrant⟩)
    · obtain rfl := List.mem_singleton.mp hp
      revert want
      decide
    · cases hgrant
  exact (isolated_iff {} (connectorReader "k8s-dev") (sampleRow "k8s-prod")
    (storeWith (sampleRow "k8s-prod")) rfl).mpr ⟨hno _, hno _, fun _ => hno _⟩

def twoOrgs : Db :=
  { orgs := ["org_main", "org_acme"],
    users := [⟨"u1", "ann", "ann@example.com", "org_acme", false, false, false⟩],
    orgUsers := [⟨"org_acme", "u1", .admin⟩],
    roles := [⟨"r1", "org_acme", "basic:admin", "basic:admin", 0, {}⟩],
    permissions := [⟨"p1", "r1", "approvals:read", "approvals:*"⟩],
    builtinRoles := [⟨"Admin", "r1", "org_acme"⟩] }

/-- The admin of one org reads the request of the other. -/
theorem detail_crosses_orgs :
    (sampleRow "k8s-prod").orgId = "org_main" ∧
    getUserPermissions twoOrgs (identityIn twoOrgs
      ⟨"u1", "ann", "ann@example.com", "org_acme", false, false, false⟩ "org_main") = [] ∧
    (route twoOrgs (identityIn twoOrgs
      ⟨"u1", "ann", "ann@example.com", "org_acme", false, false, false⟩ "org_acme")
        (.detail "appr-1")).run (storeWith (sampleRow "k8s-prod")) =
      (.ok (.ok (sampleRow "k8s-prod")), storeWith (sampleRow "k8s-prod")) := by
  refine ⟨rfl, by decide +kernel, ?_⟩
  have hreach : Reaches twoOrgs (identityIn twoOrgs
      ⟨"u1", "ann", "ann@example.com", "org_acme", false, false, false⟩ "org_acme")
        approvalsRead (sampleRow "k8s-prod") := by
    refine Or.inl ⟨⟨"approvals:read", "approvals:*"⟩, ?_, rfl, _, List.mem_cons_self,
      by decide⟩
    decide +kernel
  have haccess := rowAccess_iff.mpr hreach
  rw [run_detail]
  show (_, storeWith (sampleRow "k8s-prod")) = _
  rw [if_pos haccess]

end OpenObs.Approvals
