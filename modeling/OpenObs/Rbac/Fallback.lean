import OpenObs.Rbac.AccessControl

/-!
# The legacy fallback on composite checks

When the primary check of a tree fails, one dashboard named in the rendering
answers for the whole tree. The file says for which trees that answer is an
answer to every conjunct.
-/

namespace OpenObs.Rbac

namespace Evaluator

mutual

/-- The single checks every one of which a tree asks for: the pairs of action
and scope of the atoms reached through `ac.all` alone. -/
def conjunctChecks : Evaluator → List (String × String)
| .action a scopes => scopes.map fun s => (a, s)
| .resolvedAction _ _ => []
| .all children => conjunctChecksList children
| .any _ => []

def conjunctChecksList : List Evaluator → List (String × String)
| [] => []
| e :: es => conjunctChecks e ++ conjunctChecksList es

end

theorem conjunctChecksList_eq {children : List Evaluator} :
    conjunctChecksList children = children.flatMap conjunctChecks := by
  induction children with
  | nil => rfl
  | cons c cs ih => simp [conjunctChecksList, ih]

theorem evaluate_conjunct {resolve : String → List String}
    {permissions : List ResolvedPermission} {e : Evaluator} {a s : String}
    (hmem : (a, s) ∈ e.conjunctChecks)
    (h : evaluate permissions (e.mutate resolve) = true) :
    evaluate permissions ((action a [s]).mutate resolve) = true := by
  rw [evaluate_mutate] at h ⊢
  induction e using tree_induction with
  | action b scopes =>
    obtain ⟨t, ht, heq⟩ := List.mem_map.mp hmem
    cases heq
    simp only [reference, Bool.and_eq_true, List.all_eq_true] at h ⊢
    refine ⟨h.1, fun t ht' => ?_⟩
    obtain rfl := List.mem_singleton.mp ht'
    exact h.2 _ ht
  | resolvedAction b resolvedScopes => exact absurd hmem List.not_mem_nil
  | all children ih =>
    rw [conjunctChecks, conjunctChecksList_eq] at hmem
    obtain ⟨c, hc, hmem⟩ := List.mem_flatMap.mp hmem
    rw [reference, referenceAll_eq, List.all_eq_true] at h
    exact ih c hc hmem (h c hc)
  | any children => exact absurd hmem List.not_mem_nil

end Evaluator

/-! ## Who authorises a single check -/

def AuthorisedByRbac (deps : AccessControlDeps) (db : Db) (identity : Identity)
    (check : String × String) : Prop :=
  (effective deps identity.orgId (.action check.1 [check.2])).evaluate
    (ensurePermissions db identity) = true

def ChecksDashboard (check : String × String) (verb uid : String) : Prop :=
  verb ∈ aclVerbs ∧ check.1 = "dashboards:" ++ verb ∧ check.2 = "dashboards:uid:" ++ uid

def AuthorisedByAcl (db : Db) (identity : Identity) (check : String × String) : Prop :=
  ∃ verb uid, ChecksDashboard check verb uid ∧
    grantsAtLeast db identity.orgId uid identity (aclLevel verb) = true

/-- Whatever the tables hold and whoever asks, an allowed tree is authorised
check by check. -/
def SoundOn (deps : AccessControlDeps) (e : Evaluator) : Prop :=
  ∀ (db : Db) (identity : Identity), AccessControl.evaluate deps db identity e = true →
    ∀ check ∈ e.conjunctChecks,
      AuthorisedByRbac deps db identity check ∨ AuthorisedByAcl db identity check

/-- Every conjunct check is on the dashboard of the target and asks for no more
than its level. -/
def AnsweredBy (e : Evaluator) (target : AclTarget) : Prop :=
  ∀ check ∈ e.conjunctChecks, ∃ verb, ChecksDashboard check verb target.uid ∧
    aclLevel verb ≤ target.level

theorem grantsAtLeast_mono {db : Db} {orgId uid : String} {identity : Identity} {l l' : ℕ}
    (hle : l ≤ l') (h : grantsAtLeast db orgId uid identity l' = true) :
    grantsAtLeast db orgId uid identity l = true := by
  obtain ⟨entry, hentry, hg⟩ := List.any_eq_true.mp h
  rw [Bool.and_eq_true, decide_eq_true_eq] at hg
  refine List.any_eq_true.mpr ⟨entry, hentry, ?_⟩
  rw [Bool.and_eq_true, decide_eq_true_eq]
  exact ⟨hle.trans hg.1, hg.2⟩

theorem soundOn_of_answeredBy {deps : AccessControlDeps} {e : Evaluator}
    (h : ∀ target, extractDashboardAclTarget e = some target → AnsweredBy e target) :
    SoundOn deps e := by
  intro db identity hallowed check hcheck
  rcases AccessControl.evaluate_iff.mp hallowed with hrbac | ⟨-, target, htarget, hacl⟩
  · refine Or.inl ?_
    rw [evaluate_effective] at hrbac
    rw [AuthorisedByRbac, evaluate_effective]
    exact Evaluator.evaluate_conjunct hcheck hrbac
  · obtain ⟨verb, hverb, hlevel⟩ := h target htarget check hcheck
    exact Or.inr ⟨verb, target.uid, hverb, grantsAtLeast_mono hlevel hacl⟩

/-! ## A state in which only the target is granted -/

def onlyAcl (target : AclTarget) : Db :=
  { dashboardAcl := [⟨some target.uid, none, some "u", none, none, target.level⟩] }

def bareCaller : Identity :=
  { userId := "u", orgId := "org_main", orgRole := .none, isServerAdmin := false }

theorem ensurePermissions_onlyAcl (target : AclTarget) :
    ensurePermissions (onlyAcl target) bareCaller = [] := by
  simp [ensurePermissions, getUserPermissions, bareCaller, onlyAcl,
    Db.listPermissionsByRoles, dedupe]

theorem grantsAtLeast_onlyAcl {target : AclTarget} {uid : String} {level : ℕ} :
    grantsAtLeast (onlyAcl target) "org_main" uid bareCaller level = true ↔
      uid = target.uid ∧ level ≤ target.level := by
  have hentries : getForDashboard (onlyAcl target) "org_main" uid =
      (onlyAcl target).dashboardAcl.filter (·.dashboardId = some uid) := by
    rw [getForDashboard, show present (Db.folderUidOf (onlyAcl target).dashboards "org_main"
      uid) = none from rfl, List.append_nil]
  rw [grantsAtLeast, hentries]
  by_cases huid : target.uid = uid
  · simp [onlyAcl, huid, DashboardAcl.names, present, bareCaller]
  · simp [onlyAcl, huid, Ne.symm huid]

theorem not_authorisedByRbac_of_nil {deps : AccessControlDeps} {orgId a s : String} :
    (effective deps orgId (.action a [s])).evaluate [] = false := by
  rw [evaluate_effective]
  simp [Evaluator.mutate, Evaluator.evaluate, Evaluator.holds]

theorem evaluate_onlyAcl (deps : AccessControlDeps) {e : Evaluator} {target : AclTarget}
    (hacl : deps.legacyAcl = true) (htarget : extractDashboardAclTarget e = some target) :
    AccessControl.evaluate deps (onlyAcl target) bareCaller e = true :=
  AccessControl.evaluate_iff.mpr
    (Or.inr ⟨hacl, target, htarget, grantsAtLeast_onlyAcl.mpr ⟨rfl, Nat.le_refl _⟩⟩)

/-- **The fallback on composite checks.** Allowed trees are authorised check by
check, in every state and for every caller, exactly when the rendering names no
dashboard or every conjunct check is on the named one at a level no higher than
the named verb's. -/
theorem soundOn_iff (resolvers : Option (String → String → List String)) (e : Evaluator) :
    SoundOn ⟨resolvers, true⟩ e ↔
      ∀ target, extractDashboardAclTarget e = some target → AnsweredBy e target := by
  refine ⟨?_, soundOn_of_answeredBy⟩
  intro hsound target htarget check hcheck
  rcases hsound (onlyAcl target) bareCaller (evaluate_onlyAcl _ rfl htarget) check hcheck
    with hrbac | ⟨verb, uid, hdash, hgrant⟩
  · rw [AuthorisedByRbac, ensurePermissions_onlyAcl, not_authorisedByRbac_of_nil] at hrbac
    cases hrbac
  · obtain ⟨rfl, hlevel⟩ := grantsAtLeast_onlyAcl.mp hgrant
    exact ⟨verb, hdash, hlevel⟩

/-- A tree that asks for reading a dashboard and for writing a folder: the ACL
of the dashboard answers for both. -/
theorem fallback_answers_for_folder :
    AccessControl.evaluate (.gateway (onlyAcl ⟨"d1", 1⟩)) (onlyAcl ⟨"d1", 1⟩) bareCaller
      (.all [.action "dashboards:read" ["dashboards:uid:d1"],
        .action "folders:write" ["folders:uid:f2"]]) = true ∧
    ¬ SoundOn (.gateway (onlyAcl ⟨"d1", 1⟩))
      (.all [.action "dashboards:read" ["dashboards:uid:d1"],
        .action "folders:write" ["folders:uid:f2"]]) := by
  have htarget : extractDashboardAclTarget
      (.all [.action "dashboards:read" ["dashboards:uid:d1"],
        .action "folders:write" ["folders:uid:f2"]]) = some ⟨"d1", 1⟩ := by decide +kernel
  have hallowed := evaluate_onlyAcl (.gateway (onlyAcl ⟨"d1", 1⟩)) rfl htarget
  refine ⟨hallowed, fun hsound => ?_⟩
  have hmem : ("folders:write", "folders:uid:f2") ∈ Evaluator.conjunctChecks
      (.all [.action "dashboards:read" ["dashboards:uid:d1"],
        .action "folders:write" ["folders:uid:f2"]]) := by decide
  rcases hsound _ _ hallowed _ hmem with hrbac | ⟨verb, uid, ⟨hverb, haction, -⟩, -⟩
  · rw [AuthorisedByRbac, ensurePermissions_onlyAcl, not_authorisedByRbac_of_nil] at hrbac
    cases hrbac
  · simp only [aclVerbs, List.mem_cons, List.not_mem_nil, or_false] at hverb
    rcases hverb with rfl | rfl | rfl | rfl <;> exact absurd haction (by decide)

end OpenObs.Rbac
