import Mathlib.Data.String.Basic
import OpenObs.Rbac.AccessControl

/-!
# What an identity resolves to

The four sources of roles, and the permissions that come out of them. The
result is sorted by role, action and scope and keeps the first row of each
`action|scope` text, so a row can be hidden by one of another action whose text
is the same.
-/

namespace OpenObs.Rbac

/-! ## The roles -/

theorem Db.mem_listBuiltinRoles {db : Db} {orgId : String} {b : BuiltinRole} :
    b ∈ db.listBuiltinRoles orgId ↔ b ∈ db.builtinRoles ∧ b.orgId = orgId := by
  rw [Db.listBuiltinRoles, List.mem_mergeSort, List.mem_filter, decide_eq_true_eq]

theorem Db.readableIn_iff {orgId rowOrgId : String} (horg : orgId ≠ "") :
    Db.readableIn orgId rowOrgId = true ↔ rowOrgId = orgId ∨ rowOrgId = "" := by
  simp [Db.readableIn, horg]

def FromBuiltin (db : Db) (identity : Identity) (roleId : String) : Prop :=
  identity.orgRole ≠ .none ∧ ∃ b ∈ db.builtinRoles,
    b.orgId = identity.orgId ∧ b.role = identity.orgRole.text ∧ b.roleId = roleId

def FromServerAdmin (db : Db) (identity : Identity) (roleId : String) : Prop :=
  identity.isServerAdmin = true ∧ ∃ b ∈ db.builtinRoles,
    b.orgId = "" ∧ b.role = "Server Admin" ∧ b.roleId = roleId

def FromAssignment (db : Db) (identity : Identity) (roleId : String) : Prop :=
  ∃ r ∈ db.userRoles, r.userId = identity.userId ∧
    (r.orgId = identity.orgId ∨ r.orgId = "") ∧ r.roleId = roleId

def FromTeam (db : Db) (identity : Identity) (roleId : String) : Prop :=
  ∃ m ∈ db.teamMembers, m.userId = identity.userId ∧ m.orgId = identity.orgId ∧
    ∃ r ∈ db.teamRoles, r.teamId = m.teamId ∧
      (r.orgId = identity.orgId ∨ r.orgId = "") ∧ r.roleId = roleId

/-- **The four sources.** -/
theorem mem_roleIds {db : Db} {identity : Identity} (horg : identity.orgId ≠ "")
    {roleId : String} :
    roleId ∈ roleIds db identity ↔
      FromBuiltin db identity roleId ∨ FromServerAdmin db identity roleId ∨
      FromAssignment db identity roleId ∨ FromTeam db identity roleId := by
  have hbuiltin : roleId ∈ (if identity.orgRole = .none then []
      else ((db.listBuiltinRoles identity.orgId).filter
        (·.role = identity.orgRole.text)).map (·.roleId)) ↔
      FromBuiltin db identity roleId := by
    by_cases hrole : identity.orgRole = .none
    · simp [hrole, FromBuiltin]
    · simp [hrole, FromBuiltin, Db.mem_listBuiltinRoles, and_assoc]
  have hadmin : roleId ∈ (if identity.isServerAdmin then
      ((db.listBuiltinRoles "").filter (·.role = "Server Admin")).map (·.roleId) else []) ↔
      FromServerAdmin db identity roleId := by
    cases hserver : identity.isServerAdmin <;>
      simp [hserver, FromServerAdmin, Db.mem_listBuiltinRoles, and_assoc]
  have huser : roleId ∈ (db.listUserRoles identity.userId identity.orgId).map (·.roleId) ↔
      FromAssignment db identity roleId := by
    simp [Db.listUserRoles, Db.readableIn_iff horg, FromAssignment, and_assoc]
  have hteam : roleId ∈ (db.listTeamsRoles
      ((db.listTeamsForUser identity.userId identity.orgId).map (·.teamId))
      identity.orgId).map (·.roleId) ↔ FromTeam db identity roleId := by
    rw [List.mem_map]
    constructor
    · rintro ⟨r, hr, hid⟩
      obtain ⟨hr, hcond⟩ := List.mem_filter.mp hr
      obtain ⟨hteam, hread⟩ := of_decide_eq_true hcond
      obtain ⟨m, hm, hteam⟩ := List.mem_map.mp hteam
      obtain ⟨hm, hcond⟩ := List.mem_filter.mp hm
      obtain ⟨huid, hmorg⟩ := of_decide_eq_true hcond
      exact ⟨m, hm, huid, hmorg.resolve_left horg, r, hr, hteam.symm,
        (Db.readableIn_iff horg).mp hread, hid⟩
    · rintro ⟨m, hm, huid, hmorg, r, hr, hteam, hread, hid⟩
      have hmember : m ∈ db.listTeamsForUser identity.userId identity.orgId :=
        List.mem_filter.mpr ⟨hm, decide_eq_true ⟨huid, Or.inr hmorg⟩⟩
      refine ⟨r, List.mem_filter.mpr ⟨hr, decide_eq_true ⟨?_, ?_⟩⟩, hid⟩
      · rw [hteam]
        exact List.mem_map_of_mem hmember
      · exact (Db.readableIn_iff horg).mpr hread
  unfold roleIds
  rw [List.mem_append, List.mem_append, List.mem_append, hbuiltin, hadmin, huser, hteam,
    or_assoc, or_assoc]

/-! ## The order of the rows -/

namespace Db

theorem permissionLe_total (p q : Permission) :
    (permissionLe p q || permissionLe q p) = true := by
  simp only [permissionLe, Bool.or_eq_true, decide_eq_true_eq]
  rcases lt_trichotomy p.roleId q.roleId with hr | hr | hr
  · exact Or.inl (Or.inl hr)
  · rcases lt_trichotomy p.action q.action with ha | ha | ha
    · exact Or.inl (Or.inr ⟨hr, Or.inl ha⟩)
    · rcases le_total p.scope q.scope with hs | hs
      · exact Or.inl (Or.inr ⟨hr, Or.inr ⟨ha, hs⟩⟩)
      · exact Or.inr (Or.inr ⟨hr.symm, Or.inr ⟨ha.symm, hs⟩⟩)
    · exact Or.inr (Or.inr ⟨hr.symm, Or.inl ha⟩)
  · exact Or.inr (Or.inl hr)

theorem permissionLe_trans (p q r : Permission) (hpq : permissionLe p q = true)
    (hqr : permissionLe q r = true) : permissionLe p r = true := by
  simp only [permissionLe, decide_eq_true_eq] at hpq hqr ⊢
  rcases hpq with h | ⟨h, hpq⟩
  · rcases hqr with h' | ⟨h', -⟩
    · exact Or.inl (lt_trans h h')
    · exact Or.inl (h' ▸ h)
  · rcases hqr with h' | ⟨h', hqr⟩
    · exact Or.inl (h ▸ h')
    · refine Or.inr ⟨h.trans h', ?_⟩
      rcases hpq with ha | ⟨ha, hs⟩
      · rcases hqr with ha' | ⟨ha', -⟩
        · exact Or.inl (lt_trans ha ha')
        · exact Or.inl (ha' ▸ ha)
      · rcases hqr with ha' | ⟨ha', hs'⟩
        · exact Or.inl (ha ▸ ha')
        · exact Or.inr ⟨ha.trans ha', le_trans hs hs'⟩

theorem permissionLe_antisymm {p q : Permission} (hpq : permissionLe p q = true)
    (hqp : permissionLe q p = true) : p.action = q.action ∧ p.scope = q.scope := by
  simp only [permissionLe, decide_eq_true_eq] at hpq hqp
  rcases hpq with h | ⟨h, hpq⟩
  · rcases hqp with h' | ⟨h', -⟩
    · exact absurd h (lt_asymm h')
    · exact absurd h (h' ▸ lt_irrefl _)
  · rcases hqp with h' | ⟨-, hqp⟩
    · exact absurd h' (h ▸ lt_irrefl _)
    · rcases hpq with ha | ⟨ha, hs⟩
      · rcases hqp with ha' | ⟨ha', -⟩
        · exact absurd ha (lt_asymm ha')
        · exact absurd ha (ha' ▸ lt_irrefl _)
      · rcases hqp with ha' | ⟨-, hs'⟩
        · exact absurd ha' (ha ▸ lt_irrefl _)
        · exact ⟨ha, le_antisymm hs hs'⟩

end Db

/-! ## The permissions -/

theorem mem_dedupe {rp : ResolvedPermission} {rows : List Permission} :
    ∀ {seen : List String}, rp ∈ dedupe seen rows ↔
      ∃ before p after, rows = before ++ p :: after ∧ rp = ⟨p.action, p.scope⟩ ∧
        p.key ∉ seen ∧ ∀ q ∈ before, q.key ≠ p.key := by
  induction rows with
  | nil =>
    intro seen
    simp [dedupe]
  | cons p ps ih =>
    intro seen
    rw [dedupe]
    constructor
    · intro h
      split at h
      · rename_i hseen
        obtain ⟨before, q, after, rfl, rfl, hq, hbefore⟩ := ih.mp h
        refine ⟨p :: before, q, after, rfl, rfl, hq, ?_⟩
        intro t ht
        rcases List.mem_cons.mp ht with rfl | ht
        · exact fun heq => hq (heq ▸ hseen)
        · exact hbefore t ht
      · rename_i hseen
        rcases List.mem_cons.mp h with rfl | h
        · exact ⟨[], p, ps, rfl, rfl, hseen, fun t ht => absurd ht List.not_mem_nil⟩
        · obtain ⟨before, q, after, rfl, rfl, hq, hbefore⟩ := ih.mp h
          rw [List.mem_cons, not_or] at hq
          refine ⟨p :: before, q, after, rfl, rfl, hq.2, ?_⟩
          intro t ht
          rcases List.mem_cons.mp ht with rfl | ht
          · exact Ne.symm hq.1
          · exact hbefore t ht
    · rintro ⟨before, q, after, hrows, rfl, hq, hbefore⟩
      cases before with
      | nil =>
        cases hrows
        rw [if_neg hq]
        exact List.mem_cons_self
      | cons t ts =>
        cases hrows
        have hts : ∀ t' ∈ ts, t'.key ≠ q.key :=
          fun t' ht' => hbefore t' (List.mem_cons_of_mem _ ht')
        split
        · exact ih.mpr ⟨ts, q, after, rfl, rfl, hq, hts⟩
        · refine List.mem_cons_of_mem _ (ih.mpr ⟨ts, q, after, rfl, rfl, ?_, hts⟩)
          rw [List.mem_cons, not_or]
          exact ⟨fun heq => hbefore p List.mem_cons_self heq.symm, hq⟩

/-- `q` takes the place of `p`: the same text from another pair, sorted before. -/
def Hides (q p : Permission) : Prop :=
  q.key = p.key ∧ ¬ (q.action = p.action ∧ q.scope = p.scope) ∧ Db.permissionLe q p = true

theorem exists_first_key {rows : List Permission} {p : Permission} (hp : p ∈ rows) :
    ∃ before q after, rows = before ++ q :: after ∧ q.key = p.key ∧
      ∀ t ∈ before, t.key ≠ p.key := by
  induction rows with
  | nil => exact absurd hp List.not_mem_nil
  | cons r rs ih =>
    by_cases hr : r.key = p.key
    · exact ⟨[], r, rs, rfl, hr, fun t ht => absurd ht List.not_mem_nil⟩
    · have hps : p ∈ rs := by
        rcases List.mem_cons.mp hp with rfl | hps
        · exact absurd rfl hr
        · exact hps
      obtain ⟨before, q, after, rfl, hq, hbefore⟩ := ih hps
      refine ⟨r :: before, q, after, rfl, hq, ?_⟩
      intro t ht
      rcases List.mem_cons.mp ht with rfl | ht
      · exact hr
      · exact hbefore t ht

/-- **The permissions of an identity**: those of its roles, unless hidden. -/
theorem mem_getUserPermissions {db : Db} {identity : Identity} {rp : ResolvedPermission} :
    rp ∈ getUserPermissions db identity ↔
      ∃ p ∈ db.permissions, p.roleId ∈ roleIds db identity ∧ rp = ⟨p.action, p.scope⟩ ∧
        ∀ q ∈ db.permissions, q.roleId ∈ roleIds db identity → ¬ Hides q p := by
  have hmem (p : Permission) : p ∈ db.listPermissionsByRoles (roleIds db identity) ↔
      p ∈ db.permissions ∧ p.roleId ∈ roleIds db identity := by
    rw [Db.listPermissionsByRoles, List.mem_mergeSort, List.mem_filter, decide_eq_true_eq]
  have hsorted : (db.listPermissionsByRoles (roleIds db identity)).Pairwise
      fun a b => Db.permissionLe a b = true :=
    List.pairwise_mergeSort Db.permissionLe_trans Db.permissionLe_total _
  rw [getUserPermissions, mem_dedupe]
  constructor
  · rintro ⟨before, p, after, hrows, rfl, -, hbefore⟩
    have hp := (hmem p).mp (by rw [hrows]; simp)
    refine ⟨p, hp.1, hp.2, rfl, ?_⟩
    rintro q hq hqrole ⟨hkey, hpair, hle⟩
    have hin := (hmem q).mpr ⟨hq, hqrole⟩
    rw [hrows] at hin hsorted
    rcases List.mem_append.mp hin with hin | hin
    · exact hbefore q hin hkey
    · rcases List.mem_cons.mp hin with rfl | hin
      · exact hpair ⟨rfl, rfl⟩
      · -- behind `p` and before it: the same pair
        have hpq := (List.pairwise_cons.mp (List.pairwise_append.mp hsorted).2.1).1 q hin
        exact hpair (Db.permissionLe_antisymm hle hpq)
  · rintro ⟨p, hp, hprole, rfl, hhide⟩
    obtain ⟨before, q, after, hrows, hkey, hbefore⟩ :=
      exists_first_key ((hmem p).mpr ⟨hp, hprole⟩)
    have hq := (hmem q).mp (by rw [hrows]; simp)
    have hpin := (hmem p).mpr ⟨hp, hprole⟩
    have hsame : q.action = p.action ∧ q.scope = p.scope := by
      by_contra hpair
      refine hhide q hq.1 hq.2 ⟨hkey, hpair, ?_⟩
      rw [hrows] at hpin hsorted
      rcases List.mem_append.mp hpin with hpin | hpin
      · exact absurd rfl (hbefore p hpin)
      · rcases List.mem_cons.mp hpin with rfl | hpin
        · exact absurd ⟨rfl, rfl⟩ hpair
        · exact (List.pairwise_cons.mp (List.pairwise_append.mp hsorted).2.1).1 p hpin
    refine ⟨before, q, after, hrows, ?_, List.not_mem_nil, fun t ht => ?_⟩
    · rw [hsame.1, hsame.2]
    · rw [hkey]
      exact hbefore t ht

end OpenObs.Rbac
