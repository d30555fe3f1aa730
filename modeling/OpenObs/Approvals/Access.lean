import OpenObs.Rbac.Evaluator

/-!
# Reading approvals: the list and the detail

`GET /api/approvals` compiles the caller's grants into a filter (`approvalsReadScopeFilter`) that
the store turns into a `WHERE` clause (`buildListWhere`); `GET /api/approvals/:id` evaluates the
scopes of the row (`evalRowAccess`).
-/

namespace OpenObs.Approvals

open OpenObs.Foundation OpenObs.Plans OpenObs.Rbac

def approvalsRead : String := "approvals:read"

/-! ## The list -/

structure NarrowSets where
  uids : List String := []
  connectors : List String := []
  nsPairs : List (String × String) := []
  teams : List String := []

inductive ApprovalScopeFilter : Type where
  | wildcard
  | narrow (sets : NarrowSets)

def NarrowSets.add (sets : NarrowSets) : ApprovalScope → NarrowSets
  | .wildcard => sets
  | .uid id => { sets with uids := sets.uids ++ [id] }
  | .connector c => { sets with connectors := sets.connectors ++ [c] }
  | .«namespace» c ns => { sets with nsPairs := sets.nsPairs ++ [(c, ns)] }
  | .team t => { sets with teams := sets.teams ++ [t] }

/-- The loop over the read grants: a malformed scope is skipped, the wildcard
returns at once. -/
def collectGrants : List ResolvedPermission → NarrowSets → ApprovalScopeFilter
  | [], sets => .narrow sets
  | p :: reads, sets =>
    match parseApprovalScope p.scope with
    | none => collectGrants reads sets
    | some .wildcard => .wildcard
    | some parsed => collectGrants reads (sets.add parsed)

def approvalsReadScopeFilter (permissions : List ResolvedPermission) :
    ApprovalScopeFilter :=
  collectGrants (permissions.filter (·.action = approvalsRead)) {}

def condOn {α : Type} (set : List α) (cond : ApprovalRequest → Bool) :
    List (ApprovalRequest → Bool) :=
  if set.isEmpty then [] else [cond]

def narrowConds (sets : NarrowSets) : List (ApprovalRequest → Bool) :=
  condOn sets.uids (fun row => row.id ∈ sets.uids) ++
  condOn sets.connectors (fun row => row.opsConnectorId.any (· ∈ sets.connectors)) ++
  condOn sets.nsPairs (fun row => sets.nsPairs.any fun p =>
    row.opsConnectorId = some p.1 ∧ row.targetNamespace = some p.2) ++
  condOn sets.teams (fun row => row.requesterTeamId.any (· ∈ sets.teams))

/-- `none` is the sentinel `'EMPTY'`: no row at all. -/
def buildListWhere (orgId : String) (scopeFilter : Option ApprovalScopeFilter)
    (status : Option (List ApprovalStatus)) : Option (ApprovalRequest → Bool) :=
  if status = some [] then none
  else
    let base : ApprovalRequest → Bool := fun row =>
      row.orgId = orgId && status.all fun ss => row.status ∈ ss
    match scopeFilter with
    | some (.narrow sets) =>
      let ors := narrowConds sets
      if ors.isEmpty then none else some fun row => base row && ors.any fun cond => cond row
    | _ => some base

def list (store : List ApprovalRequest) (orgId : String)
    (scopeFilter : Option ApprovalScopeFilter) (status : Option (List ApprovalStatus)) :
    List ApprovalRequest :=
  match buildListWhere orgId scopeFilter status with
  | none => []
  -- `localeCompare` on ISO timestamps is the order of their characters
  | some cond => (store.filter cond).mergeSort fun a b => decide (a.createdAt ≤ b.createdAt)

/-- The rows `GET /api/approvals` answers with. -/
def listRoute (store : List ApprovalRequest) (orgId : String)
    (permissions : List ResolvedPermission) : List ApprovalRequest :=
  list store orgId (some (approvalsReadScopeFilter permissions)) none

/-! ## The detail -/

def holdsApprovalsWildcard (permissions : List ResolvedPermission) (action : String) :
    Bool :=
  permissions.any fun p => p.action = action ∧
    (p.scope = "approvals:*" ∨ p.scope = "approvals:*:*" ∨ p.scope = "*" ∨ p.scope = "")

/-- The row's own scopes, and the wildcard only for a caller that holds it;
`byKind` are the resolvers of the registry. -/
def evalRowAccess (byKind : String → String → List String)
    (permissions : List ResolvedPermission) (action : String) (row : ApprovalRequest) :
    Bool :=
  let candidates := approvalRowScopes row ++
    if holdsApprovalsWildcard permissions action then ["approvals:*"] else []
  ((Evaluator.any (candidates.map fun s => .action action [s])).mutate
    (Rbac.resolve byKind)).evaluate permissions

/-! ## What the list shows -/

def Selects (row : ApprovalRequest) : ApprovalScope → Prop
  | .wildcard => True
  | .uid id => row.id = id
  | .connector c => row.opsConnectorId = some c
  | .«namespace» c ns => row.opsConnectorId = some c ∧ row.targetNamespace = some ns
  | .team t => row.requesterTeamId = some t

def NarrowSets.Selects (sets : NarrowSets) (row : ApprovalRequest) : Prop :=
  row.id ∈ sets.uids ∨ (∃ c ∈ sets.connectors, row.opsConnectorId = some c) ∨
  (∃ p ∈ sets.nsPairs, row.opsConnectorId = some p.1 ∧ row.targetNamespace = some p.2) ∨
  ∃ t ∈ sets.teams, row.requesterTeamId = some t

def ApprovalScopeFilter.Selects : ApprovalScopeFilter → ApprovalRequest → Prop
  | .wildcard, _ => True
  | .narrow sets, row => sets.Selects row

theorem NarrowSets.add_selects {sets : NarrowSets} {g : ApprovalScope}
    {row : ApprovalRequest} (hg : g ≠ .wildcard) :
    (sets.add g).Selects row ↔ sets.Selects row ∨ Approvals.Selects row g := by
  cases g with
  | wildcard => exact absurd rfl hg
  | uid id => simp [NarrowSets.Selects, Approvals.Selects, add, or_assoc, or_comm]
  | connector c =>
    simp [NarrowSets.Selects, Approvals.Selects, add, or_and_right, exists_or,
      or_assoc, or_comm, or_left_comm]
  | «namespace» c ns =>
    simp [NarrowSets.Selects, Approvals.Selects, add, or_and_right, exists_or,
      or_comm, or_left_comm]
  | team t =>
    simp [NarrowSets.Selects, Approvals.Selects, add, or_and_right, exists_or,
      or_assoc, or_comm, or_left_comm]

def NamedBy (reads : List ResolvedPermission) (row : ApprovalRequest) : Prop :=
  ∃ p ∈ reads, ∃ g, parseApprovalScope p.scope = some g ∧ Selects row g

theorem namedBy_cons {p : ResolvedPermission} {reads : List ResolvedPermission}
    {row : ApprovalRequest} :
    NamedBy (p :: reads) row ↔
      (∃ g, parseApprovalScope p.scope = some g ∧ Selects row g) ∨ NamedBy reads row := by
  simp [NamedBy]

theorem collectGrants_selects (row : ApprovalRequest) (reads : List ResolvedPermission)
    (sets : NarrowSets) :
    (collectGrants reads sets).Selects row ↔ sets.Selects row ∨ NamedBy reads row := by
  induction reads generalizing sets with
  | nil => simp [collectGrants, ApprovalScopeFilter.Selects, NamedBy]
  | cons p reads ih =>
    rw [namedBy_cons, collectGrants]
    cases hp : parseApprovalScope p.scope with
    | none => simp [ih]
    | some g =>
      by_cases hg : g = .wildcard
      · subst hg
        simp [ApprovalScopeFilter.Selects, Selects]
      · have hstep : (collectGrants reads (sets.add g)).Selects row ↔
            sets.Selects row ∨ Selects row g ∨ NamedBy reads row := by
          rw [ih, NarrowSets.add_selects hg, or_assoc]
        simpa using hstep

theorem any_condOn {α : Type} {set : List α} {cond : ApprovalRequest → Bool}
    {row : ApprovalRequest} (h : cond row = true → set ≠ []) :
    ((condOn set cond).any fun c => c row) = true ↔ cond row = true := by
  cases set with
  | nil =>
    have hf : ¬ cond row = true := fun hc => h hc rfl
    simp [condOn, hf]
  | cons x xs => simp [condOn]

theorem any_mem_iff {v : Option String} {set : List String} :
    (v.any fun x => decide (x ∈ set)) = true ↔ ∃ x ∈ set, v = some x := by
  cases v <;> simp

theorem any_narrowConds {sets : NarrowSets} {row : ApprovalRequest} :
    ((narrowConds sets).any fun cond => cond row) = true ↔ sets.Selects row := by
  simp only [narrowConds, List.any_append, Bool.or_eq_true]
  rw [any_condOn, any_condOn, any_condOn, any_condOn, any_mem_iff, any_mem_iff]
  · simp [NarrowSets.Selects, or_assoc]
  all_goals
    intro h hnil
    simp [hnil] at h

/-- **What the list shows.** The rows of the org that some read grant names. -/
theorem mem_listRoute {store : List ApprovalRequest} {orgId : String}
    {permissions : List ResolvedPermission} {row : ApprovalRequest} :
    row ∈ listRoute store orgId permissions ↔ row ∈ store ∧ row.orgId = orgId ∧
      NamedBy (permissions.filter (·.action = approvalsRead)) row := by
  have hsel : (approvalsReadScopeFilter permissions).Selects row ↔
      NamedBy (permissions.filter (·.action = approvalsRead)) row := by
    rw [approvalsReadScopeFilter, collectGrants_selects]
    simp [NarrowSets.Selects]
  rw [← hsel]
  unfold listRoute list buildListWhere
  cases approvalsReadScopeFilter permissions with
  | wildcard => simp [ApprovalScopeFilter.Selects, List.mem_mergeSort]
  | narrow sets =>
    have hany : ((narrowConds sets).any fun cond => cond row) = true ↔ sets.Selects row :=
      any_narrowConds
    by_cases hnil : (narrowConds sets).isEmpty = true
    · have hno : ¬ sets.Selects row := by
        rw [← hany, List.isEmpty_iff.mp hnil]
        simp
      simp [hnil, ApprovalScopeFilter.Selects, hno]
    · simp only [hnil, ApprovalScopeFilter.Selects, ← hany]
      simp [List.mem_mergeSort]

/-! ## What the detail shows -/

theorem scopeKind_of_mem {row : ApprovalRequest} {scope : String}
    (h : scope ∈ approvalRowScopes row) : scopeKind scope = "approvals" := by
  rcases mem_approvalRowScopes.mp h with
    rfl | ⟨c, -, rfl | ⟨ns, -, rfl⟩⟩ | ⟨t, -, rfl⟩
  all_goals
    rw [scopeKind, split_approvalScopeText (by decide)]
    rfl

theorem wildcard_covers {scope : String} (row : ApprovalRequest)
    (h : scope = "approvals:*" ∨ scope = "approvals:*:*" ∨ scope = "*" ∨ scope = "") :
    ∃ want ∈ approvalRowScopes row, scopeCovers scope want = true := by
  refine ⟨approvalScopeText "uid" row.id, mem_approvalRowScopes.mpr (Or.inl rfl), ?_⟩
  rw [scopeCovers_iff, parseScope_approvalScopeText (by decide)]
  have hkind : (parseScope scope).kind = "*" ∨ (parseScope scope).kind = "approvals" := by
    rcases h with rfl | rfl | rfl | rfl <;> decide
  have hrest : (parseScope scope).attr = "*" ∧ (parseScope scope).identifier = "*" := by
    rcases h with rfl | rfl | rfl | rfl <;> decide
  exact ⟨hkind, Or.inl hrest.1, Or.inl hrest.2⟩

theorem resolve_candidate {byKind : String → String → List String} {row : ApprovalRequest}
    {wildcard : Prop} [Decidable wildcard] {want : String}
    (hwant : want ∈ approvalRowScopes row ++ if wildcard then ["approvals:*"] else []) :
    Rbac.resolve byKind want = [want] := by
  apply resolve_approvals
  rcases List.mem_append.mp hwant with hrow | hwild
  · exact scopeKind_of_mem hrow
  · split at hwild
    · rw [List.mem_singleton.mp hwild]
      decide
    · cases hwild

/-- **What the detail shows.** The rows one of whose scopes some grant covers. -/
theorem evalRowAccess_iff {byKind : String → String → List String}
    {permissions : List ResolvedPermission} {action : String} {row : ApprovalRequest} :
    evalRowAccess byKind permissions action row = true ↔
      ∃ p ∈ permissions, p.action = action ∧
        ∃ want ∈ approvalRowScopes row, scopeCovers p.scope want = true := by
  unfold evalRowAccess
  rw [Evaluator.evaluate_any_mutate]
  · constructor
    · rintro ⟨want, hwant, hg⟩
      obtain ⟨p, hp, ha, hcov⟩ := Evaluator.grants_iff.mp hg
      rcases List.mem_append.mp hwant with hrow | hwild
      · exact ⟨p, hp, ha, want, hrow, hcov⟩
      · by_cases hw : holdsApprovalsWildcard permissions action = true
        · obtain ⟨q, hq, hscope⟩ := List.any_eq_true.mp hw
          obtain ⟨hqa, hqs⟩ := of_decide_eq_true hscope
          exact ⟨q, hq, hqa, wildcard_covers row hqs⟩
        · rw [if_neg hw] at hwild
          cases hwild
    · rintro ⟨p, hp, ha, want, hwant, hcov⟩
      exact ⟨want, List.mem_append_left _ hwant, Evaluator.grants_iff.mpr ⟨p, hp, ha, hcov⟩⟩
  · exact fun want hwant => resolve_candidate hwant

/-! ## When they agree -/

/-- The scope names the row literally: one of the two wildcards of the approvals
kind, or a scope of the row in the strict grammar. -/
def Names (scope : String) (row : ApprovalRequest) : Prop :=
  scope = "approvals:*" ∨ scope = "approvals:*:*" ∨
    (scope ∈ approvalRowScopes row ∧ isValidApprovalScope scope = true)

instance (scope : String) (row : ApprovalRequest) : Decidable (Names scope row) :=
  inferInstanceAs (Decidable (_ ∨ _ ∨ _))

/-- The scope reaches the row as a pattern, through a `*` or a missing segment,
or as a scope of the row that the strict grammar rejects. -/
def ReachesByPattern (scope : String) (row : ApprovalRequest) : Prop :=
  (("*" = (parseScope scope).kind ∨ "*" = (parseScope scope).attr ∨
      "*" = (parseScope scope).identifier) ∧
    ∃ want ∈ approvalRowScopes row, (parseScope scope).Matches (parseScope want)) ∨
  (scope ∈ approvalRowScopes row ∧ isValidApprovalScope scope = false)

theorem mem_of_selects {scope : String} {g : ApprovalScope} {row : ApprovalRequest}
    (hg : g ≠ .wildcard) (hshape : HasShape scope g) (hsel : Selects row g) :
    scope ∈ approvalRowScopes row := by
  rw [mem_approvalRowScopes]
  cases g with
  | wildcard => exact absurd rfl hg
  | uid id =>
    obtain ⟨-, hparts⟩ := hshape
    have hid : row.id = id := hsel
    exact Or.inl (hid ▸ eq_approvalScopeText hparts)
  | connector c =>
    obtain ⟨hc, hparts⟩ := hshape
    exact Or.inr (Or.inl ⟨c, present_eq_some.mpr ⟨hsel, hc⟩,
      Or.inl (eq_approvalScopeText hparts)⟩)
  | «namespace» c ns =>
    obtain ⟨hc, hns, hparts⟩ := hshape
    exact Or.inr (Or.inl ⟨c, present_eq_some.mpr ⟨hsel.1, hc⟩,
      Or.inr ⟨ns, present_eq_some.mpr ⟨hsel.2, hns⟩, eq_approvalScopeText_pair hparts⟩⟩)
  | team t =>
    obtain ⟨ht, hparts⟩ := hshape
    exact Or.inr (Or.inr ⟨t, present_eq_some.mpr ⟨hsel, ht⟩,
      eq_approvalScopeText hparts⟩)

theorem selects_of_mem {scope : String} {g : ApprovalScope} {row : ApprovalRequest}
    (hmem : scope ∈ approvalRowScopes row) (hshape : HasShape scope g) :
    Selects row g := by
  rcases mem_approvalRowScopes.mp hmem with
    rfl | ⟨c, hc, rfl | ⟨ns, hns, rfl⟩⟩ | ⟨t, ht, rfl⟩
  · rcases hasShape_approvalScopeText (by decide) (by decide) hshape with
      ⟨-, rfl⟩ | ⟨h, -⟩ | ⟨h, -⟩ | ⟨h, -⟩
    · rfl
    all_goals exact absurd h (by decide)
  · rcases hasShape_approvalScopeText (by decide) (by decide) hshape with
      ⟨h, -⟩ | ⟨-, rfl⟩ | ⟨h, -⟩ | ⟨h, -⟩
    · exact absurd h (by decide)
    · exact (present_eq_some.mp hc).1
    all_goals exact absurd h (by decide)
  · rcases hasShape_approvalScopeText (by decide) (by decide) hshape with
      ⟨h, -⟩ | ⟨h, -⟩ | ⟨h, -⟩ | ⟨-, c', ns', hpair, rfl⟩
    · exact absurd h (by decide)
    · exact absurd h (by decide)
    · exact absurd h (by decide)
    · obtain ⟨rfl, rfl⟩ := Text.split_append_eq_pair hpair
      exact ⟨(present_eq_some.mp hc).1, (present_eq_some.mp hns).1⟩
  · rcases hasShape_approvalScopeText (by decide) (by decide) hshape with
      ⟨h, -⟩ | ⟨h, -⟩ | ⟨-, rfl⟩ | ⟨h, -⟩
    · exact absurd h (by decide)
    · exact absurd h (by decide)
    · exact (present_eq_some.mp ht).1
    · exact absurd h (by decide)

theorem names_iff {scope : String} {row : ApprovalRequest} :
    (∃ g, parseApprovalScope scope = some g ∧ Selects row g) ↔ Names scope row := by
  constructor
  · rintro ⟨g, hparse, hsel⟩
    have hshape := parseApprovalScope_eq_some.mp hparse
    by_cases hg : g = .wildcard
    · subst hg
      rcases hshape with rfl | rfl
      · exact Or.inl rfl
      · exact Or.inr (Or.inl rfl)
    · have hvalid : isValidApprovalScope scope = true := by
        rw [isValidApprovalScope, hparse, Option.isSome_some]
      exact Or.inr (Or.inr ⟨mem_of_selects hg hshape hsel, hvalid⟩)
  · rintro (rfl | rfl | ⟨hmem, hvalid⟩)
    · exact ⟨.wildcard, by decide, trivial⟩
    · exact ⟨.wildcard, by decide, trivial⟩
    · obtain ⟨g, hparse⟩ := Option.isSome_iff_exists.mp hvalid
      exact ⟨g, hparse, selects_of_mem hmem (parseApprovalScope_eq_some.mp hparse)⟩

theorem covers_row_iff {scope : String} {row : ApprovalRequest} :
    (∃ want ∈ approvalRowScopes row, scopeCovers scope want = true) ↔
      Names scope row ∨ ReachesByPattern scope row := by
  constructor
  · rintro ⟨want, hwant, hcov⟩
    have hm := scopeCovers_iff.mp hcov
    by_cases hstar : "*" = (parseScope scope).kind ∨ "*" = (parseScope scope).attr ∨
        "*" = (parseScope scope).identifier
    · exact Or.inr (Or.inl ⟨hstar, want, hwant, hm⟩)
    · -- no wildcard: the segments are equal, so the texts are
      obtain ⟨hk, ha, hi⟩ := not_or.mp hstar |>.imp id not_or.mp
      obtain ⟨mk, ma, mi⟩ := hm
      have hparse : parseScope scope = parseScope want := by
        cases hp : parseScope scope
        cases hw : parseScope want
        simp only [hp, hw] at hk ha hi mk ma mi
        rw [mk.resolve_left (Ne.symm hk), ma.resolve_left (Ne.symm ha),
          mi.resolve_left (Ne.symm hi)]
      have heq : scope = want := by
        rw [eq_of_parseScope hparse (hparse ▸ Ne.symm hi),
          ← eq_of_parseScope rfl (hparse ▸ Ne.symm hi)]
      subst heq
      cases hv : isValidApprovalScope scope with
      | true => exact Or.inl (Or.inr (Or.inr ⟨hwant, hv⟩))
      | false => exact Or.inr (Or.inr ⟨hwant, hv⟩)
  · have hself : ∀ want, want ∈ approvalRowScopes row →
        ∃ w ∈ approvalRowScopes row, scopeCovers want w = true := fun want hwant =>
      ⟨want, hwant, scopeCovers_iff.mpr ⟨Or.inr rfl, Or.inr rfl, Or.inr rfl⟩⟩
    rintro ((rfl | rfl | ⟨hmem, -⟩) | ⟨-, want, hwant, hm⟩ | ⟨hmem, -⟩)
    · exact wildcard_covers row (Or.inl rfl)
    · exact wildcard_covers row (Or.inr (Or.inl rfl))
    · exact hself _ hmem
    · exact ⟨want, hwant, scopeCovers_iff.mpr hm⟩
    · exact hself _ hmem

theorem evalRowAccess_of_mem_listRoute {byKind : String → String → List String}
    {store : List ApprovalRequest} {orgId : String}
    {permissions : List ResolvedPermission} {row : ApprovalRequest}
    (h : row ∈ listRoute store orgId permissions) :
    evalRowAccess byKind permissions approvalsRead row = true := by
  obtain ⟨-, -, p, hp, hnamed⟩ := mem_listRoute.mp h
  obtain ⟨hmem, ha⟩ := List.mem_filter.mp hp
  exact evalRowAccess_iff.mpr ⟨p, hmem, of_decide_eq_true ha,
    covers_row_iff.mpr (Or.inl (names_iff.mp hnamed))⟩

/-- **List and detail.** A row of the caller's org is shown by both or by
neither exactly when a read grant that reaches it as a pattern is accompanied by
a read grant that names it literally. -/
theorem list_detail_agree_iff (byKind : String → String → List String)
    (store : List ApprovalRequest) (orgId : String)
    (permissions : List ResolvedPermission) (row : ApprovalRequest)
    (hrow : row ∈ store) (horg : row.orgId = orgId) :
    (row ∈ listRoute store orgId permissions ↔
      evalRowAccess byKind permissions approvalsRead row = true) ↔
    ((∃ p ∈ permissions, p.action = approvalsRead ∧ ReachesByPattern p.scope row) →
      ∃ p ∈ permissions, p.action = approvalsRead ∧ Names p.scope row) := by
  have hlist : row ∈ listRoute store orgId permissions ↔
      ∃ p ∈ permissions, p.action = approvalsRead ∧ Names p.scope row := by
    rw [mem_listRoute]
    simp only [hrow, horg, true_and, NamedBy, names_iff, List.mem_filter, decide_eq_true_eq,
      and_assoc]
  constructor
  · rintro hiff ⟨p, hp, ha, hpat⟩
    exact hlist.mp (hiff.mpr (evalRowAccess_iff.mpr
      ⟨p, hp, ha, covers_row_iff.mpr (Or.inr hpat)⟩))
  · intro hcond
    refine ⟨evalRowAccess_of_mem_listRoute, fun hdetail => hlist.mpr ?_⟩
    obtain ⟨p, hp, ha, hcov⟩ := evalRowAccess_iff.mp hdetail
    rcases covers_row_iff.mp hcov with hnames | hpat
    · exact ⟨p, hp, ha, hnames⟩
    · exact hcond ⟨p, hp, ha, hpat⟩

def sampleRow (connectorId : String) : ApprovalRequest where
  id := "appr-1"
  orgId := "org_main"
  action := ⟨"ops.run_command", connectorId, []⟩
  context := ⟨none, "agent", "scale web", none, none⟩
  status := .pending
  expiresAt := ""
  createdAt := ""
  resolvedAt := none
  resolvedBy := none
  resolvedByRoles := none
  opsConnectorId := some connectorId
  targetNamespace := some "app"
  requesterTeamId := none

theorem list_detail_agree_connector :
    sampleRow "k8s-prod" ∈ listRoute [sampleRow "k8s-prod"] "org_main"
        [⟨approvalsRead, "approvals:connector:k8s-prod"⟩] ↔
      evalRowAccess (fun _ s => [s]) [⟨approvalsRead, "approvals:connector:k8s-prod"⟩]
        approvalsRead (sampleRow "k8s-prod") = true :=
  (list_detail_agree_iff (fun _ s => [s]) [sampleRow "k8s-prod"] "org_main"
    [⟨approvalsRead, "approvals:connector:k8s-prod"⟩] (sampleRow "k8s-prod")
    List.mem_cons_self rfl).mpr fun _ =>
      ⟨_, List.mem_cons_self, rfl, Or.inr (Or.inr ⟨by decide, by decide⟩)⟩

theorem not_names_pattern : ∀ scope ∈ ["", "*", "approvals", "approvals:uid:*",
    "approvals:connector:*", "approvals:connector:eu:k8s"],
    ¬ Names scope (sampleRow "eu:k8s") := by decide +kernel

/-- A caller with this one grant is shown the row by one of the two and not by the
other. -/
def ListHidesDetail (scope : String) : Prop :=
  ¬ (sampleRow "eu:k8s" ∈ listRoute [sampleRow "eu:k8s"] "org_main" [⟨approvalsRead, scope⟩] ↔
    evalRowAccess (fun _ s => [s]) [⟨approvalsRead, scope⟩] approvalsRead
      (sampleRow "eu:k8s") = true)

theorem listHidesDetail_of_mem : ∀ scope ∈ ["", "*", "approvals", "approvals:uid:*",
    "approvals:connector:*", "approvals:connector:eu:k8s"], ListHidesDetail scope := by
  have hdetail : ∀ scope ∈ ["", "*", "approvals", "approvals:uid:*",
      "approvals:connector:*", "approvals:connector:eu:k8s"],
      evalRowAccess (fun _ s => [s]) [⟨approvalsRead, scope⟩] approvalsRead
        (sampleRow "eu:k8s") = true := by decide +kernel
  intro scope hscope hiff
  obtain ⟨-, -, p, hp, hnamed⟩ := mem_listRoute.mp (hiff.mpr (hdetail scope hscope))
  cases List.mem_singleton.mp (List.mem_filter.mp hp).1
  exact not_names_pattern scope hscope (names_iff.mp hnamed)

/-- Each of these grants opens the detail of a row that the list leaves out. -/
theorem list_hides_detail :
    ListHidesDetail "" ∧ ListHidesDetail "*" ∧ ListHidesDetail "approvals" ∧
      ListHidesDetail "approvals:uid:*" ∧ ListHidesDetail "approvals:connector:*" ∧
      ListHidesDetail "approvals:connector:eu:k8s" := by
  refine ⟨?_, ?_, ?_, ?_, ?_, ?_⟩ <;> exact listHidesDetail_of_mem _ (by decide)

end OpenObs.Approvals
