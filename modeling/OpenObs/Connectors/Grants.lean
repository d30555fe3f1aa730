import OpenObs.Agent.Gate
import OpenObs.Rbac.LastWriter
import OpenObs.Rules.Tenancy

/-!
# Grants on a connector

The scope of one connector is written in three places.
-/

namespace OpenObs.Connectors

open OpenObs.Foundation OpenObs.Rbac OpenObs.Agent

/-! ## The route -/

structure QueryReply where
  status : ℕ
  code : String
  message : String

def requireDatasourcePermission (evaluate : Identity → Evaluator → Bool)
    (auth : Option Identity) (action datasourceId : String) : Except QueryReply Unit :=
  match auth with
  | none => .error ⟨401, "UNAUTHORIZED", "authentication required"⟩
  | some identity =>
    let evaluator := Evaluator.action action ["connectors:uid:" ++ datasourceId]
    if evaluate identity evaluator then .ok ()
    else .error ⟨403, "FORBIDDEN", "User has no permission to " ++ evaluator.string⟩

/-- The query route lets the caller query connector `id`. -/
def RouteAllows (deps : AccessControlDeps) (db : Db) (identity : Identity) (id : String) : Prop :=
  requireDatasourcePermission (AccessControl.evaluate deps db) (some identity)
    "connectors:query" id = .ok ()

/-! ## The gate -/

def queryTools : List AgentTool :=
  [.metricsQuery, .metricsRangeQuery, .metricsDiscover, .metricsValidate, .metricExplore,
    .logsQuery, .logsLabels, .logsLabelValues]

def contextOf (ctx : ActionContext) (deps : AccessControlDeps) (db : Db)
    (identity : Identity) : ActionContext :=
  { ctx with
    caller := { ctx.caller with allows := fun _ e => AccessControl.evaluate deps db identity e } }

def GateAllows (deps : AccessControlDeps) (db : Db) (identity : Identity) (ctx : ActionContext)
    (tool : AgentTool) (args : Json.Record) (s : Session) : Prop :=
  ((checkPermission (contextOf ctx deps db identity) tool args).run s).1 = .ok none

/-! ## Which permissions pass -/

def Names (permissions : List ResolvedPermission) (attr id : String) : Prop :=
  ∃ p ∈ permissions, p.action = "connectors:query" ∧ (parseScope p.scope).attr = attr ∧
    ((parseScope p.scope).kind = "*" ∨ (parseScope p.scope).kind = "connectors") ∧
    ((parseScope p.scope).identifier = "*" ∨ (parseScope p.scope).identifier = id)

section Permissions

variable {permissions : List ResolvedPermission} {id : String}

theorem grants_connectors {scope attr : String}
    (hscope : parseScope scope = ⟨"connectors", attr, id⟩) :
    Evaluator.grants permissions "connectors:query" scope = true ↔
      Names permissions "*" id ∨ Names permissions attr id := by
  rw [Evaluator.grants_iff]
  simp only [scopeCovers_iff, hscope, ParsedScope.Matches, Names]
  constructor
  · rintro ⟨p, hp, hact, hkind, hattr | hattr, hid⟩
    · exact Or.inl ⟨p, hp, hact, hattr, hkind, hid⟩
    · exact Or.inr ⟨p, hp, hact, hattr, hkind, hid⟩
  · rintro (⟨p, hp, hact, hattr, hkind, hid⟩ | ⟨p, hp, hact, hattr, hkind, hid⟩)
    · exact ⟨p, hp, hact, hkind, Or.inl hattr, hid⟩
    · exact ⟨p, hp, hact, hkind, Or.inr hattr, hid⟩

theorem Names.of_all {attr : String} (h : Names permissions attr "*") :
    Names permissions attr id := by
  obtain ⟨p, hp, hact, hattr, hkind, hid⟩ := h
  exact ⟨p, hp, hact, hattr, hkind, Or.inl (hid.elim (fun h => h) fun h => h)⟩

/-- `connectors:<attr>:<id>`. -/
def connectorScope (attr id : String) : String :=
  "connectors" ++ String.singleton ':' ++ (attr ++ String.singleton ':' ++ id)

theorem connectorScope_uid (id : String) : "connectors:uid:" ++ id = connectorScope "uid" id := by
  simp [connectorScope, ← String.toList_inj]

theorem connectorScope_id (id : String) : "connectors:id:" ++ id = connectorScope "id" id := by
  simp [connectorScope, ← String.toList_inj]

theorem isToken_connectorScope {attr : String} (hattr : SeparatorFree attr) :
    IsToken (connectorScope attr id).toList ↔ SeparatorFree id := by
  have htext : (connectorScope attr id).toList =
      'c' :: ("onnectors".toList ++ ':' :: (attr.toList ++ ':' :: id.toList)) := by
    simp [connectorScope]
  rw [htext]
  constructor
  · rintro ⟨c, kind, ident, heq, hc, hkind, -, hident⟩ x hx
    have hmem : x ∈ c :: (kind ++ ':' :: ident) := by
      rw [← heq]
      simp [hx]
    rcases List.mem_cons.mp hmem with rfl | hmem
    · exact not_isSeparator_of_isLetter hc
    rcases List.mem_append.mp hmem with hmem | hmem
    · exact not_isSeparator_of_isKindChar (hkind x hmem)
    rcases List.mem_cons.mp hmem with rfl | hmem
    · decide
    · exact hident x hmem
  · intro hfree
    refine ⟨'c', "onnectors".toList, attr.toList ++ ':' :: id.toList, rfl, by decide,
      List.all_eq_true.mp (by decide), by simp, fun x hx => ?_⟩
    rcases List.mem_append.mp hx with hx | hx
    · exact hattr x hx
    rcases List.mem_cons.mp hx with rfl | hx
    · decide
    · exact hfree x hx

theorem mem_registry {db : Db} {orgId attr want : String} (hattr : ':' ∉ attr.toList) :
    want ∈ registry db orgId (connectorScope attr id) ↔
      want = connectorScope attr id ∨ want = "connectors:*" ∨ want = "connectors:uid:*" := by
  have hne : ¬ (connectorScope attr id = "" ∨ connectorScope attr id = "*") := by
    simp [connectorScope, ← String.toList_inj]
  have hkind : scopeKind (connectorScope attr id) = "connectors" := by
    rw [scopeKind, connectorScope, Text.split_append, Text.split_of_not_mem (by decide)]
    rfl
  have hparse : (parseScope (connectorScope attr id)).kind = "connectors" := by
    rw [connectorScope, parseScope_text (by decide) hattr]
  rw [registry, resolve, if_neg hne, hkind, if_pos (by decide)]
  rw [Resolvers.byKind, if_neg (by decide), if_neg (by decide), if_neg (by decide), if_pos rfl,
    Resolvers.flat, if_neg (by rw [hparse]; simp), List.mem_eraseDups]
  simp only [List.mem_cons, List.not_mem_nil, or_false]
  exact Iff.rfl

end Permissions

/-! ## The primary check -/

section Check

variable {db : Db} {legacyAcl : Bool} {orgId attr id : String}
  {permissions : List ResolvedPermission}

/-- **What passes for one connector**: a permission on it under any attribute or under this
one, or one on all connectors if the identifier lets the resolver see the scope. -/
theorem primary_iff (hattr : ':' ∉ attr.toList) (hfree : SeparatorFree attr) :
    (effective ⟨some (registry db), legacyAcl⟩ orgId
        (.action "connectors:query" [connectorScope attr id])).evaluate permissions = true ↔
      Names permissions "*" id ∨ Names permissions attr id ∨
        (SeparatorFree id ∧ Names permissions "uid" "*") := by
  have hown : Evaluator.grants permissions "connectors:query" (connectorScope attr id) = true ↔
      Names permissions "*" id ∨ Names permissions attr id :=
    grants_connectors (parseScope_text (by decide) hattr)
  have hall : Evaluator.grants permissions "connectors:query" "connectors:*" = true ↔
      Names permissions "*" "*" ∨ Names permissions "*" "*" := grants_connectors (by decide)
  have huid : Evaluator.grants permissions "connectors:query" "connectors:uid:*" = true ↔
      Names permissions "*" "*" ∨ Names permissions "uid" "*" := grants_connectors (by decide)
  -- the check asks for any of the scopes the resolver answers
  have hcheck : (effective ⟨some (registry db), legacyAcl⟩ orgId
      (.action "connectors:query" [connectorScope attr id])).evaluate permissions = true ↔
      ∃ want ∈ tokenResolver (registry db orgId) (connectorScope attr id),
        Evaluator.grants permissions "connectors:query" want = true := by
    rw [evaluate_effective, Evaluator.evaluate_mutate]
    simp only [Evaluator.reference, List.all_cons, List.all_nil, Bool.and_true, Bool.and_eq_true,
      List.any_eq_true]
    constructor
    · exact fun h => h.2
    · rintro ⟨want, hwant, hgrants⟩
      exact ⟨Evaluator.holds_of_grants hgrants, want, hwant, hgrants⟩
  rw [hcheck, tokenResolver]
  by_cases hid : SeparatorFree id
  · rw [if_pos ((isToken_connectorScope hfree).mpr hid)]
    simp only [mem_registry hattr, or_and_right, exists_or, exists_eq_left, hown, hall, huid, or_self]
    constructor
    · rintro ((hany | hattr) | hany | hany | huid)
      · exact Or.inl hany
      · exact Or.inr (Or.inl hattr)
      · exact Or.inl hany.of_all
      · exact Or.inl hany.of_all
      · exact Or.inr (Or.inr ⟨hid, huid⟩)
    · rintro (hany | hattr | ⟨-, huid⟩)
      · exact Or.inl (Or.inl hany)
      · exact Or.inl (Or.inr hattr)
      · exact Or.inr (Or.inr (Or.inr huid))
  · rw [if_neg fun h => hid ((isToken_connectorScope hfree).mp h)]
    simp only [List.mem_singleton, exists_eq_left, hown, hid, false_and, or_false]

end Check

/-! ## The fallback -/

/-- A dashboard check that the identifier itself spells out, if the ACL of that dashboard
allows it. -/
def FallbackAllows (db : Db) (identity : Identity) (id : String) : Prop :=
  ∃ target, Scan.exec aclTargetAt id.toList = some target ∧
    grantsAtLeast db identity.orgId target.uid identity target.level = true

theorem aclTarget_connectorScope {attr id : String} (hattr : attr = "uid" ∨ attr = "id") :
    extractDashboardAclTarget (.action "connectors:query" [connectorScope attr id]) =
      Scan.exec aclTargetAt id.toList := by
  have htext : (Evaluator.string (.action "connectors:query" [connectorScope attr id])).toList =
      "connectors:query on connectors:".toList ++ (attr.toList ++ ':' :: id.toList) := by
    simp [Evaluator.string, connectorScope]
  rw [extractDashboardAclTarget, htext]
  rcases hattr with rfl | rfl
  · rfl
  · rfl

/-! ## Route and gate -/

def PassesAnyway (db : Db) (identity : Identity) (id : String) : Prop :=
  Names (ensurePermissions db identity) "*" id ∨
    (SeparatorFree id ∧ Names (ensurePermissions db identity) "uid" "*") ∨
    FallbackAllows db identity id

section Both

variable {db : Db} {identity : Identity} {id : String}

theorem evaluate_connector {attr : String} (hattr : attr = "uid" ∨ attr = "id") :
    AccessControl.evaluate (.gateway db) db identity
        (.action "connectors:query" [connectorScope attr id]) = true ↔
      Names (ensurePermissions db identity) attr id ∨ PassesAnyway db identity id := by
  have hplain : ':' ∉ attr.toList ∧ SeparatorFree attr := by
    rcases hattr with rfl | rfl
    · exact ⟨by decide, separatorFree_of_any (by decide)⟩
    · exact ⟨by decide, separatorFree_of_any (by decide)⟩
  rw [AccessControl.evaluate_iff, AccessControlDeps.gateway, primary_iff hplain.1 hplain.2,
    aclTarget_connectorScope hattr, PassesAnyway, FallbackAllows]
  simp only [true_and]
  constructor
  · rintro ((hany | hown | hall) | hacl)
    · exact Or.inr (Or.inl hany)
    · exact Or.inl hown
    · exact Or.inr (Or.inr (Or.inl hall))
    · exact Or.inr (Or.inr (Or.inr hacl))
  · rintro (hown | hany | hall | hacl)
    · exact Or.inl (Or.inr (Or.inl hown))
    · exact Or.inl (Or.inl hany)
    · exact Or.inl (Or.inr (Or.inr hall))
    · exact Or.inr hacl

theorem routeAllows_iff : RouteAllows (.gateway db) db identity id ↔
    Names (ensurePermissions db identity) "uid" id ∨ PassesAnyway db identity id := by
  rw [← evaluate_connector (Or.inl rfl), RouteAllows, requireDatasourcePermission,
    connectorScope_uid]
  cases AccessControl.evaluate (.gateway db) db identity
      (.action "connectors:query" [connectorScope "uid" id]) with
  | true => simp
  | false => simp

theorem gateAllows_iff {ctx : ActionContext} {tool : AgentTool} {args : Json.Record}
    {s : Session} (htool : tool ∈ queryTools)
    (hargs : Json.field args "sourceId" = some (.str id)) (hid : id ≠ "") :
    GateAllows (.gateway db) db identity ctx tool args s ↔
      Names (ensurePermissions db identity) "id" id ∨ PassesAnyway db identity id := by
  have hscope : resolveConnectorScope args = connectorScope "id" id := by
    have hsource : Folders.truthy (asText (Json.field args "sourceId")) = some id := by
      rw [hargs]
      simp [asText, Folders.truthy, hid]
    rw [resolveConnectorScope, hsource, ← connectorScope_id]
  have hbuilt : (buildToolEvaluator (contextOf ctx (.gateway db) db identity) tool args).run s =
      (.ok (some (.action "connectors:query" [connectorScope "id" id])), s) := by
    rw [← hscope]
    simp only [queryTools, List.mem_cons, List.not_mem_nil, or_false] at htool
    rcases htool with rfl | rfl | rfl | rfl | rfl | rfl | rfl | rfl <;> rfl
  have hasked : (contextOf ctx (.gateway db) db identity).caller.allows s.tables
      (.action "connectors:query" [connectorScope "id" id]) =
        AccessControl.evaluate (.gateway db) db identity
          (.action "connectors:query" [connectorScope "id" id]) := rfl
  rw [← evaluate_connector (Or.inr rfl), GateAllows, run_checkPermission _ hbuilt, hasked]
  by_cases hpass : AccessControl.evaluate (.gateway db) db identity
      (.action "connectors:query" [connectorScope "id" id]) = true
  · rw [if_pos hpass]
    exact iff_of_true rfl hpass
  · rw [if_neg hpass]
    exact iff_of_false (fun h => by cases h) hpass

theorem granted_row {call : SetCall} {db₀ : Db} {p : GrantPrincipal} {level : PermissionLevel}
    (hkeys : db₀.GrantKeys) (hids : DrawnIds call.uid db₀) (hacc : call.Accepted db₀)
    (hrej : ¬ call.Rejected) (hres : call.resource = .connectors)
    (hlast : lastGiven p none call.items = some (some level)) :
    ∃ role, (call.code.run db₀).2.managedRole call.orgId p = some role ∧
      (call.code.run db₀).2.holdsRole call.orgId role.id p ∧
      ∃ row ∈ (call.code.run db₀).2.permissions, row.roleId = role.id ∧
        row.action = "connectors:query" ∧ row.scope = connectorScope "uid" call.resourceUid := by
  obtain ⟨role, hrole, hperm, hholds⟩ := SetCall.settled hkeys hids hacc hrej hlast
  have hquery : "connectors:query" ∈ actionsForLevel call.resource level := by
    rw [hres]
    exact List.mem_append_left _ (List.mem_append_left _ (List.mem_singleton_self _))
  obtain ⟨row, hrow, hact⟩ := List.mem_map.mp (hperm.mem_iff.mpr hquery)
  obtain ⟨hmem, hat⟩ := List.mem_filter.mp hrow
  have hat : row.roleId = role.id ∧ row.scope = call.scope := by simpa using hat
  refine ⟨role, hrole, hholds, row, hmem, hat.1, hact, hat.2.trans ?_⟩
  rw [← connectorScope_uid, SetCall.scope, hres]
  rfl

theorem names_uid_of_mem {permissions : List ResolvedPermission}
    (h : ⟨"connectors:query", connectorScope "uid" id⟩ ∈ permissions) :
    Names permissions "uid" id := by
  have hparse : parseScope (connectorScope "uid" id) = ⟨"connectors", "uid", id⟩ :=
    parseScope_text (by decide) (by decide)
  exact ⟨_, h, rfl, by rw [hparse], Or.inr (by rw [hparse]), Or.inr (by rw [hparse])⟩

/-- **When gate and route agree on a connector**: if something passes under either
attribute, or the permissions name it under `id` exactly if they do under `uid`. A grant
that `setBulk` makes is under `uid` only: the route honours it, the gate does so just where
something else passes. -/
theorem gate_agrees_with_route_iff (db : Db) (identity : Identity) (id : String) (hid : id ≠ "")
    (ctx : ActionContext) (tool : AgentTool) (htool : tool ∈ queryTools) (args : Json.Record)
    (hargs : Json.field args "sourceId" = some (.str id)) (s : Session) :
    ((GateAllows (.gateway db) db identity ctx tool args s ↔
        RouteAllows (.gateway db) db identity id) ↔
      PassesAnyway db identity id ∨
        (Names (ensurePermissions db identity) "id" id ↔
          Names (ensurePermissions db identity) "uid" id)) ∧
    ∀ (call : SetCall) (db₀ : Db) (p : GrantPrincipal) (level : PermissionLevel),
      db₀.GrantKeys → DrawnIds call.uid db₀ → call.Accepted db₀ → ¬ call.Rejected →
      call.resource = .connectors → call.resourceUid = id →
      lastGiven p none call.items = some (some level) →
      ∃ role, (call.code.run db₀).2.managedRole call.orgId p = some role ∧
        (call.code.run db₀).2.holdsRole call.orgId role.id p ∧
        ∃ row ∈ (call.code.run db₀).2.permissions, row.roleId = role.id ∧
          (⟨row.action, row.scope⟩ ∈ ensurePermissions db identity →
            RouteAllows (.gateway db) db identity id ∧
            (GateAllows (.gateway db) db identity ctx tool args s ↔
              Names (ensurePermissions db identity) "id" id ∨ PassesAnyway db identity id)) := by
  rw [gateAllows_iff htool hargs hid, routeAllows_iff]
  constructor
  · constructor
    · intro hagree
      by_cases hany : PassesAnyway db identity id
      · exact Or.inl hany
      · simpa only [hany, or_false, false_or] using hagree
    · rintro (hany | halike)
      · simp only [hany, or_true]
      · rw [halike]
  · rintro call db₀ p level hkeys hids hacc hrej hres rfl hlast
    obtain ⟨role, hrole, hholds, row, hrow, hrid, hact, hscope⟩ :=
      granted_row hkeys hids hacc hrej hres hlast
    refine ⟨role, hrole, hholds, row, hrow, hrid, fun hmem => ⟨Or.inl ?_, Iff.rfl⟩⟩
    rw [hact, hscope] at hmem
    exact names_uid_of_mem hmem

end Both

/-! ### A grant to bob -/

def promContext : ActionContext :=
  { caller := ⟨"org", some "bob", fun _ _ => false⟩
    sessionId := "s1"
    platform := ⟨Rules.sqliteDriver, id, fun _ => none, fun _ => "", fun _ => "", .ok⟩ }

/-- Bob may query connector `prom`. -/
def grantProm : SetCall :=
  ⟨tallyId, "org", .connectors, "prom", [{ userId := some "bob", permission := some .view }]⟩

def bob : Identity := { userId := "bob", orgId := "org", orgRole := .none, isServerAdmin := false }

def promPermissions : List ResolvedPermission :=
  ensurePermissions (grantProm.code.run bobDb).2 bob

theorem promPermissions_eq :
    promPermissions = [⟨"connectors:query", "connectors:uid:prom"⟩] := by decide +kernel

def queryProm : Json.Record := [("sourceId", .str "prom"), ("query", .str "up")]

theorem not_passesAnyway_prom : ¬ PassesAnyway (grantProm.code.run bobDb).2 bob "prom" := by
  rintro (⟨p, hp, -, hattr, -⟩ | ⟨-, p, hp, -, -, -, hid⟩ | ⟨target, htarget, -⟩)
  · rw [show ensurePermissions _ bob = promPermissions from rfl, promPermissions_eq] at hp
    obtain rfl := List.mem_singleton.mp hp
    exact absurd hattr (by decide +kernel)
  · rw [show ensurePermissions _ bob = promPermissions from rfl, promPermissions_eq] at hp
    obtain rfl := List.mem_singleton.mp hp
    exact absurd hid (by decide +kernel)
  · have hnone : Scan.exec aclTargetAt "prom".toList = none := by decide +kernel
    rw [hnone] at htarget
    cases htarget

/-- With a permission on every connector, whatever its attribute, both let bob query. -/
theorem gate_agrees_with_route_wildcard :
    let identity : Identity :=
      { bob with permissions := some [⟨"connectors:query", "connectors:*"⟩] }
    GateAllows (.gateway {}) {} identity promContext .metricsQuery queryProm (Session.opened {} []) ↔
      RouteAllows (.gateway {}) {} identity "prom" := by
  intro identity
  have hany : PassesAnyway {} identity "prom" :=
    Or.inl ⟨⟨"connectors:query", "connectors:*"⟩, List.mem_singleton_self _, rfl,
      by decide, by decide, by decide⟩
  exact (gate_agrees_with_route_iff {} identity "prom" (by decide) promContext .metricsQuery
    (by decide) queryProm rfl (Session.opened {} [])).1.mpr (Or.inl hany)

/-- **The grant is honoured by the route alone.** -/
theorem granted_connector_gated :
    ¬ ∀ (db : Db) (identity : Identity) (id : String) (ctx : ActionContext) (tool : AgentTool)
      (args : Json.Record) (s : Session), id ≠ "" → tool ∈ queryTools →
      Json.field args "sourceId" = some (.str id) →
      (GateAllows (.gateway db) db identity ctx tool args s ↔
        RouteAllows (.gateway db) db identity id) := by
  intro h
  have hagree := h (grantProm.code.run bobDb).2 bob "prom" promContext .metricsQuery queryProm
    (Session.opened {} []) (by decide) (by decide) rfl
  rw [gateAllows_iff (by decide) rfl (by decide), routeAllows_iff] at hagree
  have huid : Names promPermissions "uid" "prom" := by
    rw [promPermissions_eq]
    exact names_uid_of_mem (List.mem_singleton_self _)
  rcases hagree.mpr (Or.inl huid) with ⟨p, hp, -, hattr, -⟩ | hany
  · rw [show ensurePermissions _ bob = promPermissions from rfl, promPermissions_eq] at hp
    obtain rfl := List.mem_singleton.mp hp
    exact absurd hattr (by decide +kernel)
  · exact not_passesAnyway_prom hany

end OpenObs.Connectors
