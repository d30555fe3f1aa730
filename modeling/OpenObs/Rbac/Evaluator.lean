import OpenObs.Rbac.Scope

/-!
# Evaluators

`rbac/evaluator.ts`: trees of permission checks built with `ac.eval`, `ac.all`
and `ac.any`, and the resolver registry through which the access-control
service expands the scopes of a tree before it evaluates it.
-/

namespace OpenObs.Rbac

open OpenObs.Foundation

structure ResolvedPermission where
  action : String
  scope : String
deriving DecidableEq

inductive Evaluator : Type where
  | action (action : String) (scopes : List String)
  | resolvedAction (action : String) (resolvedScopes : List (List String))
  | all (children : List Evaluator)
  | any (children : List Evaluator)

namespace Evaluator

def grants (permissions : List ResolvedPermission) (action want : String) : Bool :=
  (permissions.filter (·.action = action)).any fun p => scopeCovers p.scope want

def holds (permissions : List ResolvedPermission) (action : String) : Bool :=
  permissions.any (·.action = action)

mutual

def evaluate (permissions : List ResolvedPermission) : Evaluator → Bool
| .action a scopes => holds permissions a && scopes.all (grants permissions a)
| .resolvedAction a resolvedScopes =>
    holds permissions a && resolvedScopes.all (·.any (grants permissions a))
| .all children => evaluateAll permissions children
| .any children => evaluateAny permissions children

def evaluateAll (permissions : List ResolvedPermission) : List Evaluator → Bool
| [] => true
| e :: es => evaluate permissions e && evaluateAll permissions es

def evaluateAny (permissions : List ResolvedPermission) : List Evaluator → Bool
| [] => false
| e :: es => evaluate permissions e || evaluateAny permissions es

end

mutual

/-- Every scope is replaced by the scopes it resolves to; a resolved atom stays
as it is. -/
def mutate (resolveScope : String → List String) : Evaluator → Evaluator
| .action a scopes =>
    if scopes = [] then .action a scopes
    else .resolvedAction a (scopes.map resolveScope)
| .resolvedAction a resolvedScopes => .resolvedAction a resolvedScopes
| .all children => .all (mutateList resolveScope children)
| .any children => .any (mutateList resolveScope children)

def mutateList (resolveScope : String → List String) : List Evaluator → List Evaluator
| [] => []
| e :: es => mutate resolveScope e :: mutateList resolveScope es

end

theorem grants_iff {permissions : List ResolvedPermission} {action want : String} :
    grants permissions action want = true ↔
      ∃ p ∈ permissions, p.action = action ∧ scopeCovers p.scope want = true := by
  simp [grants, List.any_eq_true]

theorem holds_of_grants {permissions : List ResolvedPermission} {action want : String}
    (h : grants permissions action want = true) : holds permissions action = true := by
  obtain ⟨p, hp, ha, -⟩ := grants_iff.mp h
  exact List.any_eq_true.mpr ⟨p, hp, by simpa using ha⟩

/-! ## Trees -/

@[simp] theorem evaluateAll_eq {permissions : List ResolvedPermission}
    {children : List Evaluator} :
    evaluateAll permissions children = children.all (evaluate permissions) := by
  induction children with
  | nil => rfl
  | cons c cs ih => simp [evaluateAll, ih]

@[simp] theorem evaluateAny_eq {permissions : List ResolvedPermission}
    {children : List Evaluator} :
    evaluateAny permissions children = children.any (evaluate permissions) := by
  induction children with
  | nil => rfl
  | cons c cs ih => simp [evaluateAny, ih]

@[simp] theorem mutateList_eq {resolveScope : String → List String}
    {children : List Evaluator} :
    mutateList resolveScope children = children.map (mutate resolveScope) := by
  induction children with
  | nil => rfl
  | cons c cs ih => simp [mutateList, ih]

theorem tree_induction {P : Evaluator → Prop}
    (action : ∀ a scopes, P (.action a scopes))
    (resolvedAction : ∀ a resolvedScopes, P (.resolvedAction a resolvedScopes))
    (all : ∀ children, (∀ c ∈ children, P c) → P (.all children))
    (any : ∀ children, (∀ c ∈ children, P c) → P (.any children)) (e : Evaluator) : P e :=
  @Evaluator.rec P (fun cs => ∀ c ∈ cs, P c) action resolvedAction all any
    (fun _ h => absurd h List.not_mem_nil)
    (fun _ _ hc hcs _ h => (List.mem_cons.mp h).elim (fun heq => heq ▸ hc) (hcs _)) e

/-! ## More grants never take an answer back -/

/-- Every permission of `P` is matched by one of `Q` on the same action whose
scope covers its own. -/
def Dominated (P Q : List ResolvedPermission) : Prop :=
  ∀ p ∈ P, ∃ q ∈ Q, q.action = p.action ∧ scopeCovers q.scope p.scope = true

theorem Dominated.holds {P Q : List ResolvedPermission} (h : Dominated P Q)
    {action : String} (hP : holds P action = true) : holds Q action = true := by
  obtain ⟨p, hp, ha⟩ := List.any_eq_true.mp hP
  obtain ⟨q, hq, hqa, -⟩ := h p hp
  refine List.any_eq_true.mpr ⟨q, hq, ?_⟩
  rw [hqa]
  exact ha

theorem Dominated.grants {P Q : List ResolvedPermission} (h : Dominated P Q)
    {action want : String} (hP : grants P action want = true) :
    grants Q action want = true := by
  obtain ⟨p, hp, ha, hcov⟩ := grants_iff.mp hP
  obtain ⟨q, hq, hqa, hqcov⟩ := h p hp
  exact grants_iff.mpr ⟨q, hq, hqa.trans ha, scopeCovers_trans hqcov hcov⟩

theorem Dominated.evaluate {P Q : List ResolvedPermission} (h : Dominated P Q)
    (e : Evaluator) : evaluate P e = true → evaluate Q e = true := by
  induction e using tree_induction with
  | action a scopes =>
    simp only [Evaluator.evaluate, Bool.and_eq_true, List.all_eq_true]
    rintro ⟨ha, hs⟩
    exact ⟨h.holds ha, fun s hmem => h.grants (hs s hmem)⟩
  | resolvedAction a resolvedScopes =>
    simp only [Evaluator.evaluate, Bool.and_eq_true, List.all_eq_true, List.any_eq_true]
    rintro ⟨ha, hs⟩
    refine ⟨h.holds ha, fun options hmem => ?_⟩
    obtain ⟨s, hin, hg⟩ := hs options hmem
    exact ⟨s, hin, h.grants hg⟩
  | all children ih =>
    simp only [Evaluator.evaluate, evaluateAll_eq, List.all_eq_true]
    intro hP c hc
    exact ih c hc (hP c hc)
  | any children ih =>
    simp only [Evaluator.evaluate, evaluateAny_eq, List.any_eq_true]
    rintro ⟨c, hc, hP⟩
    exact ⟨c, hc, ih c hc hP⟩

/-- **Monotonicity.** Coverage is a preorder on all strings, and no tree, plain
or mutated through any resolver, loses its answer when every permission is
replaced by one that covers it. -/
theorem evaluate_monotone :
    (∀ s, scopeCovers s s = true) ∧
    (∀ a b c, scopeCovers a b = true → scopeCovers b c = true → scopeCovers a c = true) ∧
    ∀ (e : Evaluator) (r : String → List String) (P Q : List ResolvedPermission),
      Dominated P Q →
        (Evaluator.evaluate P e = true → Evaluator.evaluate Q e = true) ∧
        (Evaluator.evaluate P (e.mutate r) = true →
          Evaluator.evaluate Q (e.mutate r) = true) := by
  refine ⟨scopeCovers_refl, fun _ _ _ => scopeCovers_trans, ?_⟩
  intro e r P Q h
  exact ⟨h.evaluate e, h.evaluate (e.mutate r)⟩

/-- A wildcard grant in place of a grant on one dashboard, under a resolver
that adds the dashboard's folder. -/
theorem evaluate_monotone_wildcard :
    Dominated [⟨"dashboards:read", "dashboards:uid:d1"⟩]
      [⟨"dashboards:read", "dashboards:*"⟩] ∧
    Evaluator.evaluate [⟨"dashboards:read", "dashboards:*"⟩]
      ((all [.action "dashboards:read" ["dashboards:uid:d1"],
        any [.action "dashboards:write" [], .action "dashboards:read" []]]).mutate
          fun s => [s, "folders:uid:f1"]) = true := by
  have hdom : Dominated [⟨"dashboards:read", "dashboards:uid:d1"⟩]
      [⟨"dashboards:read", "dashboards:*"⟩] := by
    intro p hp
    obtain rfl := List.mem_singleton.mp hp
    exact ⟨_, List.mem_singleton_self _, rfl, by decide⟩
  exact ⟨hdom, (evaluate_monotone.2.2 _ _ _ _ hdom).2 (by decide)⟩

theorem evaluate_any_mutate {permissions : List ResolvedPermission} {action : String}
    {resolveScope : String → List String} {scopes : List String}
    (hres : ∀ s ∈ scopes, resolveScope s = [s]) :
    evaluate permissions
        ((any (scopes.map fun s => .action action [s])).mutate resolveScope) = true ↔
      ∃ s ∈ scopes, grants permissions action s = true := by
  simp only [mutate, evaluate]
  induction scopes with
  | nil => simp
  | cons s rest ih =>
    have hs : resolveScope s = [s] := hres s List.mem_cons_self
    have hg : holds permissions action = true ∧ grants permissions action s = true ↔
        grants permissions action s = true :=
      ⟨fun h => h.2, fun h => ⟨holds_of_grants h, h⟩⟩
    simp only [List.map_cons, mutateList, evaluateAny, mutate, Bool.or_eq_true,
      ih fun t ht => hres t (List.mem_cons_of_mem _ ht), List.mem_cons, exists_eq_or_imp]
    simp [evaluate, hs, hg]

end Evaluator

/-! ## The resolver registry -/

def resolverKinds : List String :=
  ["dashboards", "folders", "connectors", "users", "teams", "serviceaccounts",
    "alert.rules"]

def scopeKind (scope : String) : String := (Text.split scope ':').headD ""

/-- `byKind` are the resolvers of `resolverKinds`; any other kind passes the
scope through. -/
def resolve (byKind : String → String → List String) (scope : String) : List String :=
  if scope = "" ∨ scope = "*" then [scope]
  else if scopeKind scope ∈ resolverKinds then byKind (scopeKind scope) scope
  else [scope]

theorem resolve_approvals {byKind : String → String → List String} {scope : String}
    (h : scopeKind scope = "approvals") : resolve byKind scope = [scope] := by
  have hk : scopeKind scope ∉ resolverKinds := by
    rw [h]
    decide
  by_cases hs : scope = "" ∨ scope = "*"
  · rw [resolve, if_pos hs]
  · rw [resolve, if_neg hs, if_neg hk]

end OpenObs.Rbac
