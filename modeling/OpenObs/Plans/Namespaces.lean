import Mathlib.Data.List.Dedup
import OpenObs.Kubectl.Confinement
import OpenObs.Plans.Types

/-!
# The namespaces of a plan

`plan-namespaces.ts`, the auto-edit gate of `POST /api/plans/:id/approve` and the scope columns the
executor stamps on a step's approval request.
-/

namespace OpenObs.Plans

open OpenObs.Foundation OpenObs.Kubectl
open OpenObs.Foundation.Flags (Role Reading)

/-! ## The second scanner -/

/-- A string if it is not empty, else `null`. -/
def nonEmpty (v : String) : Option String := if v = "" then none else some v

def readNamespaceFromArgv : List String → Option String
  | [] => none
  | tok :: rest =>
    if tok = "-n" ∨ tok = "--namespace" then
      match rest with
      | [] => none
      | v :: _ => nonEmpty v
    else if Text.startsWith tok "--namespace=" then
      nonEmpty (Text.slice tok "--namespace=".length)
    else readNamespaceFromArgv rest

/-- The same loop on the untyped array of a stored step (the source casts it to
`string[]`): `null` counts as the empty token, and any other value that is not a
string has no `startsWith`. -/
def readNamespaceFromTokens : List Json → Except String (Option String)
  | [] => .ok none
  | .null :: rest => readNamespaceFromTokens rest
  | .str tok :: rest =>
    if tok = "-n" ∨ tok = "--namespace" then
      match rest with
      | .str v :: _ => .ok (nonEmpty v)
      | _ => .ok none
    else if Text.startsWith tok "--namespace=" then
      .ok (nonEmpty (Text.slice tok "--namespace=".length))
    else readNamespaceFromTokens rest
  | _ :: _ => .error "tok.startsWith is not a function"

theorem readNamespaceFromTokens_str (argv : List String) :
    readNamespaceFromTokens (argv.map .str) = .ok (readNamespaceFromArgv argv) := by
  fun_induction readNamespaceFromArgv argv with
  | case1 => rfl
  | case2 tok h => simp [readNamespaceFromTokens, h]
  | case3 tok h v rest => simp [readNamespaceFromTokens, h]
  | case4 tok rest h h' => simp [readNamespaceFromTokens, h, h']
  | case5 tok rest h h' ih => simpa [readNamespaceFromTokens, h, h'] using ih

/-! ## The plan's summary and the gate -/

structure PlanNamespaceSummary where
  namespaces : List String
  hasClusterScoped : Bool

/-- What one step contributes: nothing, a namespace, or that it cannot be
narrowed to one (`none` inside). -/
def stepNamespace (step : RemediationPlanStep) :
    Except String (Option (Option String)) :=
  if step.kind ≠ "ops.run_command" then .ok none
  else
    match Json.field step.paramsJson "argv" with
    | some (.arr toks) => (readNamespaceFromTokens toks).map some
    | _ => .ok (some none)

def extractPlanNamespaces (plan : RemediationPlan) :
    Except String PlanNamespaceSummary := do
  let found ← plan.steps.mapM stepNamespace
  let named := found.filterMap id
  return {
    namespaces := Text.sort (named.filterMap id).dedup
    hasClusterScoped := named.any Option.isNone }

/-- The answer of the gate in front of `approve` with `autoEdit`. -/
inductive GateDecision : Type where
  | pass
  | forbidden (message : String)
deriving DecidableEq

/-- `evaluate scope` is whether the caller holds `plans:auto_edit` on `scope`. -/
def autoEditGate (evaluate : String → Bool) (plan : RemediationPlan) :
    Except String GateDecision :=
  if evaluate "plans:*" then .ok .pass
  else do
    let summary ← extractPlanNamespaces plan
    if summary.hasClusterScoped then
      return .forbidden ("auto-edit on a plan with a cluster-scoped step requires " ++
        "plans:auto_edit on plans:* (cluster-wide grant)")
    else
      match summary.namespaces.find? fun ns => !evaluate ("plans:namespace:" ++ ns) with
      | some ns => return .forbidden s!"auto-edit requires plans:auto_edit on plans:namespace:{ns}"
      | none => return .pass

/-! ## A step's parameters and the scope of its approval -/

def readOpsRunCommandParams (step : RemediationPlanStep) :
    Option OpsRunCommandStepParams :=
  if step.kind ≠ "ops.run_command" then none
  else do
    let argv ← (Json.field step.paramsJson "argv").bind Json.asStrings
    let connectorId ← (Json.field step.paramsJson "connectorId").bind Json.asString
    if connectorId = "" then none else some ⟨argv, connectorId⟩

/-- The `targetNamespace` `runNext` stores on the step's approval request. -/
def stepTargetNamespace (step : RemediationPlanStep) : Option String :=
  (readOpsRunCommandParams step).bind fun params => readNamespaceFromArgv params.argv

/-! ## When the scanners agree -/

def spelledRole (tok : String) : Role :=
  if tok = "-n" ∨ tok = "--namespace" then .sets
  else if Text.startsWith tok "--namespace=" then
    .setsTo (Text.slice tok "--namespace=".length)
  else if Text.startsWith tok "-" then .inert
  else .arg

def firstNamespace (argv : List String) : Option String :=
  (Flags.read spelledRole argv).values.head?.join

/-- The first namespace flag and the last one that is not itself the value of
another flag carry the same value, and it is not empty. -/
def NamespaceOnce (argv : List String) : Prop :=
  ∃ v, v ≠ "" ∧ firstNamespace argv = some v ∧ (policyReading argv).last = some v

theorem readNamespaceFromArgv_eq (argv : List String) :
    readNamespaceFromArgv argv = (firstNamespace argv).bind nonEmpty := by
  unfold firstNamespace
  fun_induction readNamespaceFromArgv argv with
  | case1 => rfl
  | case2 tok h =>
    rw [Flags.read_sets_end (by simp [spelledRole, h])]
    rfl
  | case3 tok h v rest =>
    rw [Flags.read_sets (by simp [spelledRole, h])]
    rfl
  | case4 tok rest h h' =>
    rw [Flags.read_setsTo (by simp only [spelledRole, h, h', if_true, if_false]; rfl)]
    rfl
  | case5 tok rest h h' ih =>
    rw [ih]
    by_cases hd : Text.startsWith tok "-" = true
    · rw [Flags.read_inert (by simp [spelledRole, h, h', hd])]
    · rw [Flags.read_arg (by simp [spelledRole, h, h', hd])]
      rfl

theorem nonEmpty_eq_some {v w : String} : nonEmpty v = some w ↔ v = w ∧ w ≠ "" := by
  unfold nonEmpty
  by_cases hv : v = ""
  · rw [if_pos hv]
    constructor
    · intro h
      cases h
    · rintro ⟨rfl, hw⟩
      exact absurd hv hw
  · rw [if_neg hv]
    constructor
    · intro h
      cases h
      exact ⟨rfl, hv⟩
    · rintro ⟨rfl, -⟩
      rfl

theorem readNamespaceFromArgv_eq_parse_iff {argv allowed : List String}
    (h : PermittedWrite argv allowed) :
    readNamespaceFromArgv argv = (parseKubectlArgv argv).namespace ↔
      NamespaceOnce argv := by
  obtain ⟨-, v, hv, -⟩ := permittedWrite_iff.mp h
  rw [parseKubectlArgv_namespace, hv, readNamespaceFromArgv_eq]
  constructor
  · intro heq
    obtain ⟨w, hw, hne⟩ := Option.bind_eq_some_iff.mp heq
    obtain ⟨rfl, hne⟩ := nonEmpty_eq_some.mp hne
    exact ⟨w, hne, hw, hv⟩
  · rintro ⟨w, hne, hfirst, hlast⟩
    have hwv : w = v := Option.some.inj (hlast.symm.trans hv)
    subst hwv
    rw [hfirst]
    exact nonEmpty_eq_some.mpr ⟨rfl, hne⟩

/-! ## The plan as a whole -/

/-- What plan creation checks of every step: an `ops.run_command` with an argv
of strings and a connector. -/
def Validated (plan : RemediationPlan) : Prop :=
  ∀ step ∈ plan.steps, ∃ params, readOpsRunCommandParams step = some params

/-- A step of the plan the adapter's allowlist lets through as a write;
`allowedFor` is the namespace list configured on a connector. -/
structure WriteStep (plan : RemediationPlan) (allowedFor : String → List String)
    (step : RemediationPlanStep) (params : OpsRunCommandStepParams) : Prop where
  mem : step ∈ plan.steps
  reads : readOpsRunCommandParams step = some params
  permitted : PermittedWrite params.argv (allowedFor params.connectorId)

/-- The scope columns and the gate name exactly the namespaces the allowlist
lets the steps write in. -/
structure NamespacesAgree (plan : RemediationPlan) (allowedFor : String → List String) :
    Prop where
  target : ∀ step params, WriteStep plan allowedFor step params →
    stepTargetNamespace step = (parseKubectlArgv params.argv).namespace
  gate : ∃ summary, extractPlanNamespaces plan = .ok summary ∧
    ∀ ns, ns ∈ summary.namespaces ↔ ∃ step params,
      WriteStep plan allowedFor step params ∧
      (parseKubectlArgv params.argv).namespace = some ns

/-- Every write gives one namespace, and every other step that gives one gives
the namespace of some write. -/
structure WritesNamedOnce (plan : RemediationPlan) (allowedFor : String → List String) :
    Prop where
  write : ∀ step params, WriteStep plan allowedFor step params →
    NamespaceOnce params.argv
  other : ∀ step ∈ plan.steps, ∀ params, readOpsRunCommandParams step = some params →
    ¬ PermittedWrite params.argv (allowedFor params.connectorId) →
    ∀ ns, firstNamespace params.argv = some ns → ns ≠ "" →
    ∃ step' params', WriteStep plan allowedFor step' params' ∧
      (policyReading params'.argv).last = some ns

theorem stepTargetNamespace_eq {step : RemediationPlanStep}
    {params : OpsRunCommandStepParams} (h : readOpsRunCommandParams step = some params) :
    stepTargetNamespace step = readNamespaceFromArgv params.argv := by
  rw [stepTargetNamespace, h, Option.bind_some]

theorem stepNamespace_eq {step : RemediationPlanStep}
    {params : OpsRunCommandStepParams} (h : readOpsRunCommandParams step = some params) :
    stepNamespace step = .ok (some (stepTargetNamespace step)) := by
  rw [stepTargetNamespace_eq h]
  unfold readOpsRunCommandParams at h
  unfold stepNamespace
  by_cases hkind : step.kind = "ops.run_command"
  · simp only [hkind, ne_eq, not_true_eq_false, if_false] at h ⊢
    obtain ⟨argv, hargv, h⟩ := Option.bind_eq_some_iff.mp h
    obtain ⟨cid, hcid, h⟩ := Option.bind_eq_some_iff.mp h
    obtain ⟨j, hj, hstrs⟩ := Option.bind_eq_some_iff.mp hargv
    have hparams : params.argv = argv := by
      split at h
      · cases h
      · cases h
        rfl
    rw [hj, Json.eq_of_asStrings hstrs, hparams]
    simp only [readNamespaceFromTokens_str]
    rfl
  · simp only [hkind, ne_eq, not_false_eq_true, if_true] at h
    cases h

theorem extractPlanNamespaces_of_validated {plan : RemediationPlan}
    (h : Validated plan) :
    ∃ summary, extractPlanNamespaces plan = .ok summary ∧
      (∀ ns, ns ∈ summary.namespaces ↔
        ∃ step ∈ plan.steps, stepTargetNamespace step = some ns) := by
  -- the tokens of a validated step are strings, so the scan of none of them throws
  have hall : ∀ steps : List RemediationPlanStep,
      (∀ step ∈ steps, ∃ params, readOpsRunCommandParams step = some params) →
      steps.mapM stepNamespace =
        .ok (steps.map fun step => some (stepTargetNamespace step)) := by
    intro steps hsteps
    induction steps with
    | nil => rfl
    | cons step steps ih =>
      obtain ⟨params, hparams⟩ := hsteps step List.mem_cons_self
      rw [List.mapM_cons, stepNamespace_eq hparams,
        ih fun s hs => hsteps s (List.mem_cons_of_mem _ hs)]
      rfl
  refine ⟨_, by rw [extractPlanNamespaces, hall plan.steps h]; rfl, fun ns => ?_⟩
  simp [Text.mem_sort, List.mem_dedup]

theorem agrees_of_namedOnce {plan : RemediationPlan} {allowedFor : String → List String}
    (hval : Validated plan) (h : WritesNamedOnce plan allowedFor) :
    NamespacesAgree plan allowedFor := by
  have htarget : ∀ step params, WriteStep plan allowedFor step params →
      stepTargetNamespace step = (parseKubectlArgv params.argv).namespace := by
    intro step params hw
    rw [stepTargetNamespace_eq hw.reads,
      (readNamespaceFromArgv_eq_parse_iff hw.permitted).mpr (h.write step params hw)]
  obtain ⟨summary, hsum, hmem⟩ := extractPlanNamespaces_of_validated hval
  refine ⟨htarget, summary, hsum, fun ns => ?_⟩
  rw [hmem]
  constructor
  · rintro ⟨step, hstep, hns⟩
    obtain ⟨params, hparams⟩ := hval step hstep
    by_cases hperm : PermittedWrite params.argv (allowedFor params.connectorId)
    · have hw : WriteStep plan allowedFor step params := ⟨hstep, hparams, hperm⟩
      exact ⟨step, params, hw, (htarget step params hw).symm.trans hns⟩
    · rw [stepTargetNamespace_eq hparams, readNamespaceFromArgv_eq] at hns
      obtain ⟨v, hfirst, hv⟩ := Option.bind_eq_some_iff.mp hns
      obtain ⟨rfl, hne⟩ := nonEmpty_eq_some.mp hv
      obtain ⟨step', params', hw, hlast⟩ :=
        h.other step hstep params hparams hperm v hfirst hne
      exact ⟨step', params', hw, (parseKubectlArgv_namespace _).trans hlast⟩
  · rintro ⟨step, params, hw, hns⟩
    exact ⟨step, hw.mem, (htarget step params hw).trans hns⟩

theorem namedOnce_of_agrees {plan : RemediationPlan} {allowedFor : String → List String}
    (hval : Validated plan) (h : NamespacesAgree plan allowedFor) :
    WritesNamedOnce plan allowedFor := by
  refine ⟨fun step params hw => ?_, fun step hstep params hparams _ ns hfirst hne => ?_⟩
  · rw [← readNamespaceFromArgv_eq_parse_iff hw.permitted,
      ← stepTargetNamespace_eq hw.reads]
    exact h.target step params hw
  · obtain ⟨summary, hsum, hgate⟩ := h.gate
    obtain ⟨summary', hsum', hmem⟩ := extractPlanNamespaces_of_validated hval
    cases hsum.symm.trans hsum'
    have htarget : stepTargetNamespace step = some ns := by
      rw [stepTargetNamespace_eq hparams, readNamespaceFromArgv_eq, hfirst]
      exact nonEmpty_eq_some.mpr ⟨rfl, hne⟩
    obtain ⟨step', params', hw, hns⟩ := (hgate ns).mp ((hmem ns).mpr ⟨step, hstep, htarget⟩)
    exact ⟨step', params', hw, (parseKubectlArgv_namespace _).symm.trans hns⟩

/-- **Namespace agreement.** On a write the allowlist lets through, the two
scanners agree exactly when the first and the last namespace flag give the same
non-empty value; and the gate and the scope columns of a validated plan name
exactly the namespaces of its writes when every write does so and no other step
names a further namespace. -/
theorem namespaces_agree_iff (argv allowed : List String) (plan : RemediationPlan)
    (allowedFor : String → List String) :
    (PermittedWrite argv allowed →
      (readNamespaceFromArgv argv = (parseKubectlArgv argv).namespace ↔
        NamespaceOnce argv)) ∧
    (Validated plan →
      (NamespacesAgree plan allowedFor ↔ WritesNamedOnce plan allowedFor)) := by
  constructor
  · intro hperm
    exact readNamespaceFromArgv_eq_parse_iff hperm
  · intro hvalid
    exact ⟨namedOnce_of_agrees hvalid, agrees_of_namedOnce hvalid⟩

def oneStepPlan (argv : List String) : RemediationPlan where
  id := "plan-1"
  orgId := "org_main"
  investigationId := "inv-1"
  createdBy := "agent"
  status := .pendingApproval
  autoEdit := false
  approvalRequestId := none
  expiresAt := ""
  resolvedAt := none
  resolvedBy := none
  steps := [{
    ordinal := 0
    kind := "ops.run_command"
    commandText := "scale web"
    paramsJson := [("argv", .arr (argv.map .str)), ("connectorId", .str "k8s-prod")]
    continueOnError := false
    status := .pending
    approvalRequestId := none
    executedAt := none
    outputText := none
    errorText := none }]
  ordered := by simp

theorem namespaces_agree_one_step :
    (readNamespaceFromArgv ["scale", "deploy/web", "-n", "app", "--replicas=0"] =
      (parseKubectlArgv ["scale", "deploy/web", "-n", "app", "--replicas=0"]).namespace) ∧
    NamespacesAgree (oneStepPlan ["scale", "deploy/web", "-n", "app", "--replicas=0"])
      (fun _ => ["app"]) := by
  obtain ⟨hargv, hplan⟩ := namespaces_agree_iff
    ["scale", "deploy/web", "-n", "app", "--replicas=0"] ["app"]
    (oneStepPlan ["scale", "deploy/web", "-n", "app", "--replicas=0"]) (fun _ => ["app"])
  have honce : NamespaceOnce ["scale", "deploy/web", "-n", "app", "--replicas=0"] :=
    ⟨"app", by decide, by decide, by decide⟩
  refine ⟨(hargv (by decide)).mpr honce, (hplan ?_).mpr ⟨?_, ?_⟩⟩
  · intro step hstep
    cases List.mem_singleton.mp hstep
    exact ⟨_, rfl⟩
  · rintro step params ⟨hmem, hparams, -⟩
    cases List.mem_singleton.mp hmem
    cases hparams
    exact honce
  · intro step hstep params hparams hperm
    cases List.mem_singleton.mp hstep
    cases hparams
    exact absurd (by decide) hperm

/-- `-n app -n prod`: the gate authorises `app`, the allowlist lets the command
write in `prod`. -/
theorem namespaces_disagree :
    ¬ ∀ argv allowed, PermittedWrite argv allowed →
      readNamespaceFromArgv argv = (parseKubectlArgv argv).namespace := by
  intro h
  have := h ["scale", "deploy/web", "-n", "app", "-n", "prod", "--replicas=0"] ["prod"]
    (by decide)
  exact absurd this (by decide)

end OpenObs.Plans
