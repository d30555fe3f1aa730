import OpenObs.Foundation.Async
import OpenObs.Plans.Types

/-!
# The stored state and its statements

`World` is what the executor and its callers share: the rows of `remediation_plan` (each with its
steps) and `approvals`, the clock, and two records of what left the process, the commands handed to
an adapter and the requests announced to the `onResolved` listeners.
-/

namespace OpenObs.Plans

open OpenObs.Foundation

/-- A command handed to `adapter.execute`, with the rows stored at that moment. -/
structure AdapterCall where
  planId : String
  ordinal : ℕ
  targetService : String
  argv : List String
  plans : List RemediationPlan
  approvals : List ApprovalRequest

def AdapterCall.planStatus (c : AdapterCall) : Option RemediationPlanStatus :=
  (c.plans.find? (·.id = c.planId)).map (·.status)

structure World where
  plans : List RemediationPlan
  approvals : List ApprovalRequest        -- in the order of their creation
  calls : List AdapterCall
  notified : List ApprovalRequest
  now : String

/-! ## Rows -/

/-- The columns `updatePlan` writes: the patch, or what it read before. -/
def RemediationPlan.write (plan existing : RemediationPlan) (patch : RemediationPlanPatch) :
    RemediationPlan :=
  { plan with
    status := patch.status.getD existing.status
    autoEdit := patch.autoEdit.getD existing.autoEdit
    approvalRequestId := patch.approvalRequestId.getD existing.approvalRequestId
    resolvedAt := patch.resolvedAt.getD existing.resolvedAt
    resolvedBy := patch.resolvedBy.getD existing.resolvedBy }

def RemediationPlanStep.write (step : RemediationPlanStep)
    (patch : RemediationPlanStepPatch) : RemediationPlanStep :=
  { step with
    status := patch.status.getD step.status
    approvalRequestId := patch.approvalRequestId.getD step.approvalRequestId
    executedAt := patch.executedAt.getD step.executedAt
    outputText := patch.outputText.getD step.outputText
    errorText := patch.errorText.getD step.errorText }

def RemediationPlan.writeStep (plan : RemediationPlan) (ordinal : ℕ)
    (patch : RemediationPlanStepPatch) : RemediationPlan :=
  { plan with
    steps := plan.steps.map fun s => if s.ordinal = ordinal then s.write patch else s
    ordered := by
      have h : (plan.steps.map fun s =>
          if s.ordinal = ordinal then s.write patch else s).map (·.ordinal) =
          plan.steps.map (·.ordinal) := by
        rw [List.map_map]
        refine List.map_congr_left fun s _ => ?_
        by_cases hs : s.ordinal = ordinal <;> simp [hs, RemediationPlanStep.write]
      rw [h]
      exact plan.ordered }

def ApprovalRequest.resolve (a : ApprovalRequest) (status : ApprovalStatus)
    (resolvedBy now : String) (roles : Option (List String)) : ApprovalRequest :=
  { a with
    status := status
    resolvedBy := some resolvedBy
    resolvedAt := some now
    resolvedByRoles := roles.orElse fun _ => a.resolvedByRoles }

@[simp] theorem RemediationPlan.writeStep_status {plan : RemediationPlan} {ordinal : ℕ}
    {patch : RemediationPlanStepPatch} : (plan.writeStep ordinal patch).status = plan.status :=
  rfl

/-- The row of a plan; `id` is the primary key. -/
def World.findById (w : World) (id : String) : Option RemediationPlan :=
  w.plans.find? (·.id = id)

def World.findByIdInOrg (w : World) (orgId id : String) : Option RemediationPlan :=
  (w.findById id).filter (·.orgId = orgId)

def World.approval (w : World) (id : String) : Option ApprovalRequest :=
  w.approvals.find? (·.id = id)

/-! ## Statements -/

def World.writePlan (w : World) (orgId id : String) (existing : RemediationPlan)
    (patch : RemediationPlanPatch) : World :=
  { w with
    plans := w.plans.map fun p =>
      if p.orgId = orgId ∧ p.id = id then p.write existing patch else p }

def World.writeStep (w : World) (planId : String) (ordinal : ℕ)
    (patch : RemediationPlanStepPatch) : World :=
  { w with
    plans := w.plans.map fun p => if p.id = planId then p.writeStep ordinal patch else p }

/-- `UPDATE … SET status = 'expired' WHERE status = 'pending_approval' AND
expires_at <= now`. -/
def World.expireStale (w : World) (now : String) : World :=
  { w with
    plans := w.plans.map fun p =>
      if p.status = .pendingApproval ∧ p.expiresAt ≤ now then { p with status := .expired }
      else p }

def World.insertApproval (w : World) (row : ApprovalRequest) : World :=
  { w with approvals := w.approvals ++ [row] }

def World.resolveApproval (w : World) (id : String) (status : ApprovalStatus)
    (resolvedBy : String) (roles : Option (List String)) : World :=
  { w with
    approvals := w.approvals.map fun a =>
      if a.id = id then a.resolve status resolvedBy w.now roles else a }

def World.recordCall (w : World) (planId : String) (ordinal : ℕ)
    (params : OpsRunCommandStepParams) : World :=
  { w with
    calls := w.calls ++
      [⟨planId, ordinal, params.connectorId, params.argv, w.plans, w.approvals⟩] }

/-! ## The plan repository -/

def findById (id : String) : Prog World (Option RemediationPlan) :=
  .read fun w => w.findById id

def findByIdInOrg (orgId id : String) : Prog World (Option RemediationPlan) :=
  .read fun w => w.findByIdInOrg orgId id

def updatePlan (orgId id : String) (patch : String → RemediationPlanPatch) :
    Prog World (Option RemediationPlan) := do
  let (existing, patch) ← Prog.read fun w => (w.findByIdInOrg orgId id, patch w.now)
  match existing with
  | none => return none
  | some existing =>
    .atomic fun w =>
      let w' := w.writePlan orgId id existing patch
      (w'.findByIdInOrg orgId id, w')

def updateStep (planId : String) (ordinal : ℕ)
    (patch : String → RemediationPlanStepPatch) :
    Prog World (Option RemediationPlanStep) :=
  .atomic fun w =>
    let w' := w.writeStep planId ordinal (patch w.now)
    ((w'.findById planId).bind fun p => p.steps.find? (·.ordinal = ordinal), w')

def expireStale (now : String) : Prog World ℕ :=
  .atomic fun w =>
    ((w.plans.filter fun p => p.status = .pendingApproval ∧ p.expiresAt ≤ now).length,
      w.expireStale now)

/-! ## Rows after a statement -/

theorem find?_map_row {α : Type} {key : α → String} {f : α → α}
    (hf : ∀ a, key (f a) = key a) (id : String) (rows : List α) :
    (rows.map f).find? (fun a => key a = id) = (rows.find? fun a => key a = id).map f := by
  rw [List.find?_map]
  have h : ((fun a => decide (key a = id)) ∘ f) = fun a => decide (key a = id) := by
    funext a
    simp [hf]
  rw [h]

theorem find?_map_other {α : Type} {key : α → String} {f : α → α}
    (hf : ∀ a, key (f a) = key a) {id : String} (hid : ∀ a, key a = id → f a = a)
    (rows : List α) :
    (rows.map f).find? (fun a => key a = id) = rows.find? fun a => key a = id := by
  rw [find?_map_row hf]
  cases h : rows.find? fun a => key a = id with
  | none => rfl
  | some a =>
    have ha : key a = id := by simpa using List.find?_some h
    rw [Option.map_some, hid a ha]

theorem World.findById_id {w : World} {id : String} {p : RemediationPlan}
    (h : w.findById id = some p) : p.id = id := by
  simpa using List.find?_some h

theorem World.findByIdInOrg_eq_some {w : World} {orgId id : String} {p : RemediationPlan} :
    w.findByIdInOrg orgId id = some p ↔ w.findById id = some p ∧ p.orgId = orgId := by
  simp [World.findByIdInOrg, Option.filter_eq_some_iff]

theorem World.findById_writePlan {w : World} {orgId id : String} {p existing : RemediationPlan}
    {patch : RemediationPlanPatch} (h : w.findById id = some p) (horg : p.orgId = orgId) :
    (w.writePlan orgId id existing patch).findById id = some (p.write existing patch) := by
  have hid := World.findById_id h
  unfold World.findById at h
  unfold World.findById World.writePlan
  rw [find?_map_row (by intro q; split <;> rfl), h]
  simp [hid, horg]

theorem World.findById_writePlan_ne {w : World} {orgId id id' : String}
    {existing : RemediationPlan} {patch : RemediationPlanPatch} (hne : id' ≠ id) :
    (w.writePlan orgId id existing patch).findById id' = w.findById id' := by
  refine find?_map_other (by intro q; split <;> rfl) (fun q hq => ?_) w.plans
  rw [if_neg fun h => hne (hq.symm.trans h.2)]

theorem World.findById_writeStep {w : World} {id : String} {p : RemediationPlan}
    {ordinal : ℕ} {patch : RemediationPlanStepPatch} (h : w.findById id = some p) :
    (w.writeStep id ordinal patch).findById id = some (p.writeStep ordinal patch) := by
  have hid := World.findById_id h
  unfold World.findById at h
  unfold World.findById World.writeStep
  rw [find?_map_row (by intro q; split <;> rfl), h]
  simp [hid]

theorem World.findById_writeStep_ne {w : World} {id id' : String} {ordinal : ℕ}
    {patch : RemediationPlanStepPatch} (hne : id' ≠ id) :
    (w.writeStep id ordinal patch).findById id' = w.findById id' := by
  refine find?_map_other (by intro q; split <;> rfl) (fun q hq => ?_) w.plans
  rw [if_neg fun h => hne (hq.symm.trans h)]

theorem World.findById_expireStale (w : World) (now id : String) :
    (w.expireStale now).findById id = (w.findById id).map fun p =>
      if p.status = .pendingApproval ∧ p.expiresAt ≤ now then { p with status := .expired }
      else p :=
  find?_map_row (by intro q; split <;> rfl) id w.plans

theorem World.approval_id {w : World} {id : String} {a : ApprovalRequest}
    (h : w.approval id = some a) : a.id = id := by
  simpa using List.find?_some h

theorem World.approval_resolveApproval {w : World} {id : String} {a : ApprovalRequest}
    {status : ApprovalStatus} {resolvedBy : String} {roles : Option (List String)}
    (h : w.approval id = some a) :
    (w.resolveApproval id status resolvedBy roles).approval id =
      some (a.resolve status resolvedBy w.now roles) := by
  have hid := World.approval_id h
  unfold World.approval at h
  unfold World.approval World.resolveApproval
  rw [find?_map_row (by intro q; split <;> rfl), h]
  simp [hid]

theorem World.approval_resolveApproval_ne {w : World} {id id' : String}
    {status : ApprovalStatus} {resolvedBy : String} {roles : Option (List String)}
    (hne : id' ≠ id) :
    (w.resolveApproval id status resolvedBy roles).approval id' = w.approval id' := by
  refine find?_map_other (by intro q; split <;> rfl) (fun q hq => ?_) w.approvals
  rw [if_neg fun h => hne (hq.symm.trans h)]

theorem World.resolveApproval_of_none {w : World} {id : String} {status : ApprovalStatus}
    {resolvedBy : String} {roles : Option (List String)} (h : w.approval id = none) :
    w.resolveApproval id status resolvedBy roles = w := by
  have hno : ∀ a ∈ w.approvals, a.id ≠ id := by simpa using List.find?_eq_none.mp h
  have hmap : (w.approvals.map fun a =>
      if a.id = id then a.resolve status resolvedBy w.now roles else a) = w.approvals := by
    conv => rhs; rw [← List.map_id w.approvals]
    exact List.map_congr_left fun a ha => if_neg (hno a ha)
  rw [World.resolveApproval, hmap]

end OpenObs.Plans
