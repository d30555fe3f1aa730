import OpenObs.Foundation.Json

/-!
# Remediation plans and approval requests — the data model

The records of `types/remediation-plan.ts` and `repository/types.ts`, with the fields the plan
executor, the approval store and the routes read or write.
-/

namespace OpenObs.Plans

open OpenObs.Foundation

inductive RemediationPlanStatus : Type where
  | draft | pendingApproval | approved | rejected | executing | completed
  | failed | expired | cancelled
deriving DecidableEq

def RemediationPlanStatus.text : RemediationPlanStatus → String
  | .draft => "draft"
  | .pendingApproval => "pending_approval"
  | .approved => "approved"
  | .rejected => "rejected"
  | .executing => "executing"
  | .completed => "completed"
  | .failed => "failed"
  | .expired => "expired"
  | .cancelled => "cancelled"

inductive RemediationPlanStepStatus : Type where
  | pending | approved | executing | done | failed | skipped
deriving DecidableEq

def RemediationPlanStepStatus.text : RemediationPlanStepStatus → String
  | .pending => "pending"
  | .approved => "approved"
  | .executing => "executing"
  | .done => "done"
  | .failed => "failed"
  | .skipped => "skipped"

structure RemediationPlanStep where
  ordinal : ℕ
  kind : String
  commandText : String
  paramsJson : Json.Record
  continueOnError : Bool
  status : RemediationPlanStepStatus
  approvalRequestId : Option String
  executedAt : Option String
  outputText : Option String
  errorText : Option String

structure RemediationPlan where
  id : String
  orgId : String
  investigationId : String
  createdBy : String
  status : RemediationPlanStatus
  autoEdit : Bool
  approvalRequestId : Option String
  expiresAt : String
  resolvedAt : Option String
  resolvedBy : Option String
  steps : List RemediationPlanStep
  ordered : (steps.map (·.ordinal)).Pairwise (· < ·)

/-! ## Patches

A field left out of a patch (`undefined`) is `none`; a nullable field set to
`null` is `some none`. -/

structure RemediationPlanPatch where
  status : Option RemediationPlanStatus := none
  autoEdit : Option Bool := none
  approvalRequestId : Option (Option String) := none
  resolvedAt : Option (Option String) := none
  resolvedBy : Option (Option String) := none

structure RemediationPlanStepPatch where
  status : Option RemediationPlanStepStatus := none
  approvalRequestId : Option (Option String) := none
  executedAt : Option (Option String) := none
  outputText : Option (Option String) := none
  errorText : Option (Option String) := none

/-! ## Approval requests -/

inductive ApprovalStatus : Type where
  | pending | approved | rejected | expired
deriving DecidableEq

structure ApprovalAction where
  type : String
  targetService : String
  params : Json.Record

structure ApprovalContext where
  investigationId : Option String
  requestedBy : String
  reason : String
  planId : Option String
  stepOrdinal : Option ℕ

/-- A row of `approvals`. -/
structure ApprovalRequest where
  id : String
  orgId : String
  action : ApprovalAction
  context : ApprovalContext
  status : ApprovalStatus
  expiresAt : String
  createdAt : String
  resolvedAt : Option String
  resolvedBy : Option String
  resolvedByRoles : Option (List String)
  opsConnectorId : Option String
  targetNamespace : Option String
  requesterTeamId : Option String

/-! ## What the executor answers -/

inductive PlanExecutorOutcome : Type where
  | pausedForApproval (stepOrdinal : ℕ) (approvalRequestId : String)
  | completed
  | failed (failedOrdinal : Int) (reason : String)
  | cancelled

/-- The parameters of an `ops.run_command` step. -/
structure OpsRunCommandStepParams where
  argv : List String
  connectorId : String

end OpenObs.Plans
