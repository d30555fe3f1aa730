import OpenObs.Approvals.Store
import OpenObs.Plans.Namespaces

/-!
# The plan executor

`plan-executor-service.ts`, function by function, as programs over the stored state: each `await` of
the source ends a section.
-/

namespace OpenObs.Plans

open OpenObs.Foundation OpenObs.Approvals

/-! ## Options -/

/-- What `adapter.execute` resolves to. -/
structure ExecutionResult where
  success : Bool
  outputText : Option String
  error : Option String

structure ExecutionAdapter where
  execute : World → OpsRunCommandStepParams → Except String ExecutionResult

structure PlanExecutorOptions where
  runtime : Runtime
  approvals : Bool                      -- whether the approval repository is wired
  adapterFor : World → RemediationPlan → RemediationPlanStep →
    Except String ExecutionAdapter
  resolveRequesterTeamId : Option (World → String → String → Except String (Option String))
  fuel : ℕ

def STDIO_CAP_BYTES : ℕ := 64 * 1024

/-- The end of a text, at most `cap` code units of it; an empty text is `null`. -/
def truncate (s : Option String) (cap : ℕ) : Option String :=
  s.bind fun t =>
    if t = "" then none
    else some (String.ofList (Text.lastUnits cap t.toList))

/-! ## Private methods -/

/-- The loops of `haltPlan` and `retryStep`: the given steps, one update each. -/
def markSteps (planId : String) (status : RemediationPlanStepStatus)
    (steps : List RemediationPlanStep) : Prog World Unit :=
  steps.forM fun s => do
    let _ ← updateStep planId s.ordinal fun _ => { status := some status }

def haltPlan (orgId planId : String) (failedOrdinal : ℕ) (reason : String) :
    Prog World PlanExecutorOutcome := do
  let fresh ← findByIdInOrg orgId planId
  match fresh with
  | none => pure ()
  | some fresh =>
    markSteps planId .skipped (fresh.steps.filter fun s =>
      failedOrdinal < s.ordinal ∧ s.status = .pending)
  let _ ← updatePlan orgId planId fun _ => { status := some .failed }
  return .failed failedOrdinal reason

/-- The three ways a step ends as failed: the error text, and the halt unless
the step continues on error. -/
def failStep (plan : RemediationPlan) (step : RemediationPlanStep)
    (errorText : Option String) (reason : String) : Prog World Unit := do
  let _ ← updateStep plan.id step.ordinal fun _ =>
    { status := some .failed, errorText := some errorText }
  if step.continueOnError then return
  else
    let _ ← haltPlan plan.orgId plan.id step.ordinal reason

/-- `adapterFor` and `adapter.execute`, with what they throw as a value. -/
def callAdapter (o : PlanExecutorOptions) (plan : RemediationPlan)
    (step : RemediationPlanStep) (params : OpsRunCommandStepParams) :
    Prog World (Except String ExecutionResult) :=
  tryCatch
    (do
      let adapter ← Prog.attempt fun w => (o.adapterFor w plan step, w)
      Prog.write fun w => w.recordCall plan.id step.ordinal params
      let result ← Prog.attempt fun w => (adapter.execute w params, w)
      return .ok result)
    fun err => return .error err

def executeStep (o : PlanExecutorOptions) (plan : RemediationPlan)
    (step : RemediationPlanStep) : Prog World Unit := do
  let _ ← updateStep plan.id step.ordinal fun now =>
    { status := some .executing, executedAt := some (some now) }
  match readOpsRunCommandParams step with
  | none =>
    let reason := s!"step {step.ordinal} has invalid params for kind '{step.kind}'"
    failStep plan step (some reason) reason
  | some params =>
    let result ← callAdapter o plan step params
    match result with
    | .error errMsg =>
      failStep plan step (truncate (some s!"adapter threw: {errMsg}") STDIO_CAP_BYTES)
        errMsg
    | .ok result =>
      if result.success then
        let _ ← updateStep plan.id step.ordinal fun _ =>
          { status := some .done
            outputText := some (truncate result.outputText STDIO_CAP_BYTES) }
      else
        let errMsg := result.error.getD "step failed"
        failStep plan step (truncate (some errMsg) STDIO_CAP_BYTES) errMsg

def stepApproval (plan : RemediationPlan) (next : RemediationPlanStep)
    (requesterTeamId : Option String) : SubmitParams :=
  let params := readOpsRunCommandParams next
  { action :=
      { type := "ops.run_command"
        targetService := (params.map (·.connectorId)).getD "unknown"
        params :=
          [("argv", .arr (((params.map (·.argv)).getD []).map .str)),
           ("connectorId", .str ((params.map (·.connectorId)).getD "")),
           ("stepKind", .str next.kind)] }
    context :=
      { investigationId := some plan.investigationId
        requestedBy := plan.createdBy
        reason := next.commandText
        planId := some plan.id
        stepOrdinal := some next.ordinal }
    opsConnectorId := params.map (·.connectorId)
    targetNamespace := stepTargetNamespace next
    requesterTeamId := requesterTeamId }

def requestApproval (o : PlanExecutorOptions) (orgId : String) (plan : RemediationPlan)
    (next : RemediationPlanStep) : Prog World PlanExecutorOutcome := do
  if o.approvals = false then
    throw "PlanExecutorService: approvals repository is required when autoEdit=false"
  let requesterTeamId ← match o.resolveRequesterTeamId with
    | none => pure none
    | some lookup => Prog.attempt fun w => (lookup w orgId plan.investigationId, w)
  let submitted ← submit o.runtime (stepApproval plan next requesterTeamId)
  let _ ← updateStep plan.id next.ordinal fun _ =>
    { approvalRequestId := some (some submitted.id) }
  return .pausedForApproval next.ordinal submitted.id

def runNext (o : PlanExecutorOptions) (orgId planId : String) :
    ℕ → Prog World PlanExecutorOutcome
  | 0 => throw "runNext: out of fuel"
  | fuel + 1 => do
      let plan ← findByIdInOrg orgId planId
      match plan with
      | none => throw s!"plan {planId} not found"
      | some plan =>
        if plan.status = .failed then
          let failed := plan.steps.find? (·.status = .failed)
          return .failed ((failed.map fun s => (s.ordinal : Int)).getD (-1))
            ((failed.bind (·.errorText)).getD "plan failed")
        else if plan.status = .cancelled then return .cancelled
        else
          match plan.steps.find? (·.status = .pending) with
          | none =>
            let _ ← updatePlan orgId planId fun _ => { status := some .completed }
            return .completed
          | some next =>
            if plan.autoEdit then
              executeStep o plan next
              runNext o orgId planId fuel
            else requestApproval o orgId plan next

def findStepByApproval (o : PlanExecutorOptions) (orgId approvalRequestId : String) :
    Prog World (RemediationPlan × RemediationPlanStep) := do
  if o.approvals = false then
    throw "PlanExecutorService: approvals repository is required"
  let approval ← Approvals.findById approvalRequestId
  match approval with
  | none => throw s!"approval {approvalRequestId} not found"
  | some approval =>
    match approval.context.planId, approval.context.stepOrdinal with
    | some planId, some ordinal =>
      let plan ← findByIdInOrg orgId planId
      match plan with
      | none => throw s!"plan {planId} not found"
      | some plan =>
        match plan.steps.find? (·.ordinal = ordinal) with
        | none => throw s!"step {ordinal} not found on plan {planId}"
        | some step => return (plan, step)
    | _, _ => throw s!"approval {approvalRequestId} is not a plan-step approval"

/-! ## Public methods -/

/-- The plan of a request, refused unless its status is one of `allowed`. -/
def planForDecision (orgId planId : String) (allowed : List RemediationPlanStatus)
    (verb : String) : Prog World RemediationPlan := do
  let plan ← findByIdInOrg orgId planId
  match plan with
  | none => throw s!"plan {planId} not found"
  | some plan =>
    if plan.status ∈ allowed then return plan
    else throw s!"plan {planId} is {plan.status.text}, cannot {verb}"

def approve (o : PlanExecutorOptions) (orgId planId : String) (autoEdit : Bool)
    (userId : String) : Prog World PlanExecutorOutcome := do
  let _ ← planForDecision orgId planId [.pendingApproval] "approve"
  let _ ← updatePlan orgId planId fun now =>
    { status := some .approved, autoEdit := some autoEdit, resolvedAt := some (some now),
      resolvedBy := some (some userId) }
  let _ ← updatePlan orgId planId fun _ => { status := some .executing }
  runNext o orgId planId o.fuel

/-- `reject` and `cancel` end in one update that stamps who and when. -/
def endPlan (orgId planId : String) (status : RemediationPlanStatus) (userId : String) :
    Prog World (Option RemediationPlan) :=
  updatePlan orgId planId fun now =>
    { status := some status, resolvedAt := some (some now),
      resolvedBy := some (some userId) }

def reject (orgId planId userId : String) : Prog World (Option RemediationPlan) := do
  let _ ← planForDecision orgId planId [.pendingApproval] "reject"
  endPlan orgId planId .rejected userId

def cancel (orgId planId userId : String) : Prog World (Option RemediationPlan) := do
  let _ ← planForDecision orgId planId [.approved, .executing] "cancel"
  endPlan orgId planId .cancelled userId

def onStepApproved (o : PlanExecutorOptions) (orgId approvalRequestId : String) :
    Prog World PlanExecutorOutcome := do
  let (plan, step) ← findStepByApproval o orgId approvalRequestId
  executeStep o plan step
  runNext o orgId plan.id o.fuel

def onStepRejected (o : PlanExecutorOptions) (orgId approvalRequestId : String) :
    Prog World PlanExecutorOutcome := do
  let (plan, step) ← findStepByApproval o orgId approvalRequestId
  let _ ← updateStep plan.id step.ordinal fun _ =>
    { status := some .failed, errorText := some (some "rejected by approver") }
  if step.continueOnError then runNext o orgId plan.id o.fuel
  else haltPlan orgId plan.id step.ordinal "rejected by approver"

/-- The reset of `retryStep`: the step, and on a failed plan the steps the halt
skipped. -/
def resetForRetry (orgId : String) (plan : RemediationPlan) (planId : String)
    (ordinal : ℕ) : Prog World Unit := do
  let _ ← updateStep planId ordinal fun _ =>
    { status := some .pending, errorText := some none, outputText := some none,
      executedAt := some none }
  if plan.status = .failed then
    markSteps planId .pending (plan.steps.filter fun s =>
      ordinal < s.ordinal ∧ s.status = .skipped)
    let _ ← updatePlan orgId planId fun _ => { status := some .executing }

def retryStep (o : PlanExecutorOptions) (orgId planId : String) (ordinal : ℕ) :
    Prog World PlanExecutorOutcome := do
  let plan ← findByIdInOrg orgId planId
  match plan with
  | none => throw s!"plan {planId} not found"
  | some plan =>
    match plan.steps.find? (·.ordinal = ordinal) with
    | none => throw s!"step {ordinal} not found on plan {planId}"
    | some step =>
      if step.status ≠ .failed then
        throw s!"step {ordinal} is {step.status.text}, only failed steps may be retried"
      resetForRetry orgId plan planId ordinal
      let refreshed ← findByIdInOrg orgId planId
      match refreshed with
      | none => throw s!"plan {planId} disappeared during retry"
      | some refreshed =>
        match refreshed.steps.find? (·.ordinal = ordinal) with
        | none => throw s!"step {ordinal} disappeared during retry"
        | some target =>
          executeStep o refreshed target
          runNext o orgId planId o.fuel

end OpenObs.Plans

/-!
# The wiring of the plans

`app/plans-boot.ts`: a resolved request of a plan step drives the executor
forward, and a sweep expires plans nobody decided on. `Op` lists every operation
a session can consist of, with `code` as its program; a resolution includes the
delivery to the executor.
-/

namespace OpenObs.Plans

open OpenObs.Foundation OpenObs.Approvals

/-- `resumeExecutor`: what the executor throws is logged, not passed on. -/
def resumeExecutor (o : PlanExecutorOptions) (approval : ApprovalRequest) :
    Prog World Unit :=
  match approval.context.planId with
  | none => return
  | some planId => do
      let plan ← findById planId
      match plan with
      | none => return
      | some plan =>
        tryCatch
          (match approval.status with
            | .approved => do let _ ← onStepApproved o plan.orgId approval.id
            | .rejected => do let _ ← onStepRejected o plan.orgId approval.id
            | _ => return)
          fun _ => return

def onResolved (o : PlanExecutorOptions) (approval : ApprovalRequest) : Prog World Unit :=
  if approval.context.planId.isNone ∨ approval.context.stepOrdinal.isNone then return
  else if approval.action.type ≠ "ops.run_command" then return
  else resumeExecutor o approval

/-- A resolution through the event store, delivered when `mountPlans` listens. -/
def resolveAndDeliver (o : PlanExecutorOptions) (listening : Bool) (verdict : Verdict)
    (id resolvedBy : String) (roles : Option (List String)) : Prog World Unit := do
  let result ← resolution verdict id resolvedBy roles
  match result with
  | none => return
  | some request => if listening then onResolved o request else return

/-! ## Sessions -/

inductive Op : Type where
  | approve (orgId planId : String) (autoEdit : Bool) (userId : String)
  | reject (orgId planId userId : String)
  | cancel (orgId planId userId : String)
  | onStepApproved (orgId approvalRequestId : String)
  | onStepRejected (orgId approvalRequestId : String)
  | retryStep (orgId planId : String) (ordinal : ℕ)
  | resolve (verdict : Verdict) (id resolvedBy : String) (roles : Option (List String))
  | expireStale (now : String)
  | setClock (now : String)               -- time passes

def code (o : PlanExecutorOptions) (listening : Bool) : Op → Prog World Unit
  | .approve orgId planId autoEdit userId => do
      let _ ← approve o orgId planId autoEdit userId
  | .reject orgId planId userId => do let _ ← reject orgId planId userId
  | .cancel orgId planId userId => do let _ ← cancel orgId planId userId
  | .onStepApproved orgId id => do let _ ← onStepApproved o orgId id
  | .onStepRejected orgId id => do let _ ← onStepRejected o orgId id
  | .retryStep orgId planId ordinal => do let _ ← retryStep o orgId planId ordinal
  | .resolve verdict id resolvedBy roles =>
    resolveAndDeliver o listening verdict id resolvedBy roles
  | .expireStale now => do let _ ← expireStale now
  | .setClock now => .write fun w => { w with now := now }

end OpenObs.Plans
