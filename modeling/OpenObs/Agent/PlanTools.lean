import Mathlib.Data.List.Range
import OpenObs.Agent.ToolContext
import OpenObs.Kubectl.Allowlist

/-!
# The plan tools and `ops_run_command`

`handlers/remediation-plan.ts` and `handlers/ops.ts`.
-/

namespace OpenObs.Agent

open OpenObs.Foundation OpenObs.Plans OpenObs.Rules OpenObs.Kubectl

/-! ## Steps -/

/-- A step that passed `parseStep`; the argv is there, as strings. -/
structure ValidatedStep where
  kind : String
  commandText : String
  paramsJson : Json.Record
  argv : List String
  connectorId : String
  continueOnError : Bool

def stepAt (idx : ℕ) : String := "step[" ++ toString idx ++ "]"

def parseStep (idx : ℕ) (raw : Json) : Except String ValidatedStep :=
  match raw with
  | .obj _ | .arr _ =>
    let kind := (asText (member raw "kind")).getD ""
    let commandText := trimmed (member raw "commandText")
    if kind = "" then .error (stepAt idx ++ ".kind is required")
    else if kind ≠ "ops.run_command" then
      .error (stepAt idx ++ ".kind '" ++ kind ++
        "' is not supported (only 'ops.run_command' today)")
    else if commandText = "" then .error (stepAt idx ++ ".commandText is required")
    else
      match member raw "paramsJson" with
      | some (.obj params) =>
        match (Json.field params "argv").bind Json.asStrings,
            Folders.truthy (asText (Json.field params "connectorId")) with
        | some (arg :: argv), some connectorId => .ok {
            kind
            commandText
            paramsJson := params
            argv := arg :: argv
            connectorId
            continueOnError := match member raw "continueOnError" with
              | some (.bool b) => b
              | _ => false }
        | some (_ :: _), none => .error (stepAt idx ++
            ".paramsJson.connectorId must be the id of a configured ops connector")
        | _, _ => .error (stepAt idx ++
            ".paramsJson.argv must be a non-empty string array (kubectl argv without 'kubectl')")
      | _ => .error (stepAt idx ++ ".paramsJson must be an object")
  | _ => .error (stepAt idx ++ " is not an object")

def parseSteps (raws : List Json) : Except String (List ValidatedStep) :=
  raws.zipIdx.mapM fun r => parseStep r.2 r.1

variable {κ δ : Type} (ctx : ToolContext κ δ) (drawn : DrawnTool)

def validateStepAgainstConnector (idx : ℕ) (step : ValidatedStep) : Option String :=
  match (ctx.opsConnectors.getD []).find? (·.id = step.connectorId) with
  | none => some (stepAt idx ++ ".paramsJson.connectorId '" ++ step.connectorId ++
      "' is not configured for this org")
  | some connector =>
    match checkKubectl step.argv .write (connector.namespaces.getD []) with
    | .allow => none
    | .deny reason => some (stepAt idx ++ " (" ++ step.commandText ++ "): " ++ reason)

def refusedStep (steps : List ValidatedStep) : Option String :=
  steps.zipIdx.findSome? fun s => validateStepAgainstConnector ctx s.2 s.1

/-! ## Plans -/

def newStep (step : ValidatedStep) (ordinal : ℕ) : RemediationPlanStep where
  ordinal := ordinal
  kind := step.kind
  commandText := step.commandText
  paramsJson := step.paramsJson
  continueOnError := step.continueOnError
  status := .pending
  approvalRequestId := none
  executedAt := none
  outputText := none
  errorText := none

/-- The rows `remediationPlans.create` inserts. -/
def newPlan (orgId investigationId expiresAt : String) (steps : List ValidatedStep) :
    RemediationPlan where
  id := drawn.planId
  orgId := orgId
  investigationId := investigationId
  createdBy := "agent"
  status := .pendingApproval
  autoEdit := false
  approvalRequestId := none
  expiresAt := expiresAt
  resolvedAt := none
  resolvedBy := none
  steps := steps.zipIdx.map fun s => newStep s.1 s.2
  ordered := by
    have hordinals : (steps.zipIdx.map fun s => newStep s.1 s.2).map (·.ordinal) =
        List.range steps.length := by
      rw [List.map_map]
      exact List.zipIdx_map_snd 0 steps |>.trans (List.range_eq_range' ..).symm
    rw [hordinals]
    exact List.pairwise_lt_range

def createPlan (plan : RemediationPlan) : Prog World RemediationPlan :=
  .attempt fun w =>
    if (w.findById plan.id).isSome then
      (.error "UNIQUE constraint failed: remediation_plan.id", w)
    else (.ok plan, { w with plans := w.plans ++ [plan] })

/-- The request for the approval of a plan, with the connector and the namespace of its first
step. -/
def planRequest (investigationId summary : String) (plan : RemediationPlan)
    (steps : List ValidatedStep) : Approvals.SubmitParams :=
  let firstOpsStep := steps.find? fun s =>
    decide ((Json.field s.paramsJson "argv").isSome) && decide (s.connectorId ≠ "")
  { action := {
      type := "plan"
      targetService := "remediation-plan"
      params := [("planId", .str plan.id), ("summary", .str summary),
        ("stepCount", .num plan.steps.length)] }
    context := {
      investigationId := some investigationId
      requestedBy := "agent"
      reason := summary
      planId := some plan.id
      stepOrdinal := none }
    opsConnectorId := firstOpsStep.map (·.connectorId)
    targetNamespace := firstOpsStep.bind fun s => (parseKubectlArgv s.argv).namespace }

def storePlan (plan : RemediationPlan) (approvals : Option Approvals.Runtime)
    (request : Approvals.SubmitParams) : Prog World Unit := do
  let _ ← createPlan plan
  match approvals with
  | none => return ()
  | some rt => do
      let submitted ← Approvals.submit rt request
      let _ ← updatePlan plan.orgId plan.id fun _ =>
        { approvalRequestId := some (some submitted.id) }
      return ()

def stepCount (n : ℕ) : String := toString n ++ " step" ++ if n = 1 then "" else "s"

def createPlanCommon (args : Json.Record) (rescueForPlanId : Option String) :
    Prog (AgentState κ δ) String :=
  let investigationId := stringOr args "investigationId" ""
  let summary := Rbac.trim (stringOr args "summary" "")
  if ctx.hasRemediationPlans = false then
    return "Error: remediation plan store is not available."
  else if investigationId = "" then return "Error: \"investigationId\" is required."
  else if summary = "" then return "Error: \"summary\" is required."
  else
    match arrayOr (Json.field args "steps") with
    | [] => return "Error: \"steps\" must be a non-empty array."
    | raw :: raws =>
      match parseSteps (raw :: raws) with
      | .error e => return "Error: " ++ e
      | .ok parsed =>
        match refusedStep ctx parsed with
        | some reason => return "Error: " ++ reason
        | none => do
            let expiresAt := drawn.later (numberOr (Json.field args "expiresInMs") 86400000)
            let plan := newPlan drawn ctx.caller.orgId investigationId expiresAt parsed
            let approvals := if rescueForPlanId = none then ctx.approvalRequests else none
            (storePlan plan approvals (planRequest investigationId summary plan parsed)).zoom
              AgentState.plansPart
            match rescueForPlanId with
            | none => return "Created remediation plan \"" ++ summary ++ "\" (id: " ++ plan.id ++
                ", " ++ stepCount parsed.length ++ "). Awaiting approval."
            | some parent => return "Created rescue plan \"" ++ summary ++ "\" (id: " ++
                plan.id ++ ", " ++ stepCount parsed.length ++ ") for plan " ++ parent ++
                ". It will only run if an operator triggers it from the UI."

def handleRemediationPlanCreate (args : Json.Record) : Prog (AgentState κ δ) String :=
  createPlanCommon ctx drawn args none

def handleRemediationPlanCreateRescue (args : Json.Record) : Prog (AgentState κ δ) String :=
  let rescueForPlanId := Rbac.trim (stringOr args "rescueForPlanId" "")
  if rescueForPlanId = "" then return "Error: \"rescueForPlanId\" is required for a rescue plan."
  else if ctx.hasRemediationPlans = false then
    createPlanCommon ctx drawn args (some rescueForPlanId)
  else do
    let parent ← (findByIdInOrg ctx.caller.orgId rescueForPlanId).zoom AgentState.plansPart
    match parent with
    | none => return "Error: parent plan \"" ++ rescueForPlanId ++ "\" not found."
    | some _ => createPlanCommon ctx drawn args (some rescueForPlanId)

/-! ## Ops commands -/

/-- What `formatOpsCommandResult` makes of an answer. -/
def formatOpsCommandResult (result : Json) : String :=
  match result with
  | .str s => s
  | .null => "Ops command completed with no output."
  | .obj _ | .arr _ =>
    ((asText (member result "observation")).or ((asText (member result "summary")).or
      (asText (member result "message")))).getD (ctx.platform.stringify result)
  | v => stringOf v

/-- `args.intent`, trimmed; `read` where there is none. -/
def opsIntent (args : Json.Record) : String :=
  (Folders.truthy (some (trimmed (Json.field args "intent")))).getD "read"

def unknownOpsConnector (connectorId : String) : Option (List OpsConnectorConfig) → Option String
  | none => none
  | some [] => some "No Ops connectors are configured. Connect a Kubernetes/Ops integration before querying cluster state."
  | some (connector :: connectors) =>
    if connectorId ∈ (connector :: connectors).map (·.id) then none
    else some ("Ops connector \"" ++ connectorId ++ "\" is not configured. Choose one of: " ++
      ", ".intercalate ((connector :: connectors).map (·.id)) ++ ".")

def handleOpsRunCommand (args : Json.Record) : Prog (AgentState κ δ) String :=
  let connectorId := trimmed (Json.field args "connectorId")
  let command := trimmed (Json.field args "command")
  match ctx.opsCommandRunner with
  | none => return "Ops command runner is not configured. Connect a Kubernetes/Ops integration before querying cluster state."
  | some runner =>
    if connectorId = "" then
      return "ops_run_command requires connectorId. List configured Ops connectors in Settings and choose one before running a command."
    else if command = "" then return "ops_run_command requires a command."
    else
      match unknownOpsConnector connectorId (ctx.opsConnectors.or runner.listConnectors) with
      | some complaint => return complaint
      | none => do
          let result ← (runner.runCommand
            { connectorId, command, intent := opsIntent args,
              sessionId := ctx.sessionId }).zoom AgentState.plansPart
          return formatOpsCommandResult ctx result

end OpenObs.Agent
