import OpenObs.Agent.ToolEffects
import OpenObs.Rules.Tenancy

/-!
# The permission modes

What the rows look like after the calls of an agent that may only read, only propose, or has to ask.
Two lists say which tools are mutations, one in the gate and one in the runner.
-/

namespace OpenObs.Agent

open OpenObs.Foundation OpenObs.Plans OpenObs.Rules

/-! ## One call -/

section Execute

variable {κ δ : Type} (ctx : ToolContext κ δ) (agentDef : AgentDefinition)

def Passes (call : ToolCall) (s : AgentState κ δ) : Prop :=
  ((PermissionGate.check ctx.toActionContext agentDef call.action call.args).run s.session).1 =
    .ok none

def Reaches (call : ToolCall) (s : AgentState κ δ) : Prop :=
  Passes ctx agentDef call s ∧ needsApproval agentDef call.action = false ∧
    checkRequiredArgs call.action call.args = none

structure Executed (κ δ : Type) where
  call : ToolCall
  before : AgentState κ δ
  outcome : Except String (Option String)
  after : AgentState κ δ

def executed (call : ToolCall) (s : AgentState κ δ) : Executed κ δ :=
  let r := (execute ctx agentDef call).run s
  ⟨call, s, r.1, r.2⟩

def history : List ToolCall → AgentState κ δ → List (Executed κ δ)
  | [], _ => []
  | call :: calls, s =>
    let e := executed ctx agentDef call s
    e :: history calls e.after

def AgentState.emits (s : AgentState κ δ) (events : List RunnerEvent) : AgentState κ δ :=
  { s with emitted := s.emitted ++ events }

def Executed.Denied (e : Executed κ δ) : Prop :=
  ∃ d : PermissionDenial, e.outcome = .ok (some d.observation) ∧
    e.after = e.before.emits
      [.toolBlocked e.call.action d, .toolResult e.call.action d.observation false]

def Executed.Proposed (e : Executed κ δ) : Prop :=
  e.outcome = .ok (some ("Action \"" ++ e.call.action ++
      "\" requires approval. A proposal has been submitted.")) ∧
    e.after = e.before.emits
      [.artifactProposed e.call.action e.call.args,
        .approvalRequired e.call.action e.call.args
          ("Action \"" ++ e.call.action ++ "\" requires approval before execution.")]

end Execute

section Step

variable {κ δ : Type} {ctx : ToolContext κ δ} {agentDef : AgentDefinition} {call : ToolCall}
  {s : AgentState κ δ}

theorem run_emit {e : RunnerEvent} : (emit e).run s = (.ok (), s.emits [e]) := rfl

theorem emits_emits {es es' : List RunnerEvent} : (s.emits es).emits es' = s.emits (es ++ es') := by
  simp [AgentState.emits]

theorem run_blocked {action : String} {d : PermissionDenial} :
    (blocked action d).run s = (.ok (some d.observation),
      s.emits [.toolBlocked action d, .toolResult action d.observation false]) := by
  unfold blocked
  rw [Prog.run_bind, run_emit]
  dsimp only
  rw [Prog.run_bind, run_emit, emits_emits]
  rfl

theorem run_propose {action : String} {args : Json.Record} :
    (propose action args).run s = (.ok (some ("Action \"" ++ action ++
        "\" requires approval. A proposal has been submitted.")),
      s.emits [.artifactProposed action args, .approvalRequired action args
        ("Action \"" ++ action ++ "\" requires approval before execution.")]) := by
  unfold propose
  rw [Prog.run_bind, run_emit]
  dsimp only
  rw [Prog.run_bind, run_emit, emits_emits]
  rfl

/-- What becomes of a call: it is denied, proposed, sent back for its arguments, or
dispatched. -/
inductive Fate (ctx : ToolContext κ δ) (agentDef : AgentDefinition) (call : ToolCall)
    (s : AgentState κ δ) : Except String (Option String) × AgentState κ δ → Prop
  | denied (d : PermissionDenial) : Fate ctx agentDef call s (.ok (some d.observation),
      s.emits [.toolBlocked call.action d, .toolResult call.action d.observation false])
  | proposed (passes : Passes ctx agentDef call s)
      (approval : needsApproval agentDef call.action = true) :
      Fate ctx agentDef call s ((propose call.action call.args).run s)
  | incomplete (passes : Passes ctx agentDef call s)
      (approval : needsApproval agentDef call.action = false) (missing : String) :
      Fate ctx agentDef call s
        (.ok (some missing), s.emits [.toolResult call.action missing false])
  | dispatched (reaches : Reaches ctx agentDef call s) :
      Fate ctx agentDef call s ((dispatch ctx call).run s)

theorem fate (ctx : ToolContext κ δ) (agentDef : AgentDefinition) (call : ToolCall)
    (s : AgentState κ δ) : Fate ctx agentDef call s ((execute ctx agentDef call).run s) := by
  obtain ⟨gateResult, hgate⟩ := @run_check ctx.toActionContext agentDef call.action call.args
    (AgentState.sessionPart.get s)
  unfold execute
  rw [Prog.run_bind, Prog.run_zoom]
  rw [hgate, AgentState.sessionPart.set_get]
  dsimp only
  cases gateResult with
  | some d =>
    rw [run_blocked]
    exact .denied d
  | none =>
    have hpasses : Passes ctx agentDef call s := congrArg Prod.fst hgate
    dsimp only
    split
    · rename_i happroval
      exact .proposed hpasses happroval
    · rename_i happroval
      have happroval : needsApproval agentDef call.action = false := by simpa using happroval
      cases hargs : checkRequiredArgs call.action call.args with
      | some missing => exact .incomplete hpasses happroval missing
      | none => exact .dispatched ⟨hpasses, happroval, hargs⟩

end Step

/-! ## The modes -/

def unstopped : AgentPermissionMode → List String
  | .readOnly =>
    ["dashboard_clone", "connector_propose", "connector_apply", "setting_set",
      "remediation_plan_create", "remediation_plan_create_rescue"]
  | .proposeOnly => ["dashboard_clone", "connector_apply", "setting_set"]
  | .approvalRequired => ["folder_create", "connector_apply", "setting_set"]
  | .artifactMutation | .guardedExecution => []

def ActsOnCluster (call : ToolCall) : Prop :=
  call.action = "ops_run_command" ∧ opsIntent call.args ≠ "read"

def Slips {κ δ : Type} (ctx : ToolContext κ δ) (agentDef : AgentDefinition) (call : ToolCall)
    (s : AgentState κ δ) : Prop :=
  match agentDef.permissionMode with
  | .readOnly =>
    (call.action ∈ unstopped .readOnly ∨ ActsOnCluster call) ∧ Reaches ctx agentDef call s
  | .proposeOnly => call.action ∈ unstopped .proposeOnly ∧ Reaches ctx agentDef call s
  | .approvalRequired => call.action ∈ unstopped .approvalRequired ∧ Passes ctx agentDef call s
  | .artifactMutation | .guardedExecution => False

/-- What a mode promises of the calls that were made from `s₀` on: no row is written; none
but proposals; or no artifact, and of a mutation there is only a denial or a proposal. -/
def Upholds {κ δ : Type} (mode : AgentPermissionMode) (s₀ : AgentState κ δ)
    (made : List (Executed κ δ)) : Prop :=
  match mode with
  | .readOnly => ∀ e ∈ made, e.after.rows = s₀.rows
  | .proposeOnly => ∀ e ∈ made, e.after.artifacts = s₀.artifacts
  | .approvalRequired => ∀ e ∈ made, e.after.artifacts = s₀.artifacts ∧
      (e.call.effect = .mutates → e.Denied ∨ e.Proposed)
  | .artifactMutation | .guardedExecution => True

theorem gate_lists_readOnly : ∀ name ∈ agentToolNames,
    name ∈ PermissionGate.MUTATION_ACTIONS ∨ name ∈ unstopped .readOnly ∨
      name = "ops_run_command" ∨ (AgentTool.ofName name).effect = .reads := by
  decide +kernel

theorem gate_lists_proposeOnly : ∀ name ∈ agentToolNames,
    name ∈ PermissionGate.MUTATION_ACTIONS ∨ name ∈ unstopped .proposeOnly ∨
      (AgentTool.ofName name).effect ≠ .mutates := by
  decide +kernel

theorem runner_lists_approvalRequired : ∀ name ∈ agentToolNames,
    name ∈ ActionRunner.MUTATION_ACTIONS ∨ name ∈ unstopped .approvalRequired ∨
      (AgentTool.ofName name).effect ≠ .mutates := by
  decide +kernel

section Modes

variable {κ δ : Type} {ctx : ToolContext κ δ} {agentDef : AgentDefinition} {call : ToolCall}
  {s : AgentState κ δ}

theorem Passes.known (h : Passes ctx agentDef call s) : call.action ∈ agentToolNames := by
  rcases passes_check h with hterm | ⟨hallows, -⟩
  · rw [List.mem_singleton.mp hterm]
    decide
  · exact known_of_allows hallows

theorem Passes.not_listed (h : Passes ctx agentDef call s)
    (hmode : PermissionGate.deniesMutations agentDef.permissionMode = true) :
    call.action ∉ PermissionGate.MUTATION_ACTIONS := by
  rcases passes_check h with hterm | ⟨-, hlist⟩
  · rw [List.mem_singleton.mp hterm]
    decide
  · exact fun hmem => hlist ⟨hmem, hmode⟩

theorem effect_of_not_mutates (h : (AgentTool.ofName call.action).effect ≠ .mutates) :
    call.effect ≠ .mutates := by
  unfold ToolCall.effect
  split
  · nofun
  · exact h

theorem effect_of_reads (h : call.action = "ops_run_command" ∨
    (AgentTool.ofName call.action).effect = .reads) (hacts : ¬ ActsOnCluster call) :
    call.effect = .reads := by
  unfold ToolCall.effect
  split
  · rfl
  · rename_i hop
    rcases h with haction | heffect
    · have hintent : opsIntent call.args = "read" := not_not.mp fun h => hacts ⟨haction, h⟩
      refine absurd ⟨?_, hintent⟩ hop
      rw [haction]
      decide
    · exact heffect

variable (hconfig : ∀ service ∈ ctx.configService, service.Documented)
  (hops : ∀ runner ∈ ctx.opsCommandRunner, runner.Documented)

include hconfig hops

/-- **One call in `read_only`** leaves every row as it is. -/
theorem readOnly_step (hmode : agentDef.permissionMode = .readOnly)
    (h : ¬ Slips ctx agentDef call s) :
    ((execute ctx agentDef call).run s).2.rows = s.rows := by
  have hfate := fate ctx agentDef call s
  generalize (execute ctx agentDef call).run s = r at hfate
  cases hfate with
  | denied d => rfl
  | proposed hpasses happroval =>
    rw [run_propose]
    rfl
  | incomplete hpasses happroval missing => rfl
  | dispatched hreaches =>
    simp only [Slips, hmode] at h
    have hnot : ¬ (call.action ∈ unstopped .readOnly ∨ ActsOnCluster call) :=
      fun hslip => h ⟨hslip, hreaches⟩
    rcases gate_lists_readOnly _ hreaches.1.known with hlist | hlist | htool
    · exact absurd hlist (hreaches.1.not_listed (by rw [hmode]; rfl))
    · exact absurd (Or.inl hlist) hnot
    · have heffect := effect_of_reads htool fun hacts => hnot (Or.inr hacts)
      exact (dispatch_reads hconfig hops heffect).run s

/-- **One call in `propose_only`** leaves the artifacts as they are. -/
theorem proposeOnly_step (hmode : agentDef.permissionMode = .proposeOnly)
    (h : ¬ Slips ctx agentDef call s) :
    ((execute ctx agentDef call).run s).2.artifacts = s.artifacts := by
  have hfate := fate ctx agentDef call s
  generalize (execute ctx agentDef call).run s = r at hfate
  cases hfate with
  | denied d => rfl
  | proposed hpasses happroval =>
    rw [run_propose]
    rfl
  | incomplete hpasses happroval missing => rfl
  | dispatched hreaches =>
    simp only [Slips, hmode] at h
    rcases gate_lists_proposeOnly _ hreaches.1.known with hlist | hlist | heffect
    · exact absurd hlist (hreaches.1.not_listed (by rw [hmode]; rfl))
    · exact absurd ⟨hlist, hreaches⟩ h
    · exact (dispatch_artifacts hconfig hops (effect_of_not_mutates heffect)).run s

/-- **One call in `approval_required`** leaves the artifacts as they are, and a mutation comes to
a denial or to a proposal. -/
theorem approvalRequired_step (hmode : agentDef.permissionMode = .approvalRequired)
    (h : ¬ Slips ctx agentDef call s) :
    (executed ctx agentDef call s).after.artifacts = s.artifacts ∧ (call.effect = .mutates →
      (executed ctx agentDef call s).Denied ∨ (executed ctx agentDef call s).Proposed) := by
  -- a mutation that passes the gate is on the list of the runner
  have hlisted : Passes ctx agentDef call s → call.effect = .mutates →
      needsApproval agentDef call.action = true := by
    intro hpasses heffect
    simp only [Slips, hmode] at h
    rcases runner_lists_approvalRequired _ hpasses.known with hlist | hlist | hreads
    · simp [needsApproval, ActionRunner.isMutationAction, hlist, hmode]
    · exact absurd ⟨hlist, hpasses⟩ h
    · exact absurd heffect (effect_of_not_mutates hreads)
  unfold executed
  dsimp only
  have hfate := fate ctx agentDef call s
  generalize (execute ctx agentDef call).run s = r at hfate
  cases hfate with
  | denied d => exact ⟨rfl, fun _ => Or.inl ⟨d, rfl, rfl⟩⟩
  | proposed hpasses happroval =>
    rw [run_propose]
    exact ⟨rfl, fun _ => Or.inr ⟨rfl, rfl⟩⟩
  | incomplete hpasses happroval missing =>
    refine ⟨rfl, fun heffect => ?_⟩
    rw [hlisted hpasses heffect] at happroval
    cases happroval
  | dispatched hreaches =>
    have heffect : call.effect ≠ .mutates := by
      intro heffect
      have happroval := hreaches.2.1
      rw [hlisted hreaches.1 heffect] at happroval
      cases happroval
    exact ⟨(dispatch_artifacts hconfig hops heffect).run s, fun h => absurd h heffect⟩

end Modes

/-! ## Runs -/

section Runs

variable {κ δ : Type} {ctx : ToolContext κ δ} {agentDef : AgentDefinition}

theorem history_calls (calls : List ToolCall) :
    ∀ s : AgentState κ δ, (history ctx agentDef calls s).map (·.call) = calls := by
  induction calls with
  | nil => exact fun _ => rfl
  | cons call calls ih => exact fun s => congrArg (call :: ·) (ih _)

theorem history_executed {calls : List ToolCall} {e : Executed κ δ} :
    ∀ {s : AgentState κ δ}, e ∈ history ctx agentDef calls s →
      ∃ call s', e = executed ctx agentDef call s' := by
  induction calls with
  | nil => exact fun h => absurd h List.not_mem_nil
  | cons call calls ih =>
    intro s h
    rcases List.mem_cons.mp h with rfl | h
    · exact ⟨call, s, rfl⟩
    · exact ih h

theorem history_leaves {ρ : Type} {f : AgentState κ δ → ρ} {calls : List ToolCall} :
    ∀ {s : AgentState κ δ}, (∀ e ∈ history ctx agentDef calls s, f e.after = f e.before) →
      ∀ e ∈ history ctx agentDef calls s, f e.after = f s := by
  induction calls with
  | nil => exact fun _ e he => absurd he List.not_mem_nil
  | cons call calls ih =>
    intro s hsteps e he
    have hfirst := hsteps _ List.mem_cons_self
    rcases List.mem_cons.mp he with rfl | he
    · exact hfirst
    · exact (ih (fun e he => hsteps e (List.mem_cons_of_mem _ he)) e he).trans hfirst

/-- **The permission modes hold.** An agent runs any calls under any mode. As long as none of
them is a tool the mode should stop and does not, let through to its handler, an agent that
may only read has written no row, one that may only propose has written proposals, and one
that has to ask has written no artifact and run no mutation. -/
theorem permission_modes_hold (ctx : ToolContext κ δ)
    (hconfig : ∀ service ∈ ctx.configService, service.Documented)
    (hops : ∀ runner ∈ ctx.opsCommandRunner, runner.Documented) (agentDef : AgentDefinition)
    (calls : List ToolCall) (s : AgentState κ δ)
    (h : ∀ e ∈ history ctx agentDef calls s, ¬ Slips ctx agentDef e.call e.before) :
    Upholds agentDef.permissionMode s (history ctx agentDef calls s) := by
  cases hmode : agentDef.permissionMode with
  | readOnly =>
    refine history_leaves fun e he => ?_
    obtain ⟨call, s', rfl⟩ := history_executed he
    exact readOnly_step hconfig hops hmode (h _ he)
  | proposeOnly =>
    refine history_leaves fun e he => ?_
    obtain ⟨call, s', rfl⟩ := history_executed he
    exact proposeOnly_step hconfig hops hmode (h _ he)
  | approvalRequired =>
    have hstep : ∀ e ∈ history ctx agentDef calls s, e.after.artifacts = e.before.artifacts ∧
        (e.call.effect = .mutates → e.Denied ∨ e.Proposed) := by
      intro e he
      obtain ⟨call, s', rfl⟩ := history_executed he
      exact approvalRequired_step hconfig hops hmode (h _ he)
    exact fun e he => ⟨history_leaves (fun e he => (hstep e he).1) e he, (hstep e he).2⟩
  | artifactMutation => trivial
  | guardedExecution => trivial

end Runs

/-! ## Two agents -/

def smallConfig : ConfigService (List String × List (String × String)) (List String) where
  listConnectors _ _ _ _ := Prog.read fun c => c.rows.1.map .str
  listConnectorTemplates _ _ := return [.str "prometheus"]
  detectConnectors _ _ := return []
  proposeConnector p := Prog.atomic fun c =>
    (⟨"draft-" ++ p.name, true, []⟩, { c with drafts := c.drafts ++ ["draft-" ++ p.name] })
  applyConnectorDraft _ draftId _ := Prog.atomic fun c =>
    (⟨draftId, "active", []⟩,
      ⟨(c.rows.1 ++ [draftId], c.rows.2), c.drafts.filter (· ≠ draftId)⟩)
  testConnector connectorId _ := Prog.read fun c =>
    ⟨decide (connectorId ∈ c.rows.1), none, [], some "not found"⟩
  getSetting key _ := Prog.read fun c => (c.rows.2.find? (·.1 = key)).map (·.2)
  setSetting key value _ _ := Prog.write fun c =>
    { c with rows := (c.rows.1, c.rows.2.filter (·.1 ≠ key) ++ [(key, value)]) }

theorem smallConfig_documented : smallConfig.Documented where
  listConnectors _ _ _ _ := Prog.leaves_read
  listConnectorTemplates _ _ := Prog.leaves_pure
  detectConnectors _ _ := Prog.leaves_pure
  proposeConnector _ := Prog.leaves_atomic fun _ => rfl
  testConnector _ _ := Prog.leaves_read
  getSetting _ _ := Prog.leaves_read

def inspecting : OpsCommandRunner where
  listConnectors := some [⟨"cluster", none⟩]
  runCommand c := return .str (if c.intent = "read" then "NAME READY" else "rejected")

def wiredContext : ToolContext (List String × List (String × String)) (List String) where
  caller := ⟨"org_a", some "ann", fun _ _ => true⟩
  sessionId := "s1"
  platform := ⟨sqliteDriver, id, fun _ => none, fun _ => "", fun _ => "", .ok⟩
  configService := some smallConfig
  opsCommandRunner := some inspecting

def drawnTool : DrawnTool where
  dashboard := ⟨"d2", fun _ => "panel", fun _ => "change", "2026-01-01"⟩
  rule := ⟨"r1", "2026-01-01"⟩
  folder := ⟨"f1", "2026-01-01", "x", "y"⟩
  uuid := "u1"
  now := "2026-01-01"
  nowMs := 0
  planId := "plan-1"
  later _ := "2026-01-02"
  adapters := ⟨[], fun _ => none, fun _ => none, fun _ => none⟩
  webSearch := none
  number
    | .num n => some n
    | _ => none

def asking : AgentDefinition where
  type := "orchestrator"
  allowedTools := [⟨"dashboard_create", by decide⟩, ⟨"ops_run_command", by decide⟩]
  permissionMode := .approvalRequired

def askingCalls : List ToolCall :=
  [⟨"dashboard_create", [("title", .str "Latency"), ("datasourceId", .str "prom")], drawnTool⟩,
    ⟨"ops_run_command", [("connectorId", .str "cluster"), ("command", .str "kubectl get pods"),
      ("intent", .str "read")], drawnTool⟩,
    ⟨"folder_create", [("title", .str "Ops")], drawnTool⟩]

def oneDashboard : Session := Session.opened
  { dashboards := [{ id := "d1", title := "Latency", description := "", prompt := "", userId := "ann" }] } []

def emptyWorld : World := ⟨[], [], [], [], "2026-01-01"⟩

/-- The dashboard is proposed, the pods are listed, and the folder is not allowed. -/
theorem permission_modes_hold_asking :
    Upholds .approvalRequired ⟨oneDashboard, emptyWorld, ⟨([], []), []⟩, [], none, []⟩
      (history wiredContext asking askingCalls
        ⟨oneDashboard, emptyWorld, ⟨([], []), []⟩, [], none, []⟩) := by
  refine permission_modes_hold wiredContext ?_ ?_ asking askingCalls _ ?_
  · rintro service ⟨⟩
    exact smallConfig_documented
  · rintro runner ⟨⟩ c -
    exact Prog.leaves_pure
  · rintro e he ⟨hslip, hpasses⟩
    have hcall : e.call ∈ askingCalls := by
      rw [← @history_calls _ _ wiredContext asking askingCalls]
      exact List.mem_map_of_mem he
    have hallowed := passes_check hpasses
    simp only [askingCalls, List.mem_cons, List.not_mem_nil, or_false] at hcall
    rcases hcall with hcall | hcall | hcall
    · rw [hcall] at hslip
      exact absurd hslip (by decide)
    · rw [hcall] at hslip
      exact absurd hslip (by decide)
    · rw [hcall] at hallowed
      exact absurd hallowed (by decide)

def reading : AgentDefinition where
  type := "orchestrator"
  allowedTools := [⟨"dashboard_clone", by decide⟩]
  permissionMode := .readOnly

/-- **A clone is stored in `read_only`.** -/
theorem clone_in_readOnly :
    ¬ ∀ (ctx : ToolContext (List String × List (String × String)) (List String)),
      (∀ service ∈ ctx.configService, service.Documented) →
      (∀ runner ∈ ctx.opsCommandRunner, runner.Documented) →
      ∀ (agentDef : AgentDefinition) (calls : List ToolCall)
        (s : AgentState (List String × List (String × String)) (List String)),
        Upholds agentDef.permissionMode s (history ctx agentDef calls s) := by
  intro hall
  have hrows := hall { wiredContext with configService := none, opsCommandRunner := none }
    nofun nofun reading
    [⟨"dashboard_clone", [("sourceDashboardId", .str "d1"), ("targetDatasourceId", .str "prom")],
      drawnTool⟩]
    ⟨oneDashboard, emptyWorld, ⟨([], []), []⟩, [], none, []⟩ _ List.mem_cons_self
  have hlength := congrArg (fun rows => rows.1.1.tables.dashboards.length) hrows
  exact absurd hlength (by decide +kernel)

end OpenObs.Agent
