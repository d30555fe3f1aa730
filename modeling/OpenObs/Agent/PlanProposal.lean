import OpenObs.Agent.PermissionModes

/-!
# What a proposal that fails leaves behind

`createPlanCommon` with a database call that fails. The plan and its steps are one
transaction; the approval request and the link to it are stored after that, and nothing takes
the plan back where one of them fails.
-/

namespace OpenObs.Agent

open OpenObs.Foundation OpenObs.Plans OpenObs.Rules

namespace PlanProposal

def Failed : Except String String → Prop
  | .error _ => True
  | .ok observation => "Error".toList <+: observation.toList

def AllOrNothing {κ δ : Type} (p : Prog (AgentState κ δ) String) (s : AgentState κ δ) : Prop :=
  Failed (p.run s).1 → (p.run s).2.plans.plans = s.plans.plans ∧
    (p.run s).2.plans.approvals = s.plans.approvals

structure Accepted {κ δ : Type} (ctx : ToolContext κ δ) (args : Json.Record)
    (parsed : List ValidatedStep) : Prop where
  store : ctx.hasRemediationPlans = true
  investigationId : stringOr args "investigationId" "" ≠ ""
  summary : Rbac.trim (stringOr args "summary" "") ≠ ""
  steps : arrayOr (Json.field args "steps") ≠ []
  parses : parseSteps (arrayOr (Json.field args "steps")) = .ok parsed
  allowed : refusedStep ctx parsed = none

variable {κ δ : Type} {ctx : ToolContext κ δ} {drawn : DrawnTool} {args : Json.Record}
  {rescueForPlanId : Option String} {parsed : List ValidatedStep}

def proposed (ctx : ToolContext κ δ) (drawn : DrawnTool) (args : Json.Record)
    (parsed : List ValidatedStep) : RemediationPlan :=
  newPlan drawn ctx.caller.orgId (stringOr args "investigationId" "")
    (drawn.later (numberOr (Json.field args "expiresInMs") 86400000)) parsed

def inserted (ctx : ToolContext κ δ) (drawn : DrawnTool) (args : Json.Record)
    (parsed : List ValidatedStep) (w : World) : World :=
  { w with plans := w.plans ++ [proposed ctx drawn args parsed] }

def created (drawn : DrawnTool) (args : Json.Record) (rescueForPlanId : Option String)
    (parsed : List ValidatedStep) : String :=
  match rescueForPlanId with
  | none => "Created remediation plan \"" ++ Rbac.trim (stringOr args "summary" "") ++
      "\" (id: " ++ drawn.planId ++ ", " ++ stepCount parsed.length ++ "). Awaiting approval."
  | some parent => "Created rescue plan \"" ++ Rbac.trim (stringOr args "summary" "") ++
      "\" (id: " ++ drawn.planId ++ ", " ++ stepCount parsed.length ++ ") for plan " ++ parent ++
      ". It will only run if an operator triggers it from the UI."

theorem createPlanCommon_accepted (h : Accepted ctx args parsed) :
    createPlanCommon ctx drawn args rescueForPlanId =
      ((storePlan (proposed ctx drawn args parsed)
        (if rescueForPlanId = none then ctx.approvalRequests else none)
        (planRequest (stringOr args "investigationId" "")
          (Rbac.trim (stringOr args "summary" "")) (proposed ctx drawn args parsed) parsed)).zoom
        AgentState.plansPart >>= fun _ =>
          pure (created drawn args rescueForPlanId parsed)) := by
  obtain ⟨raw, raws, hsteps⟩ := List.exists_cons_of_ne_nil h.steps
  have hparsed := h.parses
  rw [hsteps] at hparsed
  rw [createPlanCommon]
  simp only [h.store, Bool.true_eq_false, if_false, h.investigationId, h.summary, hsteps, hparsed,
    h.allowed]
  cases rescueForPlanId <;> rfl

theorem createPlanCommon_refused (drawn : DrawnTool) (rescueForPlanId : Option String)
    (h : ∀ parsed, ¬ Accepted ctx args parsed) :
    ∃ observation : String, createPlanCommon ctx drawn args rescueForPlanId = pure observation := by
  rw [createPlanCommon]
  dsimp only
  split
  · exact ⟨_, rfl⟩
  rename_i hstore
  split
  · exact ⟨_, rfl⟩
  rename_i hid
  split
  · exact ⟨_, rfl⟩
  rename_i hsummary
  split
  · exact ⟨_, rfl⟩
  rename_i raw raws hsteps
  split
  · exact ⟨_, rfl⟩
  rename_i parsed hparsed
  split
  · exact ⟨_, rfl⟩
  rename_i hallowed
  refine absurd ?_ (h parsed)
  exact
    { store := by simpa using hstore
      investigationId := hid
      summary := hsummary
      steps := by rw [hsteps]; exact List.cons_ne_nil raw raws
      parses := by rw [hsteps]; exact hparsed
      allowed := hallowed }

/-! ## The store's part, cut short -/

section Store

variable {plan : RemediationPlan} {approvals : Option Approvals.Runtime} {rt : Approvals.Runtime}
  {request : Approvals.SubmitParams} {e : String} {n : ℕ} {w : World}

theorem store_taken (plan : RemediationPlan) (h : (w.findById plan.id).isSome) : ∃ e',
    ((storePlan plan approvals request).failAt e n).run w = (.error e', w) := by
  cases n with
  | zero => exact ⟨e, rfl⟩
  | succ n =>
    refine ⟨"UNIQUE constraint failed: remediation_plan.id", ?_⟩
    unfold storePlan createPlan
    rw [Prog.run_failAt_attempt, if_pos h]

theorem store_inserted (h : ¬ (w.findById plan.id).isSome) :
    ((storePlan plan approvals request).failAt e (n + 1)).run w =
      ((match approvals with
        | none => pure ()
        | some rt => do
            let submitted ← Approvals.submit rt request
            let _ ← updatePlan plan.orgId plan.id fun _ =>
              { approvalRequestId := some (some submitted.id) }
            return () : Prog World Unit).failAt e n).run { w with plans := w.plans ++ [plan] } := by
  unfold storePlan createPlan
  rw [Prog.run_failAt_attempt, if_neg h] <;> rfl

theorem submit_taken {α : Type} (e : String) (n : ℕ) (request : Approvals.SubmitParams)
    (k : ApprovalRequest → Prog World α) (h : (w.approval (rt.randomUUID w)).isSome) : ∃ e',
    ((Approvals.submit rt request >>= k).failAt e (n + 1)).run w = (.error e', w) := by
  refine ⟨"UNIQUE constraint failed: approvals.id", ?_⟩
  rw [Approvals.submit, Prog.run_failAt_attempt]
  dsimp only [Approvals.newRequest]
  rw [if_pos h]

theorem submit_free {α : Type} {k : ApprovalRequest → Prog World α}
    (h : ¬ (w.approval (rt.randomUUID w)).isSome) :
    ((Approvals.submit rt request >>= k).failAt e (n + 1)).run w =
      ((k (Approvals.newRequest rt request w)).failAt e n).run
        (w.insertApproval (Approvals.newRequest rt request w)) := by
  rw [Approvals.submit, Prog.run_failAt_attempt]
  dsimp only [Approvals.newRequest]
  rw [if_neg h]

theorem updatePlan_found {orgId id : String} {patch : String → RemediationPlanPatch}
    {existing : RemediationPlan} (h : w.findByIdInOrg orgId id = some existing) :
    ((updatePlan orgId id patch >>= fun _ => (pure () : Prog World Unit)).failAt e n).run w =
      if n < 2 then (.error e, w) else (.ok (), w.writePlan orgId id existing (patch w.now)) := by
  cases n with
  | zero => rfl
  | succ n =>
    unfold updatePlan
    rw [Prog.bind_assoc', Prog.run_failAt_read, h]
    cases n with
    | zero => rfl
    | succ n => rfl

theorem findByIdInOrg_inserted (h : ¬ (w.findById plan.id).isSome) (row : ApprovalRequest) :
    (({ w with plans := w.plans ++ [plan] } : World).insertApproval row).findByIdInOrg
      plan.orgId plan.id = some plan := by
  have hnone : w.plans.find? (·.id = plan.id) = none := by
    simpa [World.findById] using h
  rw [World.findByIdInOrg, World.findById, World.insertApproval, List.find?_append, hnone]
  simp

theorem store_fails (e : String) (request : Approvals.SubmitParams)
    (h : ¬ (w.findById plan.id).isSome)
    (hfails : n < 3 ∨ (({ w with plans := w.plans ++ [plan] } : World).approval
      (rt.randomUUID { w with plans := w.plans ++ [plan] })).isSome) :
    ∃ e' w', ((storePlan plan (some rt) request).failAt e (n + 1)).run w = (.error e', w') ∧
      w'.plans = w.plans ++ [plan] := by
  rw [store_inserted h]
  dsimp only
  cases n with
  | zero => exact ⟨e, _, rfl, rfl⟩
  | succ n =>
    by_cases htaken : (({ w with plans := w.plans ++ [plan] } : World).approval
        (rt.randomUUID { w with plans := w.plans ++ [plan] })).isSome
    · obtain ⟨e', he'⟩ := submit_taken e n request
        (fun submitted => updatePlan plan.orgId plan.id (fun _ =>
          { approvalRequestId := some (some submitted.id) }) >>= fun _ => pure ()) htaken
      exact ⟨e', _, he', rfl⟩
    · rw [submit_free htaken, updatePlan_found (findByIdInOrg_inserted h _), if_pos]
      · exact ⟨e, _, rfl, rfl⟩
      · have hlt := hfails.resolve_right htaken
        omega

theorem store_ok (e : String) (request : Approvals.SubmitParams)
    (h : ¬ (w.findById plan.id).isSome) (hn : 3 ≤ n)
    (hfree : ¬ (({ w with plans := w.plans ++ [plan] } : World).approval
      (rt.randomUUID { w with plans := w.plans ++ [plan] })).isSome) :
    ∃ w', ((storePlan plan (some rt) request).failAt e (n + 1)).run w = (.ok (), w') := by
  rw [store_inserted h]
  dsimp only
  obtain ⟨n, rfl⟩ := Nat.exists_eq_add_of_le' hn
  rw [submit_free hfree, updatePlan_found (findByIdInOrg_inserted h _), if_neg (by omega)]
  exact ⟨_, rfl⟩

end Store

/-! ## The proposal -/

/-- The branch that goes wrong is not taken: once a primary plan is stored and an approval
store is wired, the calls with the numbers 1 to 3 (the request, and the two sections of the
link) do not fail, and the id of the request is not taken. -/
def FailsNoLater {κ δ : Type} (ctx : ToolContext κ δ) (drawn : DrawnTool) (args : Json.Record)
    (rescueForPlanId : Option String) (n : ℕ) (w : World) : Prop :=
  ∀ parsed rt, Accepted ctx args parsed → rescueForPlanId = none →
    ctx.approvalRequests = some rt → ¬ (w.findById drawn.planId).isSome → 0 < n →
      4 ≤ n ∧ ¬ ((inserted ctx drawn args parsed w).approval
        (rt.randomUUID (inserted ctx drawn args parsed w))).isSome

section Proposal

variable {e : String} {n : ℕ} {s : AgentState κ δ}

theorem head_append {a b : String} (h : a.toList.head? = some 'C') :
    (a ++ b).toList.head? = some 'C' := by
  rw [String.toList_append, List.head?_append, h, Option.some_or]

theorem created_head (drawn : DrawnTool) (args : Json.Record) (parsed : List ValidatedStep)
    (rescueForPlanId : Option String) :
    (created drawn args rescueForPlanId parsed).toList.head? = some 'C' := by
  cases rescueForPlanId with
  | none =>
    exact head_append (head_append (head_append (head_append (head_append (head_append
      (by decide))))))
  | some parent =>
    exact head_append (head_append (head_append (head_append (head_append (head_append
      (head_append (head_append (by decide))))))))

theorem created_reports : ¬ Failed (.ok (created drawn args rescueForPlanId parsed)) := by
  rintro ⟨more, hmore⟩
  have hhead := created_head drawn args parsed rescueForPlanId
  rw [← hmore, List.head?_append, show "Error".toList.head? = some 'E' by decide] at hhead
  exact absurd (Option.some.inj hhead) (by decide)

theorem proposal_run (h : Accepted ctx args parsed) :
    ((createPlanCommon ctx drawn args rescueForPlanId).failAt e n).run s =
      let stored := ((storePlan (proposed ctx drawn args parsed)
        (if rescueForPlanId = none then ctx.approvalRequests else none)
        (planRequest (stringOr args "investigationId" "")
          (Rbac.trim (stringOr args "summary" "")) (proposed ctx drawn args parsed)
          parsed)).failAt e n).run s.plans
      (stored.1.map fun _ => created drawn args rescueForPlanId parsed,
        { s with plans := stored.2 }) := by
  rw [createPlanCommon_accepted h, Prog.failAt_map, Prog.failAt_zoom, Prog.run_bind,
    Prog.run_zoom]
  change _ = (Except.map _ (Prog.run _ (AgentState.plansPart.get s)).1,
    AgentState.plansPart.set (Prog.run _ (AgentState.plansPart.get s)).2 s)
  generalize Prog.run _ (AgentState.plansPart.get s) = stored
  obtain ⟨outcome, w'⟩ := stored
  cases outcome <;> rfl

end Proposal

/-- **A proposal is all or nothing** just where nothing fails behind the transaction that
stores the plan. -/
theorem proposal_iff {κ δ : Type} (ctx : ToolContext κ δ) (drawn : DrawnTool)
    (args : Json.Record) (rescueForPlanId : Option String) (e : String) (n : ℕ)
    (s : AgentState κ δ) :
    AllOrNothing ((createPlanCommon ctx drawn args rescueForPlanId).failAt e n) s ↔
      FailsNoLater ctx drawn args rescueForPlanId n s.plans := by
  constructor
  · intro hall parsed rt hacc hprimary hrt hfree hn
    obtain ⟨n, rfl⟩ := Nat.exists_eq_add_one.mpr hn
    rw [AllOrNothing, proposal_run hacc, if_pos hprimary, hrt] at hall
    by_contra hcon
    have hfails : n < 3 ∨ ((inserted ctx drawn args parsed s.plans).approval
        (rt.randomUUID (inserted ctx drawn args parsed s.plans))).isSome := by
      by_contra hnot
      rw [not_or] at hnot
      exact hcon ⟨by omega, hnot.2⟩
    obtain ⟨e', w', hrun, hplans⟩ := store_fails e
      (planRequest (stringOr args "investigationId" "")
        (Rbac.trim (stringOr args "summary" "")) (proposed ctx drawn args parsed) parsed)
      hfree hfails
    rw [hrun] at hall
    have hsame := (hall trivial).1
    rw [show _ = _ from hplans] at hsame
    simpa using congrArg List.length hsame
  · intro hcond
    by_cases hacc : ∃ parsed, Accepted ctx args parsed
    · obtain ⟨parsed, hacc⟩ := hacc
      rw [AllOrNothing, proposal_run hacc]
      cases n with
      | zero => exact fun _ => ⟨rfl, rfl⟩
      | succ n =>
        by_cases htaken : (s.plans.findById drawn.planId).isSome
        · obtain ⟨e', hrun⟩ := store_taken (proposed ctx drawn args parsed) htaken
          rw [hrun]
          exact fun _ => ⟨rfl, rfl⟩
        · cases hwired : (if rescueForPlanId = none then ctx.approvalRequests else none) with
          | none =>
            rw [store_inserted htaken]
            exact fun hfailed => absurd hfailed created_reports
          | some rt =>
            have hprimary : rescueForPlanId = none := by
              by_contra hrescue
              rw [if_neg hrescue] at hwired
              cases hwired
            rw [if_pos hprimary] at hwired
            obtain ⟨hn, hfree⟩ :=
              hcond parsed rt hacc hprimary hwired htaken (Nat.succ_pos n)
            obtain ⟨w', hrun⟩ := store_ok e
              (planRequest (stringOr args "investigationId" "")
                (Rbac.trim (stringOr args "summary" "")) (proposed ctx drawn args parsed)
                parsed) htaken (Nat.le_of_succ_le_succ hn) hfree
            rw [hrun]
            exact fun hfailed => absurd hfailed created_reports
    · obtain ⟨observation, hrun⟩ := createPlanCommon_refused drawn rescueForPlanId
        (not_exists.mp hacc)
      rw [hrun]
      exact fun _ => ⟨rfl, rfl⟩

/-! ## A plan without its request -/

def proposingContext : ToolContext (List String × List (String × String)) (List String) :=
  { wiredContext with
    hasRemediationPlans := true
    approvalRequests := some ⟨fun _ => "approval-1", fun _ _ => "2026-01-02"⟩
    opsConnectors := some [⟨"cluster", some ["app"]⟩] }

def scaleProposal : Json.Record :=
  [("investigationId", .str "inv-1"), ("summary", .str "Scale web"),
    ("steps", .arr [.obj [("kind", .str "ops.run_command"),
      ("commandText", .str "kubectl scale deployment web -n app --replicas=3"),
      ("paramsJson", .obj [("connectorId", .str "cluster"),
        ("argv", .arr [.str "scale", .str "deployment", .str "web", .str "-n", .str "app",
          .str "--replicas=3"])])]])]

def beforeProposal : AgentState (List String × List (String × String)) (List String) :=
  ⟨oneDashboard, emptyWorld, ⟨([], []), []⟩, [], none, []⟩

/-- The database is locked when the request is to be stored: the plan and its step stay,
pending, and no request points at them. -/
theorem plan_left_behind :
    ¬ AllOrNothing ((createPlanCommon proposingContext drawnTool scaleProposal none).failAt
        "SQLITE_BUSY: database is locked" 1) beforeProposal ∧
      (((createPlanCommon proposingContext drawnTool scaleProposal none).failAt
        "SQLITE_BUSY: database is locked" 1).run beforeProposal).2.plans.plans.map
          (fun p => (p.id, p.status, p.approvalRequestId, p.steps.length)) =
        [("plan-1", .pendingApproval, none, 1)] := by
  have houtcome : (((createPlanCommon proposingContext drawnTool scaleProposal none).failAt
      "SQLITE_BUSY: database is locked" 1).run beforeProposal).1 =
        .error "SQLITE_BUSY: database is locked" := by decide +kernel
  have hplans : (((createPlanCommon proposingContext drawnTool scaleProposal none).failAt
      "SQLITE_BUSY: database is locked" 1).run beforeProposal).2.plans.plans.length = 1 := by
    decide +kernel
  refine ⟨fun h => ?_, by decide +kernel⟩
  rw [AllOrNothing, houtcome] at h
  rw [(h trivial).1] at hplans
  exact absurd hplans (by decide)

end PlanProposal

end OpenObs.Agent
