import OpenObs.Plans.Executor

/-!
# Operations on other plans

A section that works on another plan leaves the row of plan `id` alone, records no call of it and
creates no request that gates it (`Aside`).
-/

namespace OpenObs.Plans

open OpenObs.Foundation OpenObs.Approvals Prog

structure Aside (id : String) (w w' : World) : Prop where
  row : w'.findById id = w.findById id
  calls : ∃ cs, w'.calls = w.calls ++ cs ∧ ∀ c ∈ cs, c.planId ≠ id
  approvals : ∃ as, w'.approvals = w.approvals ++ as ∧
    ∀ a ∈ as, a.context.planId ≠ some id

theorem Aside.of_eq {id : String} {w w' : World} (hrow : w'.findById id = w.findById id)
    (hcalls : w'.calls = w.calls) (happr : w'.approvals = w.approvals) : Aside id w w' :=
  ⟨hrow, ⟨[], by simp [hcalls], by simp⟩, ⟨[], by simp [happr], by simp⟩⟩

theorem Aside.refl (id : String) (w : World) : Aside id w w := .of_eq rfl rfl rfl

theorem Aside.trans {id : String} {w w' w'' : World} (h₁ : Aside id w w')
    (h₂ : Aside id w' w'') : Aside id w w'' := by
  obtain ⟨cs₁, hc₁, hcs₁⟩ := h₁.calls
  obtain ⟨cs₂, hc₂, hcs₂⟩ := h₂.calls
  obtain ⟨as₁, ha₁, has₁⟩ := h₁.approvals
  obtain ⟨as₂, ha₂, has₂⟩ := h₂.approvals
  refine ⟨h₂.row.trans h₁.row, ⟨cs₁ ++ cs₂, by rw [hc₂, hc₁, List.append_assoc], ?_⟩,
    ⟨as₁ ++ as₂, by rw [ha₂, ha₁, List.append_assoc], ?_⟩⟩
  · intro c hc
    rcases List.mem_append.mp hc with hc | hc
    · exact hcs₁ c hc
    · exact hcs₂ c hc
  · intro a ha
    rcases List.mem_append.mp ha with ha | ha
    · exact has₁ a ha
    · exact has₂ a ha

/-! ## Programs that store no plan status

Whatever holds of each statement holds of the program, under any interference. -/

section Each

variable {R G : World → World → Prop} {w : World}

theorem updateStep_each {planId : String} {k : ℕ}
    {patch : String → RemediationPlanStepPatch}
    (hstep : ∀ t patch, G t (t.writeStep planId k patch)) :
    (updateStep planId k patch).Holds R G (fun _ _ => True) w :=
  fun t _ => ⟨hstep t (patch t.now), trivial⟩

theorem markSteps_each {planId : String} {status : RemediationPlanStepStatus}
    {xs : List RemediationPlanStep}
    (hstep : ∀ t k patch, G t (t.writeStep planId k patch)) :
    (markSteps planId status xs).Holds R G (fun _ _ => True) w := by
  induction xs generalizing w with
  | nil => trivial
  | cons s xs ih =>
    refine Holds.bind_any (Holds.bind_any (updateStep_each ?_) fun _ _ => trivial)
      fun _ _ => ih
    exact fun t patch => hstep t s.ordinal patch

theorem callAdapter_each {o : PlanExecutorOptions} {plan : RemediationPlan}
    {step : RemediationPlanStep} {params : OpsRunCommandStepParams}
    (hread : ∀ t, G t t) (hcall : ∀ t, G t (t.recordCall plan.id step.ordinal params)) :
    (callAdapter o plan step params).Holds R G (fun _ _ => True) w := by
  unfold callAdapter
  apply Holds.tryCatch
  rw [holds_attempt_bind]
  intro t _
  refine ⟨hread t, ?_⟩
  cases o.adapterFor t plan step with
  | error e => trivial
  | ok adapter =>
    dsimp only
    rw [holds_write_bind]
    intro u _
    refine ⟨hcall u, ?_⟩
    rw [holds_attempt_bind]
    intro v _
    refine ⟨hread v, ?_⟩
    cases adapter.execute v params with
    | error e => trivial
    | ok result => trivial

theorem submit_each {rt : Runtime} {params : SubmitParams} (hread : ∀ t, G t t)
    (hinsert : ∀ t, G t (t.insertApproval (newRequest rt params t))) :
    (submit rt params).Holds R G (fun _ _ => True) w := by
  unfold submit
  rw [holds_attempt]
  intro t _
  dsimp only
  split
  · exact ⟨hread t, trivial⟩
  · exact ⟨hinsert t, trivial⟩

theorem requestApproval_each {o : PlanExecutorOptions} {orgId : String}
    {plan : RemediationPlan} {step : RemediationPlanStep} (hread : ∀ t, G t t)
    (hinsert : ∀ t team,
      G t (t.insertApproval (newRequest o.runtime (stepApproval plan step team) t)))
    (hstep : ∀ t k patch, G t (t.writeStep plan.id k patch)) :
    (requestApproval o orgId plan step).Holds R G (fun _ _ => True) w := by
  have hrest : ∀ team t, (submit o.runtime (stepApproval plan step team) >>= fun submitted => do
      let _ ← updateStep plan.id step.ordinal fun _ =>
        { approvalRequestId := some (some submitted.id) }
      pure (PlanExecutorOutcome.pausedForApproval step.ordinal submitted.id)).Holds R G
      (fun _ _ => True) t := by
    intro team t
    refine Holds.bind_any (submit_each hread fun u => hinsert u team) fun submitted u => ?_
    refine Holds.bind_any (updateStep_each ?_) fun _ _ => trivial
    exact fun t patch => hstep t step.ordinal patch
  unfold requestApproval
  by_cases hwired : o.approvals = false
  · rw [if_pos hwired]
    trivial
  · rw [if_neg hwired]
    cases o.resolveRequesterTeamId with
    | none => exact hrest none w
    | some lookup =>
      refine Holds.bind_any ?_ fun team t => hrest team t
      rw [holds_attempt]
      exact fun t _ => ⟨hread t, trivial⟩

end Each

/-! ## Programs given a plan -/

def RemediationPlanPatch.Decides (patch : RemediationPlanPatch) : Prop :=
  ∃ status, patch.status = some status ∧ status ≠ .pendingApproval

/-- Every statement that the executor makes about a plan in `P` is a `G`-change. -/
structure Statements (P : String → Prop) (G : World → World → Prop) : Prop where
  read : ∀ t, G t t
  writePlan : ∀ t orgId planId existing patch, P planId → patch.Decides →
    G t (t.writePlan orgId planId existing patch)
  writeStep : ∀ t planId k patch, P planId → G t (t.writeStep planId k patch)
  recordCall : ∀ t planId k params, P planId → G t (t.recordCall planId k params)
  submit : ∀ t rt (plan : RemediationPlan) step team, P plan.id →
    G t (t.insertApproval (newRequest rt (stepApproval plan step team) t))

section Given

variable {R G : World → World → Prop} {P : String → Prop} {w : World}
  {o : PlanExecutorOptions} {orgId planId : String}

theorem updatePlan_each {patch : String → RemediationPlanPatch}
    {status : RemediationPlanStatus} (hs : Statements P G) (h : P planId)
    (hpatch : ∀ now, (patch now).status = some status) (hne : status ≠ .pendingApproval) :
    (updatePlan orgId planId patch).Holds R G (fun _ _ => True) w := by
  unfold updatePlan
  rw [holds_read_bind]
  intro t _
  refine ⟨hs.read t, ?_⟩
  cases t.findByIdInOrg orgId planId with
  | none => trivial
  | some existing =>
    exact fun u _ => ⟨hs.writePlan u orgId planId existing _ h ⟨status, hpatch _, hne⟩, trivial⟩

theorem haltPlan_each {k : ℕ} {reason : String} (hs : Statements P G) (h : P planId) :
    (haltPlan orgId planId k reason).Holds R G (fun _ _ => True) w := by
  unfold haltPlan findByIdInOrg
  rw [holds_read_bind]
  intro t _
  refine ⟨hs.read t, ?_⟩
  cases t.findByIdInOrg orgId planId with
  | none =>
    exact Holds.bind_any (updatePlan_each hs h (fun _ => rfl) (by decide))
      fun _ _ => trivial
  | some fresh =>
    have hmark := fun t k patch => hs.writeStep t planId k patch h
    exact Holds.bind_any (markSteps_each hmark) fun _ _ =>
      Holds.bind_any (updatePlan_each hs h (fun _ => rfl) (by decide)) fun _ _ => trivial

theorem failStep_each {plan : RemediationPlan} {step : RemediationPlanStep}
    {errorText : Option String} {reason : String} (hs : Statements P G) (h : P plan.id) :
    (failStep plan step errorText reason).Holds R G (fun _ _ => True) w := by
  unfold failStep
  refine Holds.bind_any (updateStep_each fun t patch => hs.writeStep t _ _ patch h)
    fun _ t => ?_
  split
  · trivial
  · exact Holds.bind_any (haltPlan_each hs h) fun _ _ => trivial

theorem executeStep_each {plan : RemediationPlan} {step : RemediationPlanStep}
    (hs : Statements P G) (h : P plan.id) :
    (executeStep o plan step).Holds R G (fun _ _ => True) w := by
  have hstep := fun t patch => hs.writeStep t plan.id step.ordinal patch h
  unfold executeStep
  refine Holds.bind_any (updateStep_each hstep) fun _ t => ?_
  cases readOpsRunCommandParams step with
  | none => exact failStep_each hs h
  | some params =>
    have hcall := fun t => hs.recordCall t plan.id step.ordinal params h
    refine Holds.bind_any (callAdapter_each hs.read hcall) fun result u => ?_
    cases result with
    | error e => exact failStep_each hs h
    | ok result =>
      dsimp only
      split
      · exact Holds.bind_any (updateStep_each hstep) fun _ _ => trivial
      · exact failStep_each hs h

theorem runNext_each (hs : Statements P G) (h : P planId) (fuel : ℕ) :
    (runNext o orgId planId fuel).Holds R G (fun _ _ => True) w := by
  induction fuel generalizing w with
  | zero => trivial
  | succ fuel ih =>
    unfold runNext findByIdInOrg
    rw [holds_read_bind]
    intro t _
    refine ⟨hs.read t, ?_⟩
    cases hfind : t.findByIdInOrg orgId planId with
    | none => trivial
    | some plan =>
      have hid : P plan.id := by
        rw [World.findById_id (World.findByIdInOrg_eq_some.mp hfind).1]
        exact h
      dsimp only
      split
      · trivial
      split
      · trivial
      split
      · exact Holds.bind_any (updatePlan_each hs h (fun _ => rfl) (by decide))
          fun _ _ => trivial
      · split
        · exact Holds.bind_any (executeStep_each hs hid) fun _ _ => ih
        · exact requestApproval_each hs.read (fun t team => hs.submit t _ plan _ team hid)
            fun t k patch => hs.writeStep t plan.id k patch hid

theorem approvedStep_each {plan : RemediationPlan} {step : RemediationPlanStep}
    (hs : Statements P G) (h : P plan.id) :
    (executeStep o plan step >>= fun _ => runNext o orgId plan.id o.fuel).Holds R G
      (fun _ _ => True) w :=
  Holds.bind_any (executeStep_each hs h) fun _ _ => runNext_each hs h o.fuel

theorem rejectedStep_each {plan : RemediationPlan} {step : RemediationPlanStep}
    {patch : String → RemediationPlanStepPatch} {reason : String}
    (hs : Statements P G) (h : P plan.id) :
    (updateStep plan.id step.ordinal patch >>= fun _ =>
      if step.continueOnError then runNext o orgId plan.id o.fuel
      else haltPlan orgId plan.id step.ordinal reason).Holds R G (fun _ _ => True) w := by
  refine Holds.bind_any (updateStep_each fun t patch => hs.writeStep t _ _ patch h)
    fun _ t => ?_
  split
  · exact runNext_each hs h o.fuel
  · exact haltPlan_each hs h

theorem resetForRetry_each {plan : RemediationPlan} {k : ℕ} (hs : Statements P G)
    (h : P planId) :
    (resetForRetry orgId plan planId k).Holds R G (fun _ _ => True) w := by
  unfold resetForRetry
  refine Holds.bind_any (updateStep_each fun t patch => hs.writeStep t _ _ patch h)
    fun _ t => ?_
  split
  · have hmark := fun t k patch => hs.writeStep t planId k patch h
    exact Holds.bind_any (markSteps_each hmark) fun _ _ =>
      Holds.bind_any (updatePlan_each hs h (fun _ => rfl) (by decide)) fun _ _ => trivial
  · trivial

theorem planForDecision_each {verb : String} {allowed : List RemediationPlanStatus}
    (hread : ∀ t, G t t) :
    (planForDecision orgId planId allowed verb).Holds R G (fun _ _ => True) w := by
  unfold planForDecision findByIdInOrg
  rw [holds_read_bind]
  intro t _
  refine ⟨hread t, ?_⟩
  cases t.findByIdInOrg orgId planId with
  | none => trivial
  | some plan =>
    dsimp only
    split
    · trivial
    · trivial

theorem approve_each {userId : String} {autoEdit : Bool} (hs : Statements P G)
    (h : P planId) :
    (approve o orgId planId autoEdit userId).Holds R G (fun _ _ => True) w :=
  Holds.bind_any (planForDecision_each hs.read) fun _ _ =>
    Holds.bind_any (updatePlan_each hs h (fun _ => rfl) (by decide)) fun _ _ =>
      Holds.bind_any (updatePlan_each hs h (fun _ => rfl) (by decide)) fun _ _ =>
        runNext_each hs h o.fuel

theorem reject_each {userId : String} (hs : Statements P G) (h : P planId) :
    (reject orgId planId userId).Holds R G (fun _ _ => True) w :=
  Holds.bind_any (planForDecision_each hs.read) fun _ _ =>
    updatePlan_each hs h (fun _ => rfl) (by decide)

theorem cancel_each {userId : String} (hs : Statements P G) (h : P planId) :
    (cancel orgId planId userId).Holds R G (fun _ _ => True) w :=
  Holds.bind_any (planForDecision_each hs.read) fun _ _ =>
    updatePlan_each hs h (fun _ => rfl) (by decide)

theorem retryStep_each {k : ℕ} (hs : Statements P G) (h : P planId) :
    (retryStep o orgId planId k).Holds R G (fun _ _ => True) w := by
  unfold retryStep findByIdInOrg
  rw [holds_read_bind]
  intro t _
  refine ⟨hs.read t, ?_⟩
  cases t.findByIdInOrg orgId planId with
  | none => trivial
  | some plan =>
    dsimp only
    cases plan.steps.find? (·.ordinal = k) with
    | none => trivial
    | some step =>
      dsimp only
      by_cases hst : step.status ≠ .failed
      · rw [if_pos hst]
        trivial
      rw [if_neg hst]
      refine Holds.bind_any (resetForRetry_each hs h) fun _ u => ?_
      rw [holds_read_bind]
      intro v _
      refine ⟨hs.read v, ?_⟩
      cases hfind : v.findByIdInOrg orgId planId with
      | none => trivial
      | some refreshed =>
        have hid : P refreshed.id := by
          rw [World.findById_id (World.findByIdInOrg_eq_some.mp hfind).1]
          exact h
        dsimp only
        cases refreshed.steps.find? (·.ordinal = k) with
        | none => trivial
        | some target =>
          exact Holds.bind_any (executeStep_each hs hid) fun _ _ =>
            runNext_each hs h o.fuel

end Given

/-! ## Whole operations -/

/-- Every statement of a session is a `G`-change, whatever plan it is about. -/
structure SessionStatements (G : World → World → Prop) : Prop
    extends Statements (fun _ => True) G where
  resolve : ∀ t id status resolvedBy roles, G t (t.resolveApproval id status resolvedBy roles)
  notify : ∀ t request, G t { t with notified := t.notified ++ [request] }
  expireStale : ∀ t now, G t (t.expireStale now)
  setClock : ∀ t now, G t { t with now := now }

section Operations

variable {R G : World → World → Prop} {w : World} {o : PlanExecutorOptions}

theorem findStepByApproval_each {orgId approvalId : String} (hread : ∀ t, G t t) :
    (findStepByApproval o orgId approvalId).Holds R G (fun _ _ => True) w := by
  unfold findStepByApproval Approvals.findById findByIdInOrg
  by_cases hwired : o.approvals = false
  · rw [if_pos hwired]
    trivial
  rw [if_neg hwired]
  dsimp only
  rw [holds_read_bind]
  intro t _
  refine ⟨hread t, ?_⟩
  cases t.approval approvalId with
  | none => trivial
  | some approval =>
    dsimp only
    split
    · rw [holds_read_bind]
      intro u _
      refine ⟨hread u, ?_⟩
      split
      · trivial
      · split
        · trivial
        · trivial
    · trivial

theorem onStepApproved_each {orgId approvalId : String} (hs : SessionStatements G) :
    (onStepApproved o orgId approvalId).Holds R G (fun _ _ => True) w := by
  refine Holds.bind_any (findStepByApproval_each hs.read) fun found t => ?_
  exact approvedStep_each hs.toStatements trivial

theorem onStepRejected_each {orgId approvalId : String} (hs : SessionStatements G) :
    (onStepRejected o orgId approvalId).Holds R G (fun _ _ => True) w := by
  refine Holds.bind_any (findStepByApproval_each hs.read) fun found t => ?_
  exact rejectedStep_each hs.toStatements trivial

theorem resumeExecutor_each {request : ApprovalRequest} (hs : SessionStatements G) :
    (resumeExecutor o request).Holds R G (fun _ _ => True) w := by
  unfold resumeExecutor findById
  cases request.context.planId with
  | none => trivial
  | some planId =>
    dsimp only
    rw [holds_read_bind]
    intro t _
    refine ⟨hs.read t, ?_⟩
    cases t.findById planId with
    | none => trivial
    | some plan =>
      refine Holds.swallow ?_
      cases request.status with
      | pending => trivial
      | expired => trivial
      | approved => exact Holds.discard (onStepApproved_each hs)
      | rejected => exact Holds.discard (onStepRejected_each hs)

theorem announce_each {p : Prog World (Option ApprovalRequest)} (hs : SessionStatements G)
    (hp : p.Holds R G (fun _ _ => True) w) :
    (announce p).Holds R G (fun _ _ => True) w := by
  refine Holds.bind_any hp fun result t => ?_
  cases result with
  | none => trivial
  | some request => exact fun u _ => ⟨hs.notify u request, trivial⟩

theorem resolution_each {verdict : Verdict} {id resolvedBy : String}
    {roles : Option (List String)} (hs : SessionStatements G) :
    (resolution verdict id resolvedBy roles).Holds R G (fun _ _ => True) w := by
  have hresolve : ∀ status t, (resolve id status resolvedBy roles).Holds R G
      (fun _ _ => True) t :=
    fun status t u _ => ⟨hs.resolve u id status resolvedBy roles, trivial⟩
  have hpending : ∀ status, (resolvePending status id resolvedBy roles).Holds R G
      (fun _ _ => True) w := by
    intro status
    unfold resolvePending Approvals.findById
    rw [holds_read_bind]
    intro t _
    refine ⟨hs.read t, ?_⟩
    cases t.approval id with
    | none => trivial
    | some existing =>
      dsimp only
      split
      · exact hresolve status t
      · trivial
  cases verdict with
  | approve => exact announce_each hs (hpending .approved)
  | reject => exact announce_each hs (hpending .rejected)
  | override => exact announce_each hs (hresolve .approved w)

/-- **Every operation of a session consists of these statements.** -/
theorem code_each {listening : Bool} (hs : SessionStatements G) (op : Op) :
    (code o listening op).Holds R G (fun _ _ => True) w := by
  cases op with
  | approve orgId planId autoEdit userId =>
    exact Holds.discard (approve_each hs.toStatements trivial)
  | reject orgId planId userId => exact Holds.discard (reject_each hs.toStatements trivial)
  | cancel orgId planId userId => exact Holds.discard (cancel_each hs.toStatements trivial)
  | onStepApproved orgId id => exact Holds.discard (onStepApproved_each hs)
  | onStepRejected orgId id => exact Holds.discard (onStepRejected_each hs)
  | retryStep orgId planId k => exact Holds.discard (retryStep_each hs.toStatements trivial)
  | resolve verdict id resolvedBy roles =>
    refine Holds.bind_any (resolution_each hs) fun result t => ?_
    cases result with
    | none => trivial
    | some request =>
      dsimp only
      split
      · unfold onResolved
        split
        · trivial
        split
        · trivial
        · exact resumeExecutor_each hs
      · trivial
  | expireStale now =>
    exact Holds.discard fun t _ => ⟨hs.expireStale t now, trivial⟩
  | setClock now => exact fun t _ => ⟨hs.setClock t now, trivial⟩

end Operations

/-! ## Programs given another plan -/

theorem Aside.statements {id : String} : Statements (fun planId => planId ≠ id) (Aside id) where
  read := Aside.refl id
  writePlan t orgId planId existing patch h _ :=
    .of_eq (World.findById_writePlan_ne (Ne.symm h)) rfl rfl
  writeStep t planId k patch h := .of_eq (World.findById_writeStep_ne (Ne.symm h)) rfl rfl
  recordCall t planId k params h := by
    refine ⟨rfl, ⟨[_], rfl, fun c hc => ?_⟩, ⟨[], by simp [World.recordCall], by simp⟩⟩
    rw [List.mem_singleton.mp hc]
    exact h
  submit t rt plan step team h := by
    refine ⟨rfl, ⟨[], by simp [World.insertApproval], by simp⟩, ⟨[_], rfl, ?_⟩⟩
    intro a ha
    rw [List.mem_singleton.mp ha]
    exact fun hid => h (Option.some.inj hid)

end OpenObs.Plans
