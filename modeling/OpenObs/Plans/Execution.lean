import OpenObs.Plans.History

/-!
# When a command runs

Commands of a plan run only while it is executing, provided nobody reports an
approval of one of its steps, or retries one, once it has ended. The proviso is
needed: a late approval runs the step of a cancelled plan.
-/

namespace OpenObs.Plans

open OpenObs.Foundation OpenObs.Approvals Prog

/-- The stored status of plan `id`. -/
def World.planStatus (w : World) (id : String) : Option RemediationPlanStatus :=
  (w.findById id).map (·.status)

/-- The request gates a step of plan `id`. -/
def gatesPlan (a : ApprovalRequest) (id : String) : Prop :=
  a.context.planId = some id ∧ a.context.stepOrdinal.isSome = true

theorem gatesPlan_of_gatesStep {id : String} {k : ℕ} {a : ApprovalRequest}
    (h : gatesStep id k a = true) : gatesPlan a id := by
  obtain ⟨hplan, hord⟩ := gatesStep_iff.mp h
  exact ⟨hplan, by rw [hord]; rfl⟩

/-- The operation reports an approval of a step of plan `id` to the executor. -/
def ReportsApproval (id : String) (op : Op) (w : World) : Prop :=
  match op with
  | .onStepApproved _ approvalId => ∃ a, w.approval approvalId = some a ∧ gatesPlan a id
  | .resolve verdict approvalId _ _ => verdict.status = .approved ∧
      ∃ a, w.approval approvalId = some a ∧ gatesPlan a id ∧
        (verdict ≠ .override → a.status = .pending)
  | _ => False

/-- The operation retries a failed step of plan `id`. -/
def RetriesStep (id : String) (op : Op) (w : World) : Prop :=
  ∃ orgId k p, op = .retryStep orgId id k ∧ w.findById id = some p ∧
    ∃ step ∈ p.steps, step.ordinal = k ∧ step.status = .failed

/-! ## Recorded calls -/

/-- Every recorded call of plan `id` satisfies `P`. -/
def EveryCall (id : String) (P : AdapterCall → Prop) (w : World) : Prop :=
  ∀ c ∈ w.calls, c.planId = id → P c

section EveryCall

variable {id : String} {P : AdapterCall → Prop} {w w' : World}

theorem EveryCall.of_calls (h : EveryCall id P w) (hcalls : w'.calls = w.calls) :
    EveryCall id P w' := by
  unfold EveryCall
  rw [hcalls]
  exact h

theorem EveryCall.aside (h : EveryCall id P w) (ha : Aside id w w') : EveryCall id P w' := by
  obtain ⟨cs, hcs, hout⟩ := ha.calls
  intro c hc hid
  rw [hcs, List.mem_append] at hc
  rcases hc with hc | hc
  · exact h c hc hid
  · exact absurd hid (hout c hc)

theorem EveryCall.executed {step : RemediationPlanStep} {p p' : RemediationPlan}
    (h : EveryCall id P w) (hex : Executed id step w w' p p')
    (hnew : ∀ c, CallOf id step.ordinal p.status w.approvals c → P c) :
    EveryCall id P w' := by
  obtain ⟨cs, hcs, -, hall⟩ := hex.calls
  intro c hc hid
  rw [hcs, List.mem_append] at hc
  rcases hc with hc | hc
  · exact h c hc hid
  · exact hnew c (hall c hc)

end EveryCall

/-! ## Only while executing -/

/-- Approvals are reported only while the plan has not ended, and steps are not
retried once it is completed or cancelled. -/
def InTime (id : String) (op : Op) (w : World) : Prop :=
  (ReportsApproval id op w → w.planStatus id ∉
    [some .failed, some .completed, some .cancelled]) ∧
  (RetriesStep id op w → w.planStatus id ∉ [some .completed, some .cancelled])

/-- Every recorded call of plan `id` found it executing. -/
def CallsExecuting (id : String) : World → Prop :=
  EveryCall id fun c => c.planStatus = some .executing

theorem CallsExecuting.executed {id : String} {step : RemediationPlanStep} {w w' : World}
    {p p' : RemediationPlan} (h : CallsExecuting id w) (hex : Executed id step w w' p p')
    (hst : p.status = .executing) : CallsExecuting id w' := by
  refine EveryCall.executed h hex fun c hc => ?_
  rw [hc.planStatus, hst]

theorem Drive.callsExecuting {id : String} {w w' : World} (h : Drive id w w') :
    ∀ {p}, w.findById id = some p → p.status ≠ .completed → p.status ∈ startedStatuses →
      CallsExecuting id w → CallsExecuting id w' := by
  induction h with
  | stop w => exact fun _ _ _ hc => hc
  | complete row _ _ _ => exact fun _ _ _ hc => hc
  | pause row _ _ _ _ _ requested => exact fun _ _ _ hc => hc.of_calls requested.calls
  | execute row notFailed notCancelled _ _ _ executed _ ih =>
    intro p hrow hne hst hc
    obtain rfl := Option.some.inj (hrow.symm.trans row)
    have hexec : p.status = .executing := by
      simp [startedStatuses] at hst
      tauto
    have hst' : ∀ q : RemediationPlan, q.status = p.status ∨ q.status = .failed →
        q.status ≠ .completed ∧ q.status ∈ startedStatuses := by
      rintro q (hq | hq) <;> rw [hq]
      · exact ⟨hne, hst⟩
      · exact ⟨by decide, by decide⟩
    obtain ⟨h₁, h₂⟩ := hst' _ executed.status
    exact ih executed.after h₁ h₂ (hc.executed executed hexec)

theorem StepApproved.callsExecuting {id : String} {step : RemediationPlanStep}
    {p : RemediationPlan} {w w' : World} (h : StepApproved id step p w w')
    (hc : CallsExecuting id w) (hst : p.status = .executing) : CallsExecuting id w' := by
  obtain ⟨w₁, p₁, hex, hdr⟩ := h
  have hst₁ : p₁.status ≠ .completed ∧ p₁.status ∈ startedStatuses := by
    rcases hex.status with h₁ | h₁ <;> rw [h₁]
    · rw [hst]
      exact ⟨by decide, by decide⟩
    · exact ⟨by decide, by decide⟩
  exact hdr.callsExecuting hex.after hst₁.1 hst₁.2 (hc.executed hex hst)

theorem StepRejected.calls {id : String} {step : RemediationPlanStep}
    {p : RemediationPlan} {w w' : World} (h : StepRejected id step p w w')
    (hauto : p.autoEdit = false) : w'.calls = w.calls := by
  obtain ⟨w₁, p₁, hex, hcalls, hdr⟩ := h
  rw [hdr.calls_of_manual hex.after (hex.autoEdit.trans hauto), hcalls]

theorem executing_of_started {status : RemediationPlanStatus} (h : status ∈ startedStatuses)
    (hne : some status ∉ [some .failed, some .completed, some .cancelled]) :
    status = .executing := by
  simp [startedStatuses] at h hne
  tauto

theorem OpEffect.callsExecuting {id : String} {op : Op} {w w' : World}
    (h : OpEffect id op w w') (hh : History id w) (hc : CallsExecuting id w)
    (hok : InTime id op w) : CallsExecuting id w' := by
  obtain ⟨hreport, hretry⟩ := hok
  cases h with
  | aside h => exact EveryCall.aside hc h
  | approved h =>
    obtain ⟨w₁, p, p₁, hl, hdr⟩ := h
    refine hdr.callsExecuting hl.after ?_ ?_ (EveryCall.of_calls hc hl.calls)
    · rw [hl.status]
      decide
    · rw [hl.status]
      decide
  | rejected h => exact EveryCall.of_calls hc h.calls
  | cancelled h => exact EveryCall.of_calls hc h.calls
  | expired h => exact EveryCall.of_calls hc h.calls
  | stepApproved gates hid h =>
    obtain ⟨hd, -⟩ := hh.decided_of_gates gates hid
    obtain ⟨a, ha, -, -⟩ := gates.request
    have hst := hreport ⟨a, ha, gatesPlan_of_gatesStep (hid ▸ gates.gatesStep ha)⟩
    rw [World.planStatus, hd.row] at hst
    exact h.callsExecuting hc (executing_of_started hd.status hst)
  | stepRejected gates hid h =>
    exact EveryCall.of_calls hc (h.calls (hh.decided_of_gates gates hid).2)
  | @retried orgId k _ _ h =>
    obtain ⟨w₁, w₂, p, p₁, p₂, target, hr, -, -, hex, hdr⟩ := h
    obtain ⟨step, hs, -, hfailed⟩ := hr.failed
    have hd := hh.decided_of_step hr.touched.before hs (by rw [hfailed]; decide)
    have hst := hretry ⟨orgId, k, p, rfl, hr.touched.before, hr.failed⟩
    rw [World.planStatus, hr.touched.before] at hst
    have hst₁ : p₁.status = .executing := by
      rw [hr.status]
      split
      · rfl
      · rename_i hnf
        refine executing_of_started hd.status ?_
        simp at hst ⊢
        tauto
    exact StepApproved.callsExecuting ⟨w₂, p₂, hex, hdr⟩
      (EveryCall.of_calls hc hr.calls) hst₁
  | resolvedAside _ _ stored h =>
    refine EveryCall.aside (EveryCall.of_calls hc ?_) h
    rw [stored]
    rfl
  | @resolvedApproved _ _ _ _ _ _ w₁ _ a p _ found pending stored status gates hid h =>
    have hh₁ : History id w₁ := stored ▸ hh.resolved
    obtain ⟨hd, -⟩ := hh₁.decided_of_gates gates hid
    -- storing the verdict left the plan as it was
    have hrow : w.findById id = some p := by
      rw [← hd.row, stored]
      rfl
    have hst := hreport ⟨status, a, found,
      gatesPlan_of_gatesStep (gates.gatesStep_resolved hid found stored), pending⟩
    rw [World.planStatus, hrow] at hst
    refine h.callsExecuting (EveryCall.of_calls hc ?_) (executing_of_started hd.status hst)
    rw [stored]
    rfl
  | resolvedRejected _ _ stored _ gates hid h =>
    have hh₁ := stored ▸ hh.resolved
    refine EveryCall.of_calls hc ((h.calls (hh₁.decided_of_gates gates hid).2).trans ?_)
    rw [stored]
    rfl

/-- **Commands run only while the plan is executing.** In every session in which
approvals are reported and steps retried in time, every call of an adapter for a
step of the plan was made while the stored status was `executing`. -/
theorem calls_only_while_executing (o : PlanExecutorOptions) (listening : Bool) (id : String)
    (w₀ : World) (hfresh : Fresh id w₀) (w : World)
    (hrun : Serial (code o listening) (InTime id) w₀ w) :
    ∀ c ∈ w.calls, c.planId = id → c.planStatus = some .executing := by
  have hinv : History id w ∧ CallsExecuting id w := by
    refine session_invariant id (I := fun w => History id w ∧ CallsExecuting id w)
      ⟨hfresh.history, fun c hc hid => absurd hid (hfresh.uncalled c hc)⟩ ?_ hrun
    rintro op t t' ⟨hh, hc⟩ hok heffect
    exact ⟨heffect.history hh, heffect.callsExecuting hh hc hok⟩
  exact hinv.2

/-- A process whose adapter runs every command but `delete`. -/
def sampleOptions : PlanExecutorOptions where
  runtime := { randomUUID := fun w => s!"req-{w.approvals.length}", later := fun now _ => now }
  approvals := true
  adapterFor := fun _ _ _ => .ok
    { execute := fun _ params => .ok
        { success := params.argv.head? ≠ some "delete", outputText := none, error := none } }
  resolveRequesterTeamId := none
  fuel := 8

def sampleWorld (plan : RemediationPlan) : World :=
  { plans := [plan], approvals := [], calls := [], notified := [], now := "" }

theorem fresh_sampleWorld (plan : RemediationPlan) (hst : plan.status = .pendingApproval)
    (hsteps : ∀ s ∈ plan.steps, s.status = .pending) : Fresh plan.id (sampleWorld plan) where
  row := ⟨plan, by simp [World.findById, sampleWorld], hst, hsteps⟩
  ungated := by simp [Gated, sampleWorld]
  uncalled := by simp [sampleWorld]

def scalePlan : RemediationPlan := oneStepPlan ["scale", "deploy/web", "-n", "prod"]

theorem fresh_scalePlan : Fresh "plan-1" (sampleWorld scalePlan) := by
  exact fresh_sampleWorld scalePlan rfl (by decide)

/-- Approving the plan and then its request runs the one command, in time. -/
theorem calls_only_while_executing_scale :
    let w := serveAll (code sampleOptions true)
      [.approve "org_main" "plan-1" false "ann", .resolve .approve "req-0" "bob" none]
      (sampleWorld scalePlan)
    w.calls.length = 1 ∧ ∀ c ∈ w.calls, c.planId = "plan-1" →
      c.planStatus = some .executing := by
  refine ⟨by decide +kernel, calls_only_while_executing sampleOptions true "plan-1" _
    fresh_scalePlan _ (.serve _ (.serve _ .init ?_) ?_)⟩
  · exact ⟨fun h => h.elim, by rintro ⟨_, _, _, h, -⟩; cases h⟩
  · exact ⟨fun _ => by decide +kernel, by rintro ⟨_, _, _, h, -⟩; cases h⟩

/-- **A late approval runs the command of a cancelled plan.** The plan pauses for
its step, is cancelled, and the request is approved after that. -/
theorem late_approval_runs_cancelled :
    ¬ ∀ (o : PlanExecutorOptions) (listening : Bool) (id : String) (w₀ : World),
      Fresh id w₀ → ∀ w, Serial (code o listening) (fun _ _ => True) w₀ w →
        ∀ c ∈ w.calls, c.planId = id → c.planStatus = some .executing := by
  intro h
  have hrun : Serial (code sampleOptions true) (fun _ _ => True) (sampleWorld scalePlan) _ :=
    Serial.serveAll (fun _ _ => trivial)
      [.approve "org_main" "plan-1" false "ann", .cancel "org_main" "plan-1" "ann",
        .resolve .approve "req-0" "bob" none] .init
  have hcalls := h sampleOptions true "plan-1" _ fresh_scalePlan _ hrun
  revert hcalls
  decide +kernel

end OpenObs.Plans
