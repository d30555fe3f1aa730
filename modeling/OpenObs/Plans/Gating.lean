import OpenObs.Plans.Execution

/-!
# Which approval a command runs under

A plan approved without auto-edit runs a command only under an approved request, the newest one of
its step, provided two things are left to the caller: only the newest request of a step is reported
as approved, and only a step whose newest request was approved is retried.
-/

namespace OpenObs.Plans

open OpenObs.Foundation OpenObs.Approvals Prog

/-- The most recently created request for step `k` of plan `id`. -/
def newestRequest (id : String) (k : ℕ) (approvals : List ApprovalRequest) :
    Option ApprovalRequest :=
  (approvals.filter (gatesStep id k)).getLast?

abbrev NewestApproved (id : String) (k : ℕ) (approvals : List ApprovalRequest) : Prop :=
  (newestRequest id k approvals).map (·.status) = some .approved

theorem newestApproved_of {id : String} {k : ℕ} {approvals : List ApprovalRequest}
    {a : ApprovalRequest} (hnew : newestRequest id k approvals = some a)
    (hst : a.status = .approved) : NewestApproved id k approvals := by
  rw [NewestApproved, hnew, Option.map_some, hst]

/-- Plan `id` is only ever approved without auto-edit. -/
def ManualOnly (id : String) (op : Op) : Prop :=
  ∀ orgId autoEdit userId, op = .approve orgId id autoEdit userId → autoEdit = false

/-- An approval of a step of plan `id` is reported for the newest request of that
step, which is approved by then; a failed step is retried only while the newest
request for it is approved. -/
def RespectsNewest (id : String) (op : Op) (w : World) : Prop :=
  match op with
  | .onStepApproved _ approvalId => ∀ a k, w.approval approvalId = some a →
      gatesStep id k a = true → newestRequest id k w.approvals = some a ∧ a.status = .approved
  | .resolve verdict approvalId _ _ => verdict.status = .approved →
      ∀ a k, w.approval approvalId = some a → gatesStep id k a = true →
        (verdict ≠ .override → a.status = .pending) →
        newestRequest id k w.approvals = some a
  | .retryStep _ planId k => planId = id → RetriesStep id op w →
      NewestApproved id k w.approvals
  | _ => True

/-! ## The newest request -/

theorem newestRequest_resolved {id : String} {k : ℕ} {verdict : Verdict}
    {approvalId resolvedBy : String} {roles : Option (List String)} {w : World}
    {a request : ApprovalRequest} (hnew : newestRequest id k w.approvals = some a)
    (hid : a.id = approvalId) :
    newestRequest id k (resolvedWorld verdict approvalId resolvedBy roles w request).approvals =
      some (a.resolve verdict.status resolvedBy w.now roles) := by
  have hgates : (gatesStep id k ∘ fun b : ApprovalRequest => if b.id = approvalId then
      b.resolve verdict.status resolvedBy w.now roles else b) = gatesStep id k := by
    funext b
    rw [Function.comp_apply]
    split <;> rfl
  unfold newestRequest at hnew
  show ((w.approvals.map _).filter (gatesStep id k)).getLast? = _
  rw [List.filter_map, hgates, List.getLast?_map, hnew, Option.map_some, if_pos hid]

theorem newestRequest_of_only {id : String} {k : ℕ} {approvals : List ApprovalRequest}
    {a : ApprovalRequest} (hone : approvals.length = 1) (ha : a ∈ approvals)
    (hgates : gatesStep id k a = true) : newestRequest id k approvals = some a := by
  obtain ⟨b, rfl⟩ := List.length_eq_one_iff.mp hone
  rw [List.mem_singleton] at ha
  simp [newestRequest, ← ha, hgates]

/-! ## Plans without auto-edit -/

/-- Once decided on, plan `id` is driven without auto-edit. -/
def Manual (id : String) (w : World) : Prop :=
  ∀ p, w.findById id = some p →
    p.status ∉ [.draft, .pendingApproval, .rejected, .expired] → p.autoEdit = false

theorem manual_of_row {id : String} {w : World} {p : RemediationPlan}
    (hrow : w.findById id = some p) (hauto : p.autoEdit = false) : Manual id w := by
  intro q hq _
  cases hrow.symm.trans hq
  exact hauto

theorem manual_of_status {id : String} {w : World} {p : RemediationPlan}
    (hrow : w.findById id = some p)
    (hst : p.status ∈ [.draft, .pendingApproval, .rejected, .expired]) : Manual id w := by
  intro q hq hnot
  cases hrow.symm.trans hq
  exact absurd hst hnot

theorem Manual.of_eq {id : String} {w w' : World} (h : Manual id w)
    (hrow : w'.findById id = w.findById id) : Manual id w' := fun p hp => h p (hrow ▸ hp)

theorem Manual.of_decided {id : String} {w : World} {p : RemediationPlan} (h : Manual id w)
    (hd : Decided id w p) : p.autoEdit = false := by
  refine h p hd.row fun hst => ?_
  have := hd.status
  simp [startedStatuses] at this hst
  rcases hst with hst | hst | hst | hst <;> simp [hst] at this

theorem Drive.manual {id : String} {w w' : World} {p : RemediationPlan} (h : Drive id w w')
    (hrow : w.findById id = some p) (hauto : p.autoEdit = false) : Manual id w' := by
  cases h with
  | stop w => exact manual_of_row hrow hauto
  | complete row _ _ _ =>
    cases row.symm.trans hrow
    exact manual_of_row (World.findById_writePlan row rfl) hauto
  | pause row _ _ _ _ _ requested =>
    cases row.symm.trans hrow
    obtain ⟨p', hrow', -, hrw⟩ := requested.row
    exact manual_of_row hrow' (hrw.autoEdit.trans hauto)
  | execute row _ _ auto _ _ _ _ =>
    cases row.symm.trans hrow
    rw [auto] at hauto
    cases hauto

/-! ## Calls under an approval -/

/-- Every recorded call of plan `id` found the newest request of its step approved. -/
def CallsApproved (id : String) : World → Prop :=
  EveryCall id fun c => NewestApproved id c.ordinal c.approvals

theorem CallsApproved.executed {id : String} {step : RemediationPlanStep} {w w' : World}
    {p p' : RemediationPlan} (h : CallsApproved id w) (hex : Executed id step w w' p p')
    (hnew : NewestApproved id step.ordinal w.approvals) : CallsApproved id w' := by
  refine EveryCall.executed h hex fun c hc => ?_
  rw [hc.ordinal, hc.approvals]
  exact hnew

/-- What a session keeps about the calls of plan `id`. -/
structure Gating (id : String) (w : World) : Prop where
  history : History id w
  manual : Manual id w
  calls : CallsApproved id w

theorem StepApproved.gating {id : String} {step : RemediationPlanStep} {p : RemediationPlan}
    {w w' : World} (h : StepApproved id step p w w') (hauto : p.autoEdit = false)
    (hc : CallsApproved id w) (hnew : NewestApproved id step.ordinal w.approvals) :
    Manual id w' ∧ CallsApproved id w' := by
  obtain ⟨w₁, p₁, hex, hdr⟩ := h
  have hauto₁ : p₁.autoEdit = false := hex.autoEdit.trans hauto
  exact ⟨hdr.manual hex.after hauto₁,
    EveryCall.of_calls (hc.executed hex hnew) (hdr.calls_of_manual hex.after hauto₁)⟩

theorem StepRejected.gating {id : String} {step : RemediationPlanStep} {p : RemediationPlan}
    {w w' : World} (h : StepRejected id step p w w') (hauto : p.autoEdit = false)
    (hc : CallsApproved id w) : Manual id w' ∧ CallsApproved id w' := by
  refine ⟨?_, EveryCall.of_calls hc (h.calls hauto)⟩
  obtain ⟨w₁, p₁, hex, -, hdr⟩ := h
  exact hdr.manual hex.after (hex.autoEdit.trans hauto)

/-- **Every operation that respects the newest request keeps the calls gated.** -/
theorem OpEffect.gating {id : String} {op : Op} {w w' : World} (h : OpEffect id op w w')
    (hI : Gating id w) (hmanual : ManualOnly id op) (hok : RespectsNewest id op w) :
    Gating id w' := by
  obtain ⟨hh, hm, hc⟩ := hI
  have hh' : History id w' := h.history hh
  suffices hrest : Manual id w' ∧ CallsApproved id w' from ⟨hh', hrest.1, hrest.2⟩
  cases h with
  | aside h => exact ⟨hm.of_eq h.row, EveryCall.aside hc h⟩
  | approved h =>
    obtain ⟨w₁, p, p₁, hl, hdr⟩ := h
    -- without auto-edit the drive loop only asks, it calls nothing
    have hauto : p₁.autoEdit = false := hl.autoEdit.trans (hmanual _ _ _ rfl)
    refine ⟨hdr.manual hl.after hauto, EveryCall.of_calls hc ?_⟩
    rw [hdr.calls_of_manual hl.after hauto, hl.calls]
  | rejected h =>
    refine ⟨manual_of_status h.touched.after ?_, EveryCall.of_calls hc h.calls⟩
    rw [h.status]
    decide
  | cancelled h =>
    refine ⟨manual_of_row h.touched.after ?_, EveryCall.of_calls hc h.calls⟩
    rw [h.touched.rows.autoEdit]
    refine hm _ h.touched.before fun hst => ?_
    have := h.allowed
    simp at this hst
    rcases this with this | this <;> simp [this] at hst
  | expired h =>
    refine ⟨manual_of_status h.touched.after ?_, EveryCall.of_calls hc h.calls⟩
    rw [h.status]
    decide
  | @stepApproved _ _ _ _ p step gates hid h =>
    obtain ⟨a, ha, -, -⟩ := gates.request
    obtain ⟨hnew, hst⟩ := hok a step.ordinal ha (hid ▸ gates.gatesStep ha)
    exact h.gating (hh.decided_of_gates gates hid).2 hc (newestApproved_of hnew hst)
  | stepRejected gates hid h => exact h.gating (hh.decided_of_gates gates hid).2 hc
  | @retried orgId k _ _ h =>
    obtain ⟨w₁, w₂, p, p₁, p₂, target, hr, -, hk, hex, hdr⟩ := h
    obtain ⟨step, hs, -, hfailed⟩ := hr.failed
    have hd := hh.decided_of_step hr.touched.before hs (by rw [hfailed]; decide)
    have hauto : p₁.autoEdit = false :=
      hr.touched.rows.autoEdit.trans (hm.of_decided hd)
    -- a retry asks nobody: the step runs under the request it had
    have hnew : NewestApproved id target.ordinal w₁.approvals := by
      rw [hk, hr.touched.approvals]
      exact hok rfl ⟨orgId, k, p, rfl, hr.touched.before, hr.failed⟩
    exact StepApproved.gating ⟨w₂, p₂, hex, hdr⟩ hauto (EveryCall.of_calls hc hr.calls) hnew
  | resolvedAside _ _ stored h =>
    refine ⟨hm.of_eq (h.row.trans ?_), EveryCall.aside (EveryCall.of_calls hc ?_) h⟩
    · rw [stored]
      rfl
    · rw [stored]
      rfl
  | @resolvedApproved verdict _ approvalId resolvedBy roles _ w₁ _ a p step found pending
      stored status gates hid h =>
      have hh₁ : History id w₁ := stored ▸ hh.resolved
      have hgates := gates.gatesStep_resolved hid found stored
      have hnew := hok status a step.ordinal found hgates pending
      have hnew₁ : newestRequest id step.ordinal w₁.approvals =
          some (a.resolve verdict.status resolvedBy w.now roles) := by
        rw [stored]
        exact newestRequest_resolved hnew (World.approval_id found)
      refine h.gating (hh₁.decided_of_gates gates hid).2 (EveryCall.of_calls hc ?_)
        (newestApproved_of hnew₁ status)
      rw [stored]
      rfl
  | resolvedRejected _ _ stored _ gates hid h =>
    have hh₁ := stored ▸ hh.resolved
    refine h.gating (hh₁.decided_of_gates gates hid).2 (EveryCall.of_calls hc ?_)
    rw [stored]
    rfl

theorem Fresh.gating {id : String} {w : World} (h : Fresh id w) : Gating id w := by
  refine ⟨h.history, ?_, fun c hc hid => absurd hid (h.uncalled c hc)⟩
  obtain ⟨p, hrow, hst, -⟩ := h.row
  refine manual_of_status hrow ?_
  rw [hst]
  decide

/-- **Every command runs under the newest approval.** In every session on a plan
approved without auto-edit whose reports and retries respect the newest request,
each call of an adapter for a step of the plan was made while the most recently
created request for that step existed and was approved. -/
theorem calls_under_newest_approval (o : PlanExecutorOptions) (listening : Bool) (id : String)
    (w₀ : World) (hfresh : Fresh id w₀) (w : World)
    (hrun : Serial (code o listening) (fun op t => ManualOnly id op ∧ RespectsNewest id op t)
      w₀ w) :
    ∀ c ∈ w.calls, c.planId = id → NewestApproved id c.ordinal c.approvals := by
  have hinv : Gating id w := by
    refine session_invariant id hfresh.gating ?_ hrun
    rintro op t t' hI ⟨hmanual, hok⟩ heffect
    exact heffect.gating hI hmanual hok
  exact hinv.calls

/-- The approved step runs, its retry not being one of the operations. -/
theorem calls_under_newest_approval_scale :
    let w := serveAll (code sampleOptions true)
      [.approve "org_main" "plan-1" false "ann", .resolve .approve "req-0" "bob" none]
      (sampleWorld scalePlan)
    w.calls.length = 1 ∧ ∀ c ∈ w.calls, c.planId = "plan-1" →
      NewestApproved "plan-1" c.ordinal c.approvals := by
  refine ⟨by decide +kernel, calls_under_newest_approval sampleOptions true "plan-1" _
    fresh_scalePlan _ (.serve _ (.serve _ .init ⟨?_, trivial⟩) ⟨?_, ?_⟩)⟩
  · rintro _ _ _ ⟨⟩
    rfl
  · rintro _ _ _ ⟨⟩
  · intro _ a k ha hgates _
    exact newestRequest_of_only (by decide +kernel) (List.mem_of_find?_eq_some ha) hgates

/-- **A retry runs a step its approver rejected.** The rejection leaves the step
`failed` like a failed command, and the newest request for it rejected. -/
theorem retry_runs_rejected_step :
    ¬ ∀ (o : PlanExecutorOptions) (listening : Bool) (id : String) (w₀ : World),
      Fresh id w₀ → ∀ w, Serial (code o listening) (fun op _ => ManualOnly id op) w₀ w →
        ∀ c ∈ w.calls, c.planId = id → NewestApproved id c.ordinal c.approvals := by
  intro h
  have hcalls := h sampleOptions true "plan-1" _ fresh_scalePlan _
    (.serve (.retryStep "org_main" "plan-1" 0)
      (.serve (.resolve .reject "req-0" "bob" none)
        (.serve (.approve "org_main" "plan-1" false "ann") .init
          (by rintro _ _ _ ⟨⟩; rfl)) (by rintro _ _ _ ⟨⟩)) (by rintro _ _ _ ⟨⟩))
  revert hcalls
  decide +kernel

end OpenObs.Plans
