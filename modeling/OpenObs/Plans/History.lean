import OpenObs.Plans.Session

/-!
# The history of a plan

Every plan starts as `create` stores it: pending approval, all its steps pending, no request gating
a step (`Fresh`).
-/

namespace OpenObs.Plans

open OpenObs.Foundation OpenObs.Approvals Prog

/-- Some request gates a step of plan `id`. -/
def Gated (id : String) (approvals : List ApprovalRequest) : Prop :=
  ∃ a ∈ approvals, a.context.planId = some id ∧ a.context.stepOrdinal.isSome = true

def startedStatuses : List RemediationPlanStatus := [.executing, .completed, .failed, .cancelled]

structure Fresh (id : String) (w : World) : Prop where
  row : ∃ p, w.findById id = some p ∧ p.status = .pendingApproval ∧
    ∀ s ∈ p.steps, s.status = .pending
  ungated : ¬ Gated id w.approvals
  uncalled : ∀ c ∈ w.calls, c.planId ≠ id

structure Decided (id : String) (w : World) (p : RemediationPlan) : Prop where
  row : w.findById id = some p
  status : p.status ∈ startedStatuses
  manual : Gated id w.approvals → p.autoEdit = false

structure Untouched (id : String) (w : World) (p : RemediationPlan) : Prop where
  row : w.findById id = some p
  status : p.status ∉ startedStatuses
  steps : ∀ s ∈ p.steps, s.status = .pending
  ungated : ¬ Gated id w.approvals

def History (id : String) (w : World) : Prop :=
  ∃ p, Decided id w p ∨ Untouched id w p

theorem Fresh.history {id : String} {w : World} (h : Fresh id w) : History id w := by
  obtain ⟨p, hrow, hst, hsteps⟩ := h.row
  exact ⟨p, Or.inr ⟨hrow, by rw [hst]; decide, hsteps, h.ungated⟩⟩

/-! ## Requests -/

theorem gated_resolved {id : String} {verdict : Verdict} {approvalId resolvedBy : String}
    {roles : Option (List String)} {w : World} {request : ApprovalRequest} :
    Gated id (resolvedWorld verdict approvalId resolvedBy roles w request).approvals ↔
      Gated id w.approvals := by
  have hctx : ∀ a : ApprovalRequest, (if a.id = approvalId then
      a.resolve verdict.status resolvedBy w.now roles else a).context = a.context := by
    intro a
    split <;> rfl
  constructor
  · rintro ⟨a, ha, hid, hord⟩
    obtain ⟨b, hb, rfl⟩ := List.mem_map.mp ha
    rw [hctx] at hid hord
    exact ⟨b, hb, hid, hord⟩
  · rintro ⟨a, ha, hid, hord⟩
    exact ⟨_, List.mem_map_of_mem ha, by rw [hctx]; exact hid, by rw [hctx]; exact hord⟩

theorem gated_aside {id : String} {w w' : World} (h : Aside id w w') :
    Gated id w'.approvals ↔ Gated id w.approvals := by
  obtain ⟨as, has, hout⟩ := h.approvals
  constructor
  · rintro ⟨a, ha, hid, hord⟩
    rw [has, List.mem_append] at ha
    rcases ha with ha | ha
    · exact ⟨a, ha, hid, hord⟩
    · exact absurd hid (hout a ha)
  · rintro ⟨a, ha, hid, hord⟩
    exact ⟨a, has ▸ List.mem_append_left _ ha, hid, hord⟩

theorem Gates.gated {w : World} {orgId approvalId : String} {p : RemediationPlan}
    {step : RemediationPlanStep} (h : Gates w orgId approvalId p step) :
    Gated p.id w.approvals := by
  obtain ⟨a, ha, hid, hord⟩ := h.request
  exact ⟨a, List.mem_of_find?_eq_some ha, hid, by rw [hord]; rfl⟩

/-! ## Decided plans stay decided -/

theorem Executed.approvals {id : String} {step : RemediationPlanStep} {w w' : World}
    {p p' : RemediationPlan} (h : Executed id step w w' p p') :
    w'.approvals = w.approvals := by
  obtain ⟨_, -, -, ht⟩ := h.outcome
  exact ht.approvals

theorem Executed.before {id : String} {step : RemediationPlanStep} {w w' : World}
    {p p' : RemediationPlan} (h : Executed id step w w' p p') :
    w.findById id = some p := by
  obtain ⟨_, -, -, ht⟩ := h.outcome
  exact ht.before

theorem Executed.autoEdit {id : String} {step : RemediationPlanStep} {w w' : World}
    {p p' : RemediationPlan} (h : Executed id step w w' p p') :
    p'.autoEdit = p.autoEdit := by
  obtain ⟨_, hrows⟩ := h.rows
  exact hrows.autoEdit

theorem Executed.decided {id : String} {step : RemediationPlanStep} {w w' : World}
    {p p' : RemediationPlan} (h : Executed id step w w' p p') (hd : Decided id w p) :
    Decided id w' p' := by
  refine ⟨h.after, ?_, ?_⟩
  · rcases h.status with hst | hst
    · rw [hst]
      exact hd.status
    · rw [hst]
      decide
  · rw [h.approvals, h.autoEdit]
    exact hd.manual

theorem Drive.decided {id : String} {w w' : World} (h : Drive id w w') :
    ∀ {p}, Decided id w p → ∃ p', Decided id w' p' ∧ p'.autoEdit = p.autoEdit := by
  induction h with
  | stop w => exact fun hd => ⟨_, hd, rfl⟩
  | complete row _ _ _ =>
    intro p hd
    cases row.symm.trans hd.row
    refine ⟨_, ⟨World.findById_writePlan row rfl, ?_, hd.manual⟩, rfl⟩
    simp [RemediationPlan.write, startedStatuses]
  | pause row _ _ manual _ _ requested =>
    intro p hd
    cases row.symm.trans hd.row
    obtain ⟨p', hrow', hst', hrw⟩ := requested.row
    refine ⟨p', ⟨hrow', ?_, fun _ => ?_⟩, hrw.autoEdit⟩
    · rw [hst']
      exact hd.status
    · rw [hrw.autoEdit]
      exact manual
  | execute row _ _ _ _ _ executed _ ih =>
    intro p hd
    cases row.symm.trans hd.row
    obtain ⟨p', hd', hauto⟩ := ih (executed.decided hd)
    exact ⟨p', hd', hauto.trans executed.autoEdit⟩

theorem Drive.calls_of_manual {id : String} {w w' : World} (h : Drive id w w') :
    ∀ {p}, w.findById id = some p → p.autoEdit = false → w'.calls = w.calls := by
  cases h with
  | stop w => exact fun _ _ => rfl
  | complete row _ _ _ => exact fun _ _ => rfl
  | pause row _ _ _ _ _ requested => exact fun _ _ => requested.calls
  | execute row _ _ auto _ _ _ _ =>
    intro p hrow hmanual
    cases row.symm.trans hrow
    rw [auto] at hmanual
    cases hmanual

theorem Launched.decided {id : String} {autoEdit : Bool} {w w' : World}
    {p p' : RemediationPlan} (h : Launched id autoEdit w w' p p')
    (hungated : ¬ Gated id w.approvals) : Decided id w' p' := by
  refine ⟨h.after, by rw [h.status]; decide, fun hg => ?_⟩
  rw [h.approvals] at hg
  exact absurd hg hungated

theorem Reset.decided {id : String} {k : ℕ} {w w' : World} {p p' : RemediationPlan}
    (h : Reset id k w w' p p') (hd : Decided id w p) : Decided id w' p' := by
  refine ⟨h.touched.after, ?_, ?_⟩
  · rw [h.status]
    split
    · decide
    · exact hd.status
  · rw [h.touched.approvals, h.touched.rows.autoEdit]
    exact hd.manual

theorem History.decided_of_gated {id : String} {w : World} {p : RemediationPlan}
    (h : History id w) (hrow : w.findById id = some p) (hg : Gated id w.approvals) :
    Decided id w p := by
  obtain ⟨q, hd | hu⟩ := h
  · cases hrow.symm.trans hd.row
    exact hd
  · exact absurd hg hu.ungated

theorem History.decided_of_gates {id : String} {w : World} {orgId approvalId : String}
    {p : RemediationPlan} {step : RemediationPlanStep} (h : History id w)
    (gates : Gates w orgId approvalId p step) (hid : p.id = id) :
    Decided id w p ∧ p.autoEdit = false := by
  have hrow : w.findById id = some p := hid ▸ gates.row
  have hg : Gated id w.approvals := hid ▸ gates.gated
  have hd := h.decided_of_gated hrow hg
  exact ⟨hd, hd.manual hg⟩

theorem History.decided_of_step {id : String} {w : World} {p : RemediationPlan}
    {s : RemediationPlanStep} (h : History id w) (hrow : w.findById id = some p)
    (hs : s ∈ p.steps) (hst : s.status ≠ .pending) : Decided id w p := by
  obtain ⟨q, hd | hu⟩ := h
  · cases hrow.symm.trans hd.row
    exact hd
  · cases hrow.symm.trans hu.row
    exact absurd (hu.steps s hs) hst

theorem History.untouched_of_pending {id : String} {w : World} {p : RemediationPlan}
    (h : History id w) (hrow : w.findById id = some p) (hst : p.status = .pendingApproval) :
    Untouched id w p := by
  obtain ⟨q, hd | hu⟩ := h
  · cases hrow.symm.trans hd.row
    have := hd.status
    rw [hst] at this
    exact absurd this (by decide)
  · cases hrow.symm.trans hu.row
    exact hu

theorem History.aside {id : String} {w w' : World} (h : History id w)
    (ha : Aside id w w') : History id w' := by
  obtain ⟨p, hd | hu⟩ := h
  · exact ⟨p, Or.inl ⟨ha.row.trans hd.row, hd.status, fun hg =>
      hd.manual ((gated_aside ha).mp hg)⟩⟩
  · exact ⟨p, Or.inr ⟨ha.row.trans hu.row, hu.status, hu.steps, fun hg =>
      hu.ungated ((gated_aside ha).mp hg)⟩⟩

theorem History.resolved {id : String} {verdict : Verdict} {approvalId resolvedBy : String}
    {roles : Option (List String)} {w : World} {request : ApprovalRequest}
    (h : History id w) :
    History id (resolvedWorld verdict approvalId resolvedBy roles w request) := by
  obtain ⟨p, hd | hu⟩ := h
  · exact ⟨p, Or.inl ⟨hd.row, hd.status, fun hg => hd.manual (gated_resolved.mp hg)⟩⟩
  · exact ⟨p, Or.inr ⟨hu.row, hu.status, hu.steps, fun hg =>
      hu.ungated (gated_resolved.mp hg)⟩⟩

theorem Untouched.moved {id : String} {w w' : World} {p p' : RemediationPlan}
    (h : Untouched id w p) (ht : Touched id w w' p p' fun _ st => st)
    (hst : p'.status ∉ startedStatuses) : History id w' := by
  refine ⟨p', Or.inr ⟨ht.after, hst, fun s' hs' => ?_, ht.approvals ▸ h.ungated⟩⟩
  obtain ⟨s, hs, -, -, hstatus⟩ := ht.rows.of_mem hs'
  rw [hstatus]
  exact h.steps s hs

/-- **Every operation keeps the history.** -/
theorem OpEffect.history {id : String} {op : Op} {w w' : World} (h : OpEffect id op w w')
    (hh : History id w) : History id w' := by
  -- every method that drives on has reached the decided phase by then
  have hdrive : ∀ {w₁ w₂ : World} {q : RemediationPlan}, Decided id w₁ q → Drive id w₁ w₂ →
      History id w₂ := by
    intro w₁ w₂ q hd hdr
    obtain ⟨p', hd', -⟩ := hdr.decided hd
    exact ⟨p', Or.inl hd'⟩
  cases h with
  | aside h => exact hh.aside h
  | approved h =>
    obtain ⟨w₁, p, p₁, hl, hdr⟩ := h
    have hu := hh.untouched_of_pending hl.before hl.pending
    exact hdrive (hl.decided hu.ungated) hdr
  | @rejected _ _ _ _ p p' h =>
    have hst : p.status = .pendingApproval := by simpa using h.allowed
    refine (hh.untouched_of_pending h.touched.before hst).moved h.touched ?_
    rw [h.status]
    decide
  | @cancelled _ _ _ _ p p' h =>
    obtain ⟨q, hd | hu⟩ := hh
    · cases h.touched.before.symm.trans hd.row
      refine ⟨p', Or.inl ⟨h.touched.after, by rw [h.status]; decide, ?_⟩⟩
      rw [h.touched.approvals, h.touched.rows.autoEdit]
      exact hd.manual
    · cases h.touched.before.symm.trans hu.row
      refine ⟨p', Or.inl ⟨h.touched.after, by rw [h.status]; decide, fun hg => ?_⟩⟩
      rw [h.touched.approvals] at hg
      exact absurd hg hu.ungated
  | stepApproved gates hid h =>
    obtain ⟨w₁, p₁, hex, hdr⟩ := h
    exact hdrive (hex.decided (hh.decided_of_gated hex.before (hid ▸ gates.gated))) hdr
  | stepRejected gates hid h =>
    obtain ⟨w₁, p₁, hex, -, hdr⟩ := h
    exact hdrive (hex.decided (hh.decided_of_gated hex.before (hid ▸ gates.gated))) hdr
  | retried h =>
    obtain ⟨w₁, w₂, p, p₁, p₂, target, hr, -, -, hex, hdr⟩ := h
    obtain ⟨step, hs, -, hst⟩ := hr.failed
    have hd := hh.decided_of_step hr.touched.before hs (by rw [hst]; decide)
    exact hdrive (hex.decided (hr.decided hd)) hdr
  | expired h =>
    refine (hh.untouched_of_pending h.touched.before h.pending).moved h.touched ?_
    rw [h.status]
    decide
  | resolvedAside _ _ stored h => exact (stored ▸ hh.resolved).aside h
  | resolvedApproved _ _ stored _ gates hid h =>
    obtain ⟨w₁, p₁, hex, hdr⟩ := h
    have hh₁ := stored ▸ hh.resolved
    exact hdrive (hex.decided (hh₁.decided_of_gated hex.before (hid ▸ gates.gated))) hdr
  | resolvedRejected _ _ stored _ gates hid h =>
    obtain ⟨w₁, p₁, hex, -, hdr⟩ := h
    have hh₁ := stored ▸ hh.resolved
    exact hdrive (hex.decided (hh₁.decided_of_gated hex.before (hid ▸ gates.gated))) hdr

end OpenObs.Plans
