import OpenObs.Plans.Frame
import OpenObs.Plans.Solo

/-!
# The operations run alone

One relation for each public method, saying all that a run of it alone may leave behind, and the
theorem that it does.
-/

namespace OpenObs.Plans

open OpenObs.Foundation OpenObs.Approvals Prog

/-- If `t` shows plan `id` completed, then `Done` or `t` is a final state. -/
def Watch (id : String) (Done : Prop) (Final : World → Prop) (t : World) : Prop :=
  ∀ q, t.findById id = some q → q.status = .completed → Done ∨ Final t

theorem Watch.final {id : String} {Done : Prop} {Final Final' : World → Prop} {t : World}
    (h : Watch id Done Final t) (hf : ∀ t, Final t → Final' t) : Watch id Done Final' t :=
  fun q hq hc => (h q hq hc).imp (fun hd => hd) (hf t)

/-! ## Driving forward -/

/-- What `runNext` alone may do to plan `id`. -/
inductive Drive (id : String) : World → World → Prop
  | stop (w : World) : Drive id w w
  | complete {w : World} {p : RemediationPlan} (row : w.findById id = some p)
      (notFailed : p.status ≠ .failed) (notCancelled : p.status ≠ .cancelled)
      (settled : ∀ s ∈ p.steps, s.status ≠ .pending) :
      Drive id w (w.writePlan p.orgId id p { status := some .completed })
  | pause {w w' : World} {p : RemediationPlan} {next : RemediationPlanStep}
      (row : w.findById id = some p)
      (notFailed : p.status ≠ .failed) (notCancelled : p.status ≠ .cancelled)
      (manual : p.autoEdit = false) (mem : next ∈ p.steps)
      (pending : next.status = .pending) (requested : Requested id next w w' p) :
      Drive id w w'
  | execute {w w₁ w' : World} {p p₁ : RemediationPlan} {next : RemediationPlanStep}
      (row : w.findById id = some p)
      (notFailed : p.status ≠ .failed) (notCancelled : p.status ≠ .cancelled)
      (auto : p.autoEdit = true) (mem : next ∈ p.steps)
      (pending : next.status = .pending) (executed : Executed id next w w₁ p p₁)
      (rest : Drive id w₁ w') : Drive id w w'

theorem Executed.after {id : String} {step : RemediationPlanStep} {w w' : World}
    {p p' : RemediationPlan} (h : Executed id step w w' p p') :
    w'.findById id = some p' := by
  obtain ⟨_, -, -, ht⟩ := h.outcome
  exact ht.after

theorem Executed.status {id : String} {step : RemediationPlanStep} {w w' : World}
    {p p' : RemediationPlan} (h : Executed id step w w' p p') :
    p'.status = p.status ∨ p'.status = .failed := by
  obtain ⟨final, -, hst, -⟩ := h.outcome
  rw [hst]
  split
  · exact Or.inr rfl
  · exact Or.inl rfl

theorem Executed.rows {id : String} {step : RemediationPlanStep} {w w' : World}
    {p p' : RemediationPlan} (h : Executed id step w w' p p') :
    ∃ g, Rewrites p p' g := by
  obtain ⟨_, -, -, ht⟩ := h.outcome
  exact ⟨_, ht.rows⟩

theorem During.watch {id : String} {status : RemediationPlanStatus} {Done : Prop}
    {Final : World → Prop} {t : World} (h : During id status t)
    (hdone : status = .completed → Done) : Watch id Done Final t := by
  obtain ⟨p, hp, hst⟩ := h
  intro q hq hcomp
  cases hp.symm.trans hq
  rcases hst with hst | hst
  · exact Or.inl (hdone (hst.symm.trans hcomp))
  · rw [hst] at hcomp
    cases hcomp

section Solo

variable {G : World → World → Prop} {id : String} {w : World} {Done : Prop}

theorem runNext_drive {o : PlanExecutorOptions} {orgId : String}
    (hG : ∀ t t', Watch id Done (Drive id w) t' → G t t')
    (hdone : ∀ q, w.findById id = some q → q.status = .completed → Done) (fuel : ℕ) :
    (runNext o orgId id fuel).Holds Eq G (fun _ w' => Drive id w w') w := by
  -- the invariant: whatever the loop does from here, it did from the start
  refine runNext_solo (I := fun t => (∀ t', Drive id t t' → Drive id w t') ∧
    ∀ q, t.findById id = some q → q.status = .completed → Done) ?_ ?_ ?_ ?_ ?_ fuel w
    ⟨fun _ h => h, hdone⟩
  · rintro t ⟨-, hd⟩
    exact hG t t fun q hq hc => Or.inl (hd q hq hc)
  · rintro t ⟨hdrive, -⟩
    exact hdrive t (.stop t)
  · rintro t q next ⟨hdrive, hd⟩ hrow - hf hc hauto hmem hpend
    have hG' : ∀ u u', During id q.status u' → G u u' := fun u u' hu =>
      hG u u' (hu.watch (hd q hrow))
    refine (executeStep_solo hG' hrow (World.findById_id hrow) rfl).post ?_
    rintro r t' ⟨rfl, q', hex⟩
    refine ⟨rfl, fun t'' h'' => hdrive t'' (.execute hrow hf hc hauto hmem hpend hex h''), ?_⟩
    intro q'' hq'' hcomp
    cases hex.after.symm.trans hq''
    rcases hex.status with hst | hst
    · exact hd q hrow (hst.symm.trans hcomp)
    · rw [hst] at hcomp
      cases hcomp
  · rintro t q ⟨hdrive, hd⟩ hrow - hf hc hno
    have hfinal := hdrive _ (.complete hrow hf hc hno)
    exact ⟨hG _ _ fun _ _ _ => Or.inr hfinal, hfinal⟩
  · rintro t q next ⟨hdrive, hd⟩ hrow - hf hc hauto hmem hpend
    have hG' : ∀ u u', During id q.status u' → G u u' := fun u u' hu =>
      hG u u' (hu.watch (hd q hrow))
    refine (requestApproval_solo hG' hrow).post ?_
    intro r t' hreq
    exact hdrive t' (.pause hrow hf hc hauto hmem hpend hreq)

end Solo

/-! ## The public methods -/

/-- The two updates of `approve`. -/
structure Launched (id : String) (autoEdit : Bool) (w w' : World) (p p' : RemediationPlan) :
    Prop where
  before : w.findById id = some p
  pending : p.status = .pendingApproval
  after : w'.findById id = some p'
  status : p'.status = .executing
  autoEdit : p'.autoEdit = autoEdit
  steps : p'.steps = p.steps
  calls : w'.calls = w.calls
  approvals : w'.approvals = w.approvals

def Approved (id : String) (autoEdit : Bool) (w w' : World) : Prop :=
  ∃ w₁ p p₁, Launched id autoEdit w w₁ p p₁ ∧ Drive id w₁ w'

/-- `reject` and `cancel`: only the status and the stamp change. -/
structure Ended (id : String) (allowed : List RemediationPlanStatus)
    (status : RemediationPlanStatus) (w w' : World) (p p' : RemediationPlan) : Prop where
  allowed : p.status ∈ allowed
  status : p'.status = status
  touched : Touched id w w' p p' fun _ st => st
  calls : w'.calls = w.calls

/-- The request `approvalId` gates step `step` of plan `p` of org `orgId`. -/
structure Gates (w : World) (orgId approvalId : String) (p : RemediationPlan)
    (step : RemediationPlanStep) : Prop where
  request : ∃ a, w.approval approvalId = some a ∧ a.context.planId = some p.id ∧
    a.context.stepOrdinal = some step.ordinal
  row : w.findById p.id = some p
  orgId : p.orgId = orgId
  mem : step ∈ p.steps

def StepApproved (id : String) (step : RemediationPlanStep) (p : RemediationPlan)
    (w w' : World) : Prop :=
  ∃ w₁ p₁, Executed id step w w₁ p p₁ ∧ Drive id w₁ w'

def StepRejected (id : String) (step : RemediationPlanStep) (p : RemediationPlan)
    (w w' : World) : Prop :=
  ∃ w₁ p₁, Executed id step w w₁ p p₁ ∧ w₁.calls = w.calls ∧ Drive id w₁ w'

/-- The reset of `retryStep`. -/
structure Reset (id : String) (k : ℕ) (w w' : World) (p p' : RemediationPlan) : Prop where
  failed : ∃ step ∈ p.steps, step.ordinal = k ∧ step.status = .failed
  status : p'.status = if p.status = .failed then .executing else p.status
  touched : Touched id w w' p p' fun j st =>
    if j = k then .pending
    else if p.status = .failed ∧ k < j ∧ st = .skipped then .pending else st
  calls : w'.calls = w.calls

def Retried (id : String) (k : ℕ) (w w' : World) : Prop :=
  ∃ w₁ w₂ p p₁ p₂ target, Reset id k w w₁ p p₁ ∧ target ∈ p₁.steps ∧
    target.ordinal = k ∧ Executed id target w₁ w₂ p₁ p₂ ∧ Drive id w₂ w'

section Public

variable {G : World → World → Prop} {id : String} {w : World} {Done : Prop}

theorem watch_start {Final : World → Prop}
    (hdone : ∀ q, w.findById id = some q → q.status = .completed → Done) :
    Watch id Done Final w := fun q hq hc => Or.inl (hdone q hq hc)

theorem watch_of_ne {Final : World → Prop} {t : World} {q : RemediationPlan}
    (hq : t.findById id = some q) (hne : q.status ≠ .completed) :
    Watch id Done Final t := by
  intro q' hq' hc
  cases hq.symm.trans hq'
  exact absurd hc hne

theorem planForDecision_solo {orgId : String} {allowed : List RemediationPlanStatus}
    {verb : String} (hread : G w w) :
    (planForDecision orgId id allowed verb).Holds Eq G
      (fun r w' => w' = w ∧ ∀ p, r = .ok p →
        w.findById id = some p ∧ p.orgId = orgId ∧ p.status ∈ allowed) w := by
  unfold planForDecision findByIdInOrg
  rw [holds_read_bind]
  rintro _ rfl
  refine ⟨hread, ?_⟩
  cases hfind : w.findByIdInOrg orgId id with
  | none => exact ⟨rfl, fun p hp => by cases hp⟩
  | some p =>
    obtain ⟨hrow, horg⟩ := World.findByIdInOrg_eq_some.mp hfind
    dsimp only
    by_cases hallowed : p.status ∈ allowed
    · rw [if_pos hallowed]
      refine ⟨rfl, fun q hq => ?_⟩
      cases hq
      exact ⟨hrow, horg, hallowed⟩
    · rw [if_neg hallowed]
      exact ⟨rfl, fun p hp => by cases hp⟩

theorem approve_effect {o : PlanExecutorOptions} {orgId userId : String} {autoEdit : Bool}
    (hG : ∀ t t', Watch id Done (Approved id autoEdit w) t' → G t t')
    (hdone : ∀ q, w.findById id = some q → q.status = .completed → Done) :
    (approve o orgId id autoEdit userId).Holds Eq G
      (fun _ w' => w' = w ∨ Approved id autoEdit w w') w := by
  have hread : G w w := hG w w (watch_start hdone)
  unfold approve
  refine Holds.bind ((planForDecision_solo hread).post ?_)
  rintro (e | p) w₀ ⟨hw₀, hp⟩
  · exact Or.inl hw₀
  · obtain ⟨hrow, rfl, hpend⟩ := hp p rfl
    have hpend : p.status = .pendingApproval := by simpa using hpend
    rw [hw₀]
    -- the update to `approved`, which also stores `autoEdit`
    refine Holds.bind ((updatePlan_solo hrow hread (hG _ _ (watch_of_ne
      (World.findById_writePlan hrow rfl) (by simp [RemediationPlan.write])))).post ?_)
    rintro r w₁ ⟨⟨a, rfl⟩, hw₁, hrow₁⟩
    have hread₁ : G w₁ w₁ := hG _ _ (watch_of_ne hrow₁ (by simp [RemediationPlan.write]))
    -- the update to `executing`
    refine Holds.bind ((updatePlan_solo hrow₁ hread₁ (hG _ _ (watch_of_ne
      (World.findById_writePlan hrow₁ rfl) (by simp [RemediationPlan.write])))).post ?_)
    rintro r w₂ ⟨⟨a, rfl⟩, hw₂, hrow₂⟩
    have hlaunched : Launched id autoEdit w w₂ p _ :=
      ⟨hrow, hpend, hrow₂, rfl, rfl, rfl, by rw [hw₂, hw₁]; rfl, by rw [hw₂, hw₁]; rfl⟩
    have hfinal : ∀ w', Drive id w₂ w' → Approved id autoEdit w w' := fun w' hd =>
      ⟨w₂, p, _, hlaunched, hd⟩
    have hG₂ : ∀ t t', Watch id Done (Drive id w₂) t' → G t t' := fun t t' hwatch =>
      hG t t' (hwatch.final hfinal)
    have hdone₂ : ∀ q, w₂.findById id = some q → q.status = .completed → Done := by
      intro q hq hc
      cases hrow₂.symm.trans hq
      cases hc
    exact (runNext_drive hG₂ hdone₂ o.fuel).post fun r w' hd => Or.inr (hfinal w' hd)

theorem endPlan_effect {orgId userId verb : String} {allowed : List RemediationPlanStatus}
    {status : RemediationPlanStatus} (hstatus : status ≠ .completed)
    (hG : ∀ t t', Watch id Done (fun _ => False) t' → G t t')
    (hdone : ∀ q, w.findById id = some q → q.status = .completed → Done) :
    (planForDecision orgId id allowed verb >>= fun _ => endPlan orgId id status userId).Holds
      Eq G (fun _ w' => w' = w ∨ ∃ p p', Ended id allowed status w w' p p') w := by
  have hread : G w w := hG w w (watch_start hdone)
  refine Holds.bind ((planForDecision_solo hread).post ?_)
  rintro (e | p) w₀ ⟨hw₀, hp⟩
  · exact Or.inl hw₀
  · obtain ⟨hrow, rfl, hallowed⟩ := hp p rfl
    rw [hw₀]
    refine (updatePlan_solo hrow hread (hG _ _ (watch_of_ne
      (World.findById_writePlan hrow rfl) (by simpa [RemediationPlan.write])))).post ?_
    rintro r w₁ ⟨-, rfl, hrow₁⟩
    exact Or.inr ⟨p, _, hallowed, rfl, touched_writePlan _ hrow rfl, rfl⟩

theorem reject_effect {orgId userId : String}
    (hG : ∀ t t', Watch id Done (fun _ => False) t' → G t t')
    (hdone : ∀ q, w.findById id = some q → q.status = .completed → Done) :
    (reject orgId id userId).Holds Eq G
      (fun _ w' => w' = w ∨ ∃ p p', Ended id [.pendingApproval] .rejected w w' p p') w :=
  endPlan_effect (by decide) hG hdone

theorem cancel_effect {orgId userId : String}
    (hG : ∀ t t', Watch id Done (fun _ => False) t' → G t t')
    (hdone : ∀ q, w.findById id = some q → q.status = .completed → Done) :
    (cancel orgId id userId).Holds Eq G
      (fun _ w' => w' = w ∨ ∃ p p', Ended id [.approved, .executing] .cancelled w w' p p') w :=
  endPlan_effect (by decide) hG hdone

theorem findStepByApproval_solo {o : PlanExecutorOptions} {orgId approvalId : String}
    (hread : G w w) :
    (findStepByApproval o orgId approvalId).Holds Eq G
      (fun r w' => w' = w ∧ ∀ p step, r = .ok (p, step) →
        Gates w orgId approvalId p step) w := by
  have herr : ∀ e : String, w = w ∧ ∀ p step,
      (Except.error e : Except String (RemediationPlan × RemediationPlanStep)) =
        .ok (p, step) → Gates w orgId approvalId p step :=
    fun e => ⟨rfl, fun p step h => by cases h⟩
  unfold findStepByApproval Approvals.findById findByIdInOrg
  by_cases hwired : o.approvals = false
  · rw [if_pos hwired]
    exact herr _
  rw [if_neg hwired, holds_read_bind]
  rintro _ rfl
  refine ⟨hread, ?_⟩
  cases ha : w.approval approvalId with
  | none => exact herr _
  | some a =>
    dsimp only
    cases hplan : a.context.planId with
    | none => exact herr _
    | some planId =>
      cases hord : a.context.stepOrdinal with
      | none => exact herr _
      | some ordinal =>
        dsimp only
        rw [holds_read_bind]
        rintro _ rfl
        refine ⟨hread, ?_⟩
        cases hfind : w.findByIdInOrg orgId planId with
        | none => exact herr _
        | some p =>
          obtain ⟨hrow, horg⟩ := World.findByIdInOrg_eq_some.mp hfind
          have hpid := World.findById_id hrow
          dsimp only
          cases hstep : p.steps.find? (·.ordinal = ordinal) with
          | none => exact herr _
          | some step =>
            refine ⟨rfl, fun p' step' h => ?_⟩
            cases h
            have hk : step.ordinal = ordinal := by
              simpa using List.find?_some hstep
            exact ⟨⟨a, ha, hpid ▸ hplan, hk ▸ hord⟩, hpid ▸ hrow, horg,
              List.mem_of_find?_eq_some hstep⟩

theorem aside_effect {α : Type} {prog : Prog World α}
    (hG : ∀ t t', Watch id Done (fun _ => False) t' → G t t')
    (hdone : ∀ q, w.findById id = some q → q.status = .completed → Done)
    (h : prog.Holds Eq (Aside id) (fun _ _ => True) w) :
    prog.Holds Eq G (fun _ w' => Aside id w w') w := by
  refine (h.accumulate (Aside.refl id) fun _ _ _ => Aside.trans).mono (fun _ _ h => h) ?_
    fun _ _ h => h.2
  intro t t' hw
  refine hG t t' fun q hq hc => ?_
  rw [hw.row] at hq
  exact Or.inl (hdone q hq hc)

theorem execute_effect {o : PlanExecutorOptions} {p : RemediationPlan}
    {step : RemediationPlanStep} {Final : World → Prop}
    (hG : ∀ t t', Watch id Done Final t' → G t t') (hrow : w.findById id = some p)
    (hdone : p.status = .completed → Done)
    (hfinal : ∀ w₁ p₁ w', Executed id step w w₁ p p₁ → Drive id w₁ w' → Final w') :
    (executeStep o p step >>= fun _ => runNext o p.orgId id o.fuel).Holds Eq G
      (fun _ w' => Final w') w := by
  have hG₁ : ∀ t t', During id p.status t' → G t t' := fun t t' hd =>
    hG t t' (hd.watch hdone)
  refine Holds.bind ((executeStep_solo hG₁ hrow (World.findById_id hrow) rfl).post ?_)
  rintro r w₁ ⟨rfl, p₁, hex⟩
  have hG₂ : ∀ t t', Watch id Done (Drive id w₁) t' → G t t' := fun t t' hwatch =>
    hG t t' (hwatch.final fun w' hd => hfinal w₁ p₁ w' hex hd)
  have hdone₂ : ∀ q, w₁.findById id = some q → q.status = .completed → Done := by
    intro q hq hc
    cases hex.after.symm.trans hq
    rcases hex.status with hst | hst
    · exact hdone (hst.symm.trans hc)
    · rw [hst] at hc
      cases hc
  exact (runNext_drive hG₂ hdone₂ o.fuel).post fun r w' hd => hfinal w₁ p₁ w' hex hd

theorem onStepApproved_effect {o : PlanExecutorOptions} {orgId approvalId : String}
    (hG : ∀ t t', Watch id Done (fun t => ∃ p step, Gates w orgId approvalId p step ∧
      p.id = id ∧ StepApproved id step p w t) t' → G t t')
    (hdone : ∀ q, w.findById id = some q → q.status = .completed → Done) :
    (onStepApproved o orgId approvalId).Holds Eq G
      (fun _ w' => Aside id w w' ∨ ∃ p step, Gates w orgId approvalId p step ∧
        p.id = id ∧ StepApproved id step p w w') w := by
  have hread : G w w := hG w w (watch_start hdone)
  unfold onStepApproved
  refine Holds.bind ((findStepByApproval_solo hread).post ?_)
  rintro (e | ⟨p, step⟩) w₀ ⟨hw₀, hgates⟩
  · rw [hw₀]
    exact Or.inl (Aside.refl id w)
  · have hg := hgates p step rfl
    rw [hw₀]
    dsimp only
    by_cases hid : p.id = id
    · obtain rfl := hg.orgId
      have hrow : w.findById id = some p := hid ▸ hg.row
      rw [hid]
      refine (execute_effect hG hrow (hdone p hrow) fun w₁ p₁ w' hex hd =>
        ⟨p, step, hg, hid, w₁, p₁, hex, hd⟩).post fun _ _ h => Or.inr h
    · have hG' : ∀ t t', Watch id Done (fun _ => False) t' → G t t' := fun t t' hwatch =>
        hG t t' (hwatch.final fun _ h => h.elim)
      refine (aside_effect hG' hdone ?_).post fun _ _ h => Or.inl h
      exact approvedStep_each Aside.statements hid

theorem rejectStep_effect {o : PlanExecutorOptions} {p : RemediationPlan}
    {step : RemediationPlanStep} {Final : World → Prop}
    (hG : ∀ t t', Watch id Done Final t' → G t t') (hrow : w.findById id = some p)
    (hdone : p.status = .completed → Done)
    (hfinal : ∀ w₁ p₁ w', Executed id step w w₁ p p₁ → w₁.calls = w.calls →
      Drive id w₁ w' → Final w') :
    (updateStep id step.ordinal (fun _ =>
        { status := some .failed, errorText := some (some "rejected by approver") })
      >>= fun _ => if step.continueOnError then runNext o p.orgId id o.fuel
        else haltPlan p.orgId id step.ordinal "rejected by approver").Holds Eq G
      (fun _ w' => Final w') w := by
  have hG₁ : ∀ t t', During id p.status t' → G t t' := fun t t' hd =>
    hG t t' (hd.watch hdone)
  have hw := touched_writeStep step.ordinal
    { status := some .failed, errorText := some (some "rejected by approver") } hrow
  unfold updateStep
  rw [holds_atomic_bind]
  rintro _ rfl
  refine ⟨hG₁ _ _ ⟨_, hw.after, Or.inl rfl⟩, ?_⟩
  cases hc : step.continueOnError with
  | true =>
    have hex : Executed id step w _ p _ :=
      ⟨⟨.failed, Or.inr rfl, by simp [hc], hw.congr fun s _ => by simp [hc]⟩,
        [], (List.append_nil _).symm, by simp, by simp⟩
    have hG₂ : ∀ t t', Watch id Done (Drive id _) t' → G t t' := fun t t' hwatch =>
      hG t t' (hwatch.final fun w' hd => hfinal _ _ w' hex rfl hd)
    refine (runNext_drive hG₂ ?_ o.fuel).post fun r w' hd => hfinal _ _ w' hex rfl hd
    intro q hq hcomp
    cases hw.after.symm.trans hq
    exact hdone hcomp
  | false =>
    have hG₂ : ∀ t t', During id (p.writeStep step.ordinal
        { status := some .failed,
          errorText := some (some "rejected by approver") }).status t' → G t t' := hG₁
    refine (haltPlan_solo hG₂ hw.after).post ?_
    rintro r w' ⟨-, hcalls, p', hst, ht⟩
    have hex : Executed id step w w' p p' := by
      refine ⟨⟨.failed, Or.inr rfl, by simp [hc, hst], (hw.trans ht).congr fun s _ => ?_⟩,
        [], by rw [hcalls, List.append_nil]; rfl, by simp, by simp⟩
      by_cases hk : s.ordinal = step.ordinal <;> simp [hk, hc]
    exact hfinal w' p' w' hex hcalls (.stop w')

theorem onStepRejected_effect {o : PlanExecutorOptions} {orgId approvalId : String}
    (hG : ∀ t t', Watch id Done (fun t => ∃ p step, Gates w orgId approvalId p step ∧
      p.id = id ∧ StepRejected id step p w t) t' → G t t')
    (hdone : ∀ q, w.findById id = some q → q.status = .completed → Done) :
    (onStepRejected o orgId approvalId).Holds Eq G
      (fun _ w' => Aside id w w' ∨ ∃ p step, Gates w orgId approvalId p step ∧
        p.id = id ∧ StepRejected id step p w w') w := by
  have hread : G w w := hG w w (watch_start hdone)
  unfold onStepRejected
  refine Holds.bind ((findStepByApproval_solo hread).post ?_)
  rintro (e | ⟨p, step⟩) w₀ ⟨hw₀, hgates⟩
  · rw [hw₀]
    exact Or.inl (Aside.refl id w)
  · have hg := hgates p step rfl
    rw [hw₀]
    dsimp only
    by_cases hid : p.id = id
    · obtain rfl := hg.orgId
      have hrow : w.findById id = some p := hid ▸ hg.row
      rw [hid]
      exact (rejectStep_effect hG hrow (hdone p hrow) fun w₁ p₁ w' hex hcalls hd =>
        ⟨p, step, hg, hid, w₁, p₁, hex, hcalls, hd⟩).post fun _ _ h => Or.inr h
    · have hG' : ∀ t t', Watch id Done (fun _ => False) t' → G t t' := fun t t' hwatch =>
        hG t t' (hwatch.final fun _ h => h.elim)
      refine (aside_effect hG' hdone ?_).post fun _ _ h => Or.inl h
      exact rejectedStep_each Aside.statements hid

theorem resetForRetry_solo {p : RemediationPlan} {step : RemediationPlanStep}
    (hG : ∀ t t' : World, (∀ q, t'.findById id = some q → q.status = .completed →
      p.status = .completed) → G t t')
    (hrow : w.findById id = some p) (hmem : step ∈ p.steps)
    (hfailed : step.status = .failed) :
    (resetForRetry p.orgId p id step.ordinal).Holds Eq G
      (fun r w' => r = .ok () ∧ ∃ p', Reset id step.ordinal w w' p p') w := by
  have hduring : ∀ t t', During id p.status t' → G t t' := by
    rintro t t' ⟨q, hq, hst⟩
    refine hG t t' fun q' hq' hc => ?_
    cases hq.symm.trans hq'
    rcases hst with hst | hst
    · exact hst.symm.trans hc
    · rw [hst] at hc
      cases hc
  have hw := touched_writeStep step.ordinal
    { status := some .pending, errorText := some none, outputText := some none,
      executedAt := some none } hrow
  unfold resetForRetry
  unfold updateStep
  rw [holds_atomic_bind]
  rintro _ rfl
  refine ⟨hduring _ _ ⟨_, hw.after, Or.inl rfl⟩, ?_⟩
  by_cases hf : p.status = .failed
  · rw [if_pos hf]
    have hduring₁ : ∀ t t', During id (p.writeStep step.ordinal
      { status := some .pending, errorText := some none, outputText := some none,
        executedAt := some none }).status t' → G t t' := hduring
    refine Holds.bind ((markSteps_solo .pending _ hduring₁ hw.after).post ?_)
    rintro r w₁ ⟨rfl, hcalls₁, p₁, hst₁, ht₁⟩
    have horg₁ : p₁.orgId = p.orgId := (hw.trans ht₁).rows.orgId
    have hread₁ : G w₁ w₁ := hduring _ _ ⟨p₁, ht₁.after, Or.inl hst₁⟩
    have ht₂ := touched_writePlan { status := some .executing } ht₁.after rfl
    rw [← horg₁]
    refine Holds.bind ((updatePlan_solo ht₁.after hread₁ (hG _ _ fun q hq hc => ?_)).post ?_)
    · cases ht₂.after.symm.trans hq
      cases hc
    rintro r w₂ ⟨⟨a, rfl⟩, rfl, -⟩
    refine ⟨rfl, _, ⟨step, hmem, rfl, hfailed⟩, ?_,
      ((hw.trans ht₁).trans ht₂).congr fun s hs => ?_, hcalls₁⟩
    · rw [if_pos hf]
      rfl
    · simp only [RemediationPlan.ordinal_mem_filter hs, hf, true_and]
      by_cases hk : s.ordinal = step.ordinal <;> simp [hk]
  · rw [if_neg hf]
    refine ⟨rfl, _, ⟨step, hmem, rfl, hfailed⟩, ?_, hw.congr fun s _ => ?_, rfl⟩
    · rw [if_neg hf]
      rfl
    · simp [hf]

theorem retryStep_effect {o : PlanExecutorOptions} {orgId : String} {k : ℕ}
    (hG : ∀ t t', Watch id Done (Retried id k w) t' → G t t')
    (hdone : ∀ q, w.findById id = some q → q.status = .completed → Done) :
    (retryStep o orgId id k).Holds Eq G
      (fun _ w' => w' = w ∨ Retried id k w w') w := by
  have hread : G w w := hG w w (watch_start hdone)
  unfold retryStep findByIdInOrg
  rw [holds_read_bind]
  rintro _ rfl
  refine ⟨hread, ?_⟩
  cases hfind : w.findByIdInOrg orgId id with
  | none => exact Or.inl rfl
  | some p =>
    obtain ⟨hrow, horg⟩ := World.findByIdInOrg_eq_some.mp hfind
    dsimp only
    cases hstep : p.steps.find? (·.ordinal = k) with
    | none => exact Or.inl rfl
    | some step =>
      have hmem : step ∈ p.steps := List.mem_of_find?_eq_some hstep
      have hk : step.ordinal = k := by simpa using List.find?_some hstep
      dsimp only
      by_cases hst : step.status ≠ .failed
      · rw [if_pos hst]
        exact Or.inl rfl
      rw [if_neg hst]
      subst hk horg
      have hfailed : step.status = .failed := by simpa using hst
      have hG₁ : ∀ t t' : World, (∀ q, t'.findById id = some q →
          q.status = .completed → p.status = .completed) → G t t' := fun t t' ht =>
        hG t t' fun q hq hc => Or.inl (hdone p hrow (ht q hq hc))
      refine Holds.bind ((resetForRetry_solo hG₁ hrow hmem hfailed).post ?_)
      rintro r w₁ ⟨rfl, p₁, hreset⟩
      have hrow₁ := hreset.touched.after
      have horg₁ : p₁.orgId = p.orgId := hreset.touched.rows.orgId
      have hfind₁ : w₁.findByIdInOrg p.orgId id = some p₁ :=
        World.findByIdInOrg_eq_some.mpr ⟨hrow₁, horg₁⟩
      have hdone₁ : p₁.status = .completed → Done := by
        intro hc
        rw [hreset.status] at hc
        split at hc
        · cases hc
        · exact hdone p hrow hc
      rw [holds_read_bind]
      rintro _ rfl
      refine ⟨hG _ _ fun q hq hc => Or.inl ?_, ?_⟩
      · cases hrow₁.symm.trans hq
        exact hdone₁ hc
      simp only [hfind₁]
      cases htarget : p₁.steps.find? (·.ordinal = step.ordinal) with
      | none =>
        -- the reset keeps the ordinals, so the step is still there
        obtain ⟨f, hf, hstep'⟩ := hreset.touched.rows.steps
        have hin : f step ∈ p₁.steps := hf ▸ List.mem_map_of_mem hmem
        have := List.find?_eq_none.mp htarget _ hin
        simp [(hstep' step).1] at this
      | some target =>
        have htmem : target ∈ p₁.steps := List.mem_of_find?_eq_some htarget
        have htk : target.ordinal = step.ordinal := by
          simpa using List.find?_some htarget
        rw [← horg₁]
        exact (execute_effect hG hrow₁ hdone₁ fun w₂ p₂ w' hex hd =>
          ⟨w₁, w₂, p, p₁, p₂, target, hreset, htmem, htk, hex, hd⟩).post
            fun _ _ h => Or.inr h

end Public

end OpenObs.Plans
