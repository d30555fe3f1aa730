import OpenObs.Plans.Effects

/-!
# Sessions

What one operation of a session, served to its end, does to one plan: nothing,
or what the relation of its method says. `code_effect` is the inversion lemma
every result about sessions starts from.
-/

namespace OpenObs.Plans

open OpenObs.Foundation OpenObs.Approvals Prog

structure Expired (id : String) (w w' : World) (p p' : RemediationPlan) : Prop where
  pending : p.status = .pendingApproval
  status : p'.status = .expired
  touched : Touched id w w' p p' fun _ st => st
  calls : w'.calls = w.calls

/-- What one operation does to plan `id`. -/
inductive OpEffect (id : String) : Op → World → World → Prop
  | aside {op : Op} {w w' : World} (h : Aside id w w') : OpEffect id op w w'
  | approved {orgId userId : String} {autoEdit : Bool} {w w' : World}
      (h : Approved id autoEdit w w') : OpEffect id (.approve orgId id autoEdit userId) w w'
  | rejected {orgId userId : String} {w w' : World} {p p' : RemediationPlan}
      (h : Ended id [.pendingApproval] .rejected w w' p p') :
      OpEffect id (.reject orgId id userId) w w'
  | cancelled {orgId userId : String} {w w' : World} {p p' : RemediationPlan}
      (h : Ended id [.approved, .executing] .cancelled w w' p p') :
      OpEffect id (.cancel orgId id userId) w w'
  | stepApproved {orgId approvalId : String} {w w' : World} {p : RemediationPlan}
      {step : RemediationPlanStep} (gates : Gates w orgId approvalId p step)
      (hid : p.id = id) (h : StepApproved id step p w w') :
      OpEffect id (.onStepApproved orgId approvalId) w w'
  | stepRejected {orgId approvalId : String} {w w' : World} {p : RemediationPlan}
      {step : RemediationPlanStep} (gates : Gates w orgId approvalId p step)
      (hid : p.id = id) (h : StepRejected id step p w w') :
      OpEffect id (.onStepRejected orgId approvalId) w w'
  | retried {orgId : String} {k : ℕ} {w w' : World} (h : Retried id k w w') :
      OpEffect id (.retryStep orgId id k) w w'
  | expired {now : String} {w w' : World} {p p' : RemediationPlan}
      (h : Expired id w w' p p') : OpEffect id (.expireStale now) w w'
  | resolvedAside {verdict : Verdict} {approvalId resolvedBy : String}
      {roles : Option (List String)} {w w₁ w' : World} {a : ApprovalRequest}
      (found : w.approval approvalId = some a)
      (pending : verdict ≠ .override → a.status = .pending)
      (stored : w₁ = resolvedWorld verdict approvalId resolvedBy roles w
        (a.resolve verdict.status resolvedBy w.now roles))
      (h : Aside id w₁ w') : OpEffect id (.resolve verdict approvalId resolvedBy roles) w w'
  | resolvedApproved {verdict : Verdict} {orgId approvalId resolvedBy : String}
      {roles : Option (List String)} {w w₁ w' : World} {a : ApprovalRequest}
      {p : RemediationPlan} {step : RemediationPlanStep}
      (found : w.approval approvalId = some a)
      (pending : verdict ≠ .override → a.status = .pending)
      (stored : w₁ = resolvedWorld verdict approvalId resolvedBy roles w
        (a.resolve verdict.status resolvedBy w.now roles))
      (status : verdict.status = .approved)
      (gates : Gates w₁ orgId approvalId p step) (hid : p.id = id)
      (h : StepApproved id step p w₁ w') :
      OpEffect id (.resolve verdict approvalId resolvedBy roles) w w'
  | resolvedRejected {verdict : Verdict} {orgId approvalId resolvedBy : String}
      {roles : Option (List String)} {w w₁ w' : World} {a : ApprovalRequest}
      {p : RemediationPlan} {step : RemediationPlanStep}
      (found : w.approval approvalId = some a)
      (pending : verdict ≠ .override → a.status = .pending)
      (stored : w₁ = resolvedWorld verdict approvalId resolvedBy roles w
        (a.resolve verdict.status resolvedBy w.now roles))
      (status : verdict.status = .rejected)
      (gates : Gates w₁ orgId approvalId p step) (hid : p.id = id)
      (h : StepRejected id step p w₁ w') :
      OpEffect id (.resolve verdict approvalId resolvedBy roles) w w'

/-! ## Every operation has an effect -/

section

variable {G : World → World → Prop} {id : String} {w : World} {Done : Prop}
  {o : PlanExecutorOptions} {listening : Bool}

theorem resumeExecutor_effect {request : ApprovalRequest}
    (hG : ∀ t t', Watch id Done (fun t => ∃ orgId p step,
      Gates w orgId request.id p step ∧ p.id = id ∧
      ((request.status = .approved ∧ StepApproved id step p w t) ∨
        (request.status = .rejected ∧ StepRejected id step p w t))) t' → G t t')
    (hdone : ∀ q, w.findById id = some q → q.status = .completed → Done) :
    (resumeExecutor o request).Holds Eq G
      (fun _ w' => Aside id w w' ∨ ∃ orgId p step,
        Gates w orgId request.id p step ∧ p.id = id ∧
        ((request.status = .approved ∧ StepApproved id step p w w') ∨
          (request.status = .rejected ∧ StepRejected id step p w w'))) w := by
  have hread : G w w := hG w w (watch_start hdone)
  unfold resumeExecutor findById
  cases request.context.planId with
  | none => exact Or.inl (Aside.refl id w)
  | some planId =>
    dsimp only
    rw [holds_read_bind]
    rintro _ rfl
    refine ⟨hread, ?_⟩
    cases w.findById planId with
    | none => exact Or.inl (Aside.refl id w)
    | some plan =>
      apply Holds.swallow
      cases hst : request.status with
      | pending => exact Or.inl (Aside.refl id w)
      | expired => exact Or.inl (Aside.refl id w)
      | approved =>
        have hfinal : ∀ t, (∃ p step, Gates w plan.orgId request.id p step ∧
            p.id = id ∧ StepApproved id step p w t) → ∃ orgId p step,
            Gates w orgId request.id p step ∧ p.id = id ∧
            ((request.status = .approved ∧ StepApproved id step p w t) ∨
              (request.status = .rejected ∧ StepRejected id step p w t)) := by
          rintro t ⟨p, step, hg, hid, h⟩
          exact ⟨plan.orgId, p, step, hg, hid, Or.inl ⟨hst, h⟩⟩
        refine Holds.discard ((onStepApproved_effect (fun t t' hwatch =>
          hG t t' (hwatch.final hfinal)) hdone).post ?_)
        rintro r w' (h | ⟨p, step, hg, hid, h⟩)
        · exact Or.inl h
        · exact Or.inr ⟨plan.orgId, p, step, hg, hid, Or.inl ⟨rfl, h⟩⟩
      | rejected =>
        have hfinal : ∀ t, (∃ p step, Gates w plan.orgId request.id p step ∧
            p.id = id ∧ StepRejected id step p w t) → ∃ orgId p step,
            Gates w orgId request.id p step ∧ p.id = id ∧
            ((request.status = .approved ∧ StepApproved id step p w t) ∨
              (request.status = .rejected ∧ StepRejected id step p w t)) := by
          rintro t ⟨p, step, hg, hid, h⟩
          exact ⟨plan.orgId, p, step, hg, hid, Or.inr ⟨hst, h⟩⟩
        refine Holds.discard ((onStepRejected_effect (fun t t' hwatch =>
          hG t t' (hwatch.final hfinal)) hdone).post ?_)
        rintro r w' (h | ⟨p, step, hg, hid, h⟩)
        · exact Or.inl h
        · exact Or.inr ⟨plan.orgId, p, step, hg, hid, Or.inr ⟨rfl, h⟩⟩

theorem resolve_effect {verdict : Verdict} {approvalId resolvedBy : String}
    {roles : Option (List String)}
    (hG : ∀ t t', Watch id Done
      (OpEffect id (.resolve verdict approvalId resolvedBy roles) w) t' → G t t')
    (hdone : ∀ q, w.findById id = some q → q.status = .completed → Done) :
    (resolveAndDeliver o listening verdict approvalId resolvedBy roles).Holds Eq G
      (fun _ w' => OpEffect id (.resolve verdict approvalId resolvedBy roles) w w') w := by
  have hplans : ∀ t t' : World, t'.plans = w.plans → G t t' := by
    intro t t' ht
    refine hG t t' fun q hq hc => Or.inl (hdone q ?_ hc)
    rwa [World.findById, ht] at hq
  unfold resolveAndDeliver
  refine Holds.bind ((resolution_solo hplans).post ?_)
  rintro r w₁ (⟨rfl, rfl⟩ | ⟨a, ha, hpend, rfl, hw₁⟩)
  · exact .aside (Aside.refl id w₁)
  · -- the verdict is stored, whether or not the listener then acts on it
    have hstored : OpEffect id (.resolve verdict approvalId resolvedBy roles) w w₁ :=
      .resolvedAside ha hpend hw₁ (Aside.refl id w₁)
    have haid : a.id = approvalId := World.approval_id ha
    have hid : (a.resolve verdict.status resolvedBy w.now roles).id = approvalId := haid
    dsimp only
    by_cases hl : listening = true
    · rw [if_pos hl]
      unfold onResolved
      split
      · exact hstored
      split
      · exact hstored
      have hfinal : ∀ t, (∃ orgId p step,
          Gates w₁ orgId (a.resolve verdict.status resolvedBy w.now roles).id p step ∧
          p.id = id ∧
          (((a.resolve verdict.status resolvedBy w.now roles).status = .approved ∧
              StepApproved id step p w₁ t) ∨
            ((a.resolve verdict.status resolvedBy w.now roles).status = .rejected ∧
              StepRejected id step p w₁ t))) →
          OpEffect id (.resolve verdict approvalId resolvedBy roles) w t := by
        rintro t ⟨orgId, p, step, hg, hpid, ⟨hst, h⟩ | ⟨hst, h⟩⟩
        · exact .resolvedApproved ha hpend hw₁ hst (hid ▸ hg) hpid h
        · exact .resolvedRejected ha hpend hw₁ hst (hid ▸ hg) hpid h
      have hdone₁ : ∀ q, w₁.findById id = some q → q.status = .completed → Done := by
        intro q hq hc
        rw [hw₁] at hq
        exact hdone q hq hc
      refine (resumeExecutor_effect (fun t t' hwatch => hG t t' (hwatch.final hfinal))
        hdone₁).post ?_
      rintro r w' (h | h)
      · exact .resolvedAside ha hpend hw₁ h
      · exact hfinal w' h
    · rw [if_neg hl]
      exact hstored

theorem expireStale_effect {now : String}
    (hG : ∀ t t', Watch id Done (OpEffect id (.expireStale now) w) t' → G t t') :
    (expireStale now).Holds Eq G
      (fun _ w' => OpEffect id (.expireStale now) w w') w := by
  have hafter := w.findById_expireStale now id
  have heffect : OpEffect id (.expireStale now) w (w.expireStale now) := by
    cases hrow : w.findById id with
    | none =>
      rw [hrow, Option.map_none, ← hrow] at hafter
      exact .aside (.of_eq hafter rfl rfl)
    | some p =>
      rw [hrow, Option.map_some] at hafter
      by_cases hstale : p.status = .pendingApproval ∧ p.expiresAt ≤ now
      · rw [if_pos hstale] at hafter
        refine .expired ⟨hstale.1, rfl, ⟨hrow, hafter, ?_, rfl⟩, rfl⟩
        exact ⟨rfl, rfl, fun s => s, by simp, fun _ => ⟨rfl, rfl, rfl, rfl, fun _ => rfl⟩⟩
      · rw [if_neg hstale, ← hrow] at hafter
        exact .aside (.of_eq hafter rfl rfl)
  unfold expireStale
  rw [holds_atomic]
  rintro _ rfl
  exact ⟨hG _ _ fun _ _ _ => Or.inr heffect, heffect⟩

/-- **Inversion of a session step.** Every operation, run alone, has one of the
listed effects on plan `id`; and a section in the middle of it that shows the
plan completed shows a final state, unless it was completed before (`Done`). -/
theorem code_effect (op : Op)
    (hG : ∀ t t', Watch id Done (OpEffect id op w) t' → G t t')
    (hdone : ∀ q, w.findById id = some q → q.status = .completed → Done) :
    (code o listening op).Holds Eq G (fun _ w' => OpEffect id op w w') w := by
  have hsame : OpEffect id op w w := .aside (Aside.refl id w)
  have hG' : ∀ t t', Watch id Done (fun _ => False) t' → G t t' := fun t t' hwatch =>
    hG t t' (hwatch.final fun _ h => h.elim)
  cases op with
  | approve orgId planId autoEdit userId =>
    apply Holds.discard
    by_cases hid : planId = id
    · subst hid
      refine (approve_effect (fun t t' hwatch => hG t t' (hwatch.final fun _ => .approved))
        hdone).post ?_
      rintro r w' (rfl | h)
      · exact hsame
      · exact .approved h
    · exact (aside_effect hG' hdone (approve_each Aside.statements hid)).post
        fun _ _ h => .aside h
  | reject orgId planId userId =>
    apply Holds.discard
    by_cases hid : planId = id
    · subst hid
      refine (reject_effect hG' hdone).post ?_
      rintro r w' (rfl | ⟨p, p', h⟩)
      · exact hsame
      · exact .rejected h
    · exact (aside_effect hG' hdone (reject_each Aside.statements hid)).post
        fun _ _ h => .aside h
  | cancel orgId planId userId =>
    apply Holds.discard
    by_cases hid : planId = id
    · subst hid
      refine (cancel_effect hG' hdone).post ?_
      rintro r w' (rfl | ⟨p, p', h⟩)
      · exact hsame
      · exact .cancelled h
    · exact (aside_effect hG' hdone (cancel_each Aside.statements hid)).post
        fun _ _ h => .aside h
  | onStepApproved orgId approvalId =>
    apply Holds.discard
    refine (onStepApproved_effect (fun t t' hwatch => hG t t' (hwatch.final ?_)) hdone).post ?_
    · rintro t ⟨p, step, hg, hid, h⟩
      exact .stepApproved hg hid h
    · rintro r w' (h | ⟨p, step, hg, hid, h⟩)
      · exact .aside h
      · exact .stepApproved hg hid h
  | onStepRejected orgId approvalId =>
    apply Holds.discard
    refine (onStepRejected_effect (fun t t' hwatch => hG t t' (hwatch.final ?_)) hdone).post ?_
    · rintro t ⟨p, step, hg, hid, h⟩
      exact .stepRejected hg hid h
    · rintro r w' (h | ⟨p, step, hg, hid, h⟩)
      · exact .aside h
      · exact .stepRejected hg hid h
  | retryStep orgId planId k =>
    apply Holds.discard
    by_cases hid : planId = id
    · subst hid
      refine (retryStep_effect (fun t t' hwatch => hG t t' (hwatch.final fun _ => .retried))
        hdone).post ?_
      rintro r w' (rfl | h)
      · exact hsame
      · exact .retried h
    · exact (aside_effect hG' hdone (retryStep_each Aside.statements hid)).post
        fun _ _ h => .aside h
  | resolve verdict approvalId resolvedBy roles => exact resolve_effect hG hdone
  | expireStale now => exact Holds.discard (expireStale_effect hG)
  | setClock now =>
    rintro _ rfl
    have h : OpEffect id (.setClock now) w { w with now := now } :=
      .aside (.of_eq rfl rfl rfl)
    exact ⟨hG _ _ fun _ _ _ => Or.inr h, h⟩

end

/-! ## The step a request gates -/

/-- The request was created for step `k` of plan `id`. -/
def gatesStep (id : String) (k : ℕ) (a : ApprovalRequest) : Bool :=
  a.context.planId = some id ∧ a.context.stepOrdinal = some k

theorem gatesStep_iff {id : String} {k : ℕ} {a : ApprovalRequest} :
    gatesStep id k a = true ↔ a.context.planId = some id ∧ a.context.stepOrdinal = some k := by
  simp [gatesStep]

theorem Gates.gatesStep {w : World} {orgId approvalId : String} {p : RemediationPlan}
    {step : RemediationPlanStep} {a : ApprovalRequest}
    (h : Gates w orgId approvalId p step) (ha : w.approval approvalId = some a) :
    gatesStep p.id step.ordinal a = true := by
  obtain ⟨b, hb, hplan, hord⟩ := h.request
  cases hb.symm.trans ha
  exact gatesStep_iff.mpr ⟨hplan, hord⟩

theorem Gates.gatesStep_resolved {id : String} {w w₁ : World} {verdict : Verdict}
    {orgId approvalId resolvedBy : String} {roles : Option (List String)}
    {a request : ApprovalRequest} {p : RemediationPlan} {step : RemediationPlanStep}
    (h : Gates w₁ orgId approvalId p step) (hid : p.id = id)
    (found : w.approval approvalId = some a)
    (stored : w₁ = resolvedWorld verdict approvalId resolvedBy roles w request) :
    OpenObs.Plans.gatesStep id step.ordinal a = true := by
  have ha₁ : w₁.approval approvalId =
      some (a.resolve verdict.status resolvedBy w.now roles) := by
    rw [stored]
    exact World.approval_resolveApproval found
  have hgates : OpenObs.Plans.gatesStep id step.ordinal
      (a.resolve verdict.status resolvedBy w.now roles) = true := hid ▸ h.gatesStep ha₁
  exact hgates

/-! ## Sessions -/

section

variable {o : PlanExecutorOptions} {listening : Bool}

theorem run_effect (o : PlanExecutorOptions) (listening : Bool) (id : String) (op : Op)
    (w : World) : OpEffect id op w ((code o listening op).run w).2 := by
  have h : (code o listening op).Holds Eq (fun _ _ => True)
      (fun _ w' => OpEffect id op w w') w :=
    code_effect op (fun _ _ _ => trivial) fun _ _ _ => trivial
  exact outcome_of_holds h

/-- **The invariant rule of sessions.** What every effect of an operation keeps, where
the operation meets `Ok`, holds throughout a session of such operations. -/
theorem session_invariant (id : String) {I : World → Prop} {Ok : Op → World → Prop}
    {w₀ w : World} (h₀ : I w₀) (hop : ∀ op t t', I t → Ok op t → OpEffect id op t t' → I t')
    (hrun : Serial (code o listening) Ok w₀ w) : I w :=
  Serial.invariant h₀ (fun op t hI hok => hop op t _ hI hok (run_effect o listening id op t)) hrun

end

end OpenObs.Plans
