import OpenObs.Plans.Gating

/-!
# What completion means

`runNext` completes a plan when no step is pending. That is the same as every step being done (or
failed with `continueOnError`) as long as no other step can be left `failed` or `skipped` behind the
loop.
-/

namespace OpenObs.Plans

open OpenObs.Foundation OpenObs.Approvals Prog

def Settled (s : RemediationPlanStep) : Prop :=
  s.status = .done ∨ (s.status = .failed ∧ s.continueOnError = true)

def Clean (s : RemediationPlanStep) : Prop := s.status = .pending ∨ Settled s

/-- A step of a plan that step `j` halted. -/
def Halted (j : ℕ) (s : RemediationPlanStep) : Prop :=
  Clean s ∨ (s.status = .failed ∧ s.ordinal = j) ∨ (s.status = .skipped ∧ j < s.ordinal)

structure Progress (p : RemediationPlan) : Prop where
  running : p.status ≠ .failed → ∀ s ∈ p.steps, Clean s
  failed : p.status = .failed → ∃ j, ∀ s ∈ p.steps, Halted j s
  completed : p.status = .completed → ∀ s ∈ p.steps, Settled s

structure Underway (p : RemediationPlan) : Prop where
  notFailed : p.status ≠ .failed
  notCompleted : p.status ≠ .completed
  clean : ∀ s ∈ p.steps, Clean s

theorem Underway.progress {p : RemediationPlan} (h : Underway p) : Progress p :=
  ⟨fun _ => h.clean, fun hf => absurd hf h.notFailed, fun hc => absurd hc h.notCompleted⟩

theorem Progress.underway {p : RemediationPlan} (h : Progress p) (hf : p.status ≠ .failed)
    (hc : p.status ≠ .completed) : Underway p := ⟨hf, hc, h.running hf⟩

theorem Rewrites.clean {p p' : RemediationPlan} (h : Rewrites p p' fun _ st => st)
    (hc : ∀ s ∈ p.steps, Clean s) : ∀ s ∈ p'.steps, Clean s := by
  intro s' hs'
  obtain ⟨s, hs, -, hcoe, hst⟩ := h.of_mem hs'
  have := hc s hs
  unfold Clean Settled at *
  rwa [hst, hcoe]

/-! ## Running a step -/

section

variable {id : String} {step : RemediationPlanStep} {w w' : World} {p p' : RemediationPlan}

theorem Executed.progress (h : Executed id step w w' p p') (hmem : step ∈ p.steps)
    (hp : Underway p) : Progress p' := by
  obtain ⟨final, hfinal, hst, ht⟩ := h.outcome
  by_cases hhalts : final = .failed ∧ step.continueOnError = false
  · rw [if_pos hhalts] at hst
    refine ⟨fun hne => absurd hst hne, fun _ => ⟨step.ordinal, ?_⟩, fun hc => ?_⟩
    · intro s' hs'
      obtain ⟨s, hs, hord, hcoe, hst'⟩ := ht.rows.of_mem hs'
      by_cases hk : s.ordinal = step.ordinal
      · rw [if_pos hk] at hst'
        exact Or.inr (Or.inl ⟨hst'.trans hhalts.1, hord.trans hk⟩)
      rw [if_neg hk] at hst'
      by_cases hskip : step.ordinal < s.ordinal ∧ s.status = .pending
      · rw [if_pos ⟨hhalts, hskip⟩] at hst'
        exact Or.inr (Or.inr ⟨hst', hord ▸ hskip.1⟩)
      · rw [if_neg fun hall => hskip hall.2] at hst'
        refine Or.inl ?_
        have := hp.clean s hs
        unfold Clean Settled at *
        rwa [hst', hcoe]
    · rw [hst] at hc
      cases hc
  · rw [if_neg hhalts] at hst
    refine Underway.progress ⟨hst ▸ hp.notFailed, hst ▸ hp.notCompleted, ?_⟩
    intro s' hs'
    obtain ⟨s, hs, -, hcoe, hst'⟩ := ht.rows.of_mem hs'
    by_cases hk : s.ordinal = step.ordinal
    · rw [if_pos hk] at hst'
      obtain rfl := p.step_unique hs hmem hk
      refine Or.inr ?_
      unfold Settled
      rw [hst', hcoe]
      rcases hfinal with hd | hf
      · exact Or.inl hd
      · exact Or.inr ⟨hf, by simpa [hf] using hhalts⟩
    · rw [if_neg hk, if_neg fun hall => hhalts hall.1] at hst'
      have := hp.clean s hs
      unfold Clean Settled at *
      rwa [hst', hcoe]

theorem Executed.progress_failed (h : Executed id step w w' p p') (hmem : step ∈ p.steps)
    (hp : Progress p) (hst : p.status = .failed)
    (hok : step.continueOnError = true ∨ step.status = .failed) : Progress p' := by
  have hst' : p'.status = .failed := by
    rcases h.status with hs | hs
    · rw [hs, hst]
    · exact hs
  obtain ⟨j, hj⟩ := hp.failed hst
  have hstep : step.continueOnError = false → step.ordinal = j := by
    intro hcoe
    have := hj step hmem
    simp [Halted, Clean, Settled, hcoe] at this hok
    simpa [hok] using this
  obtain ⟨final, hfinal, -, ht⟩ := h.outcome
  refine ⟨fun hne => absurd hst' hne, fun _ => ⟨j, ?_⟩, fun hc => ?_⟩
  · intro s' hs'
    obtain ⟨s, hs, hord, hcoe, hrow⟩ := ht.rows.of_mem hs'
    by_cases hk : s.ordinal = step.ordinal
    · rw [if_pos hk] at hrow
      obtain rfl := p.step_unique hs hmem hk
      unfold Halted Clean Settled
      rw [hrow, hcoe, hord]
      rcases hfinal with hd | hf
      · exact Or.inl (Or.inr (Or.inl hd))
      · cases hc : s.continueOnError with
        | true => exact Or.inl (Or.inr (Or.inr ⟨hf, rfl⟩))
        | false => exact Or.inr (Or.inl ⟨hf, hstep hc⟩)
    rw [if_neg hk] at hrow
    split at hrow
    · rename_i hall
      exact Or.inr (Or.inr ⟨hrow, hord ▸ hstep hall.1.2 ▸ hall.2.1⟩)
    · have := hj s hs
      unfold Halted Clean Settled at *
      rwa [hrow, hcoe, hord]
  · rw [hst'] at hc
    cases hc

end

/-! ## The drive loop and the retry -/

theorem Drive.progress {id : String} {w w' : World} (h : Drive id w w') :
    ∀ {p}, w.findById id = some p → Progress p →
      ∃ p', w'.findById id = some p' ∧ Progress p' := by
  induction h with
  | stop w => exact fun hrow hp => ⟨_, hrow, hp⟩
  | complete row notFailed _ settled =>
    intro p hrow hp
    obtain rfl := Option.some.inj (hrow.symm.trans row)
    have hsettled : ∀ s ∈ p.steps, Settled s := fun s hs =>
      (hp.running notFailed s hs).resolve_left (settled s hs)
    refine ⟨_, World.findById_writePlan row rfl, fun _ s hs => Or.inr (hsettled s hs),
      fun hf => ?_, fun _ => hsettled⟩
    simp [RemediationPlan.write] at hf
  | pause row notFailed _ _ mem pending requested =>
    intro p hrow hp
    cases row.symm.trans hrow
    obtain ⟨p', hrow', hst', hrw⟩ := requested.row
    refine ⟨p', hrow', Underway.progress ⟨hst' ▸ notFailed, fun hc => ?_,
      hrw.clean (hp.running notFailed)⟩⟩
    have := hp.completed (hst' ▸ hc) _ mem
    simp [Settled, pending] at this
  | execute row notFailed _ _ mem pending executed _ ih =>
    intro p hrow hp
    cases row.symm.trans hrow
    refine ih executed.after (executed.progress mem (hp.underway notFailed fun hc => ?_))
    have := hp.completed hc _ mem
    simp [Settled, pending] at this

theorem Reset.underway {id : String} {k : ℕ} {w w' : World} {p p' : RemediationPlan}
    (h : Reset id k w w' p p') (hp : Progress p) (hcomp : p.status ≠ .completed)
    (hhalts : p.status = .failed → ∀ s ∈ p.steps, s.ordinal = k →
      s.continueOnError = false) : Underway p' := by
  obtain ⟨step, hmem, hk, hfailed⟩ := h.failed
  by_cases hst : p.status = .failed
  · have hst' := h.status
    rw [if_pos hst] at hst'
    refine ⟨by rw [hst']; decide, by rw [hst']; decide, fun s' hs' => ?_⟩
    obtain ⟨j, hj⟩ := hp.failed hst
    have hkj : k = j := by
      have := hj step hmem
      simp [Halted, Clean, Settled, hfailed, hhalts hst step hmem hk, hk] at this
      exact this
    obtain ⟨s, hs, -, hcoe, hrow⟩ := h.touched.rows.of_mem hs'
    by_cases hsk : s.ordinal = k
    · rw [if_pos hsk] at hrow
      exact Or.inl hrow
    rw [if_neg hsk] at hrow
    split at hrow
    · exact Or.inl hrow
    · rename_i hskip
      rcases hj s hs with hclean | ⟨-, hsj⟩ | ⟨hskipped, hlt⟩
      · unfold Clean Settled at *
        rwa [hrow, hcoe]
      · exact absurd (hsj.trans hkj.symm) hsk
      · exact absurd ⟨hst, hkj ▸ hlt, hskipped⟩ hskip
  · have hst' := h.status
    rw [if_neg hst] at hst'
    refine ⟨hst' ▸ hst, hst' ▸ hcomp, fun s' hs' => ?_⟩
    obtain ⟨s, hs, -, hcoe, hrow⟩ := h.touched.rows.of_mem hs'
    by_cases hsk : s.ordinal = k
    · rw [if_pos hsk] at hrow
      exact Or.inl hrow
    · rw [if_neg hsk, if_neg fun hall => hst hall.1] at hrow
      have := hp.running hst s hs
      unfold Clean Settled at *
      rwa [hrow, hcoe]

/-! ## Sessions -/

/-- The operation reports a resolution of step `k` of plan `id` to the executor. -/
def WakesStep (id : String) (op : Op) (w : World) (k : ℕ) : Prop :=
  match op with
  | .onStepApproved _ approvalId => ∃ a, w.approval approvalId = some a ∧ gatesStep id k a = true
  | .onStepRejected _ approvalId => ∃ a, w.approval approvalId = some a ∧ gatesStep id k a = true
  | .resolve verdict approvalId _ _ => ∃ a, w.approval approvalId = some a ∧
      gatesStep id k a = true ∧ (verdict ≠ .override → a.status = .pending)
  | _ => False

def KeepsCompletion (id : String) (op : Op) (w : World) : Prop :=
  ∀ p, w.findById id = some p → ∀ step ∈ p.steps,
    (WakesStep id op w step.ordinal → p.status ≠ .completed ∧
      (p.status = .failed → step.continueOnError = true ∨ step.status = .failed)) ∧
    ((∃ orgId, op = .retryStep orgId id step.ordinal) → step.status = .failed →
      p.status ≠ .completed ∧ (p.status = .failed → step.continueOnError = false))

def Progressing (id : String) (w : World) : Prop :=
  ∃ p, w.findById id = some p ∧ Progress p

theorem progressing_of_report {id : String} {step : RemediationPlanStep} {w w₁ w' : World}
    {p p₁ : RemediationPlan} (hp : Progress p) (hmem : step ∈ p.steps)
    (hok : p.status ≠ .completed ∧
      (p.status = .failed → step.continueOnError = true ∨ step.status = .failed))
    (hex : Executed id step w w₁ p p₁) (hdr : Drive id w₁ w') : Progressing id w' := by
  refine hdr.progress hex.after ?_
  by_cases hst : p.status = .failed
  · exact hex.progress_failed hmem hp hst (hok.2 hst)
  · exact hex.progress hmem (hp.underway hst hok.1)

/-- **Every operation that keeps completion keeps the progress.** -/
theorem OpEffect.progressing {id : String} {op : Op} {w w' : World} (h : OpEffect id op w w')
    (hI : Progressing id w) (hok : KeepsCompletion id op w) : Progressing id w' := by
  obtain ⟨p, hrow, hp⟩ := hI
  -- `reject`, `cancel` and the sweep start from a plan underway and end one
  have hended : ∀ {p p' : RemediationPlan} {status : RemediationPlanStatus},
      w.findById id = some p → Progress p → p.status ≠ .failed → p.status ≠ .completed →
      Touched id w w' p p' (fun _ st => st) → p'.status = status → status ≠ .failed →
      status ≠ .completed → Progressing id w' := by
    intro p p' status _ hp hf hc ht hst hsf hsc
    exact ⟨p', ht.after, Underway.progress ⟨hst ▸ hsf, hst ▸ hsc, ht.rows.clean (hp.running hf)⟩⟩
  cases h with
  | aside h => exact ⟨p, h.row.trans hrow, hp⟩
  | approved h =>
    obtain ⟨w₁, q, p₁, hl, hdr⟩ := h
    cases hrow.symm.trans hl.before
    refine hdr.progress hl.after (Underway.progress ⟨?_, ?_, ?_⟩)
    · rw [hl.status]
      decide
    · rw [hl.status]
      decide
    · rw [hl.steps]
      exact hp.running (by rw [hl.pending]; decide)
  | rejected h =>
    cases hrow.symm.trans h.touched.before
    have hst : p.status = .pendingApproval := by simpa using h.allowed
    exact hended hrow hp (by rw [hst]; decide) (by rw [hst]; decide) h.touched h.status
      (by decide) (by decide)
  | cancelled h =>
    cases hrow.symm.trans h.touched.before
    have hst := h.allowed
    refine hended hrow hp ?_ ?_ h.touched h.status (by decide) (by decide)
    · rintro hf
      simp [hf] at hst
    · rintro hc
      simp [hc] at hst
  | expired h =>
    cases hrow.symm.trans h.touched.before
    exact hended hrow hp (by rw [h.pending]; decide) (by rw [h.pending]; decide) h.touched
      h.status (by decide) (by decide)
  | @stepApproved _ _ _ _ q step gates hid h =>
    obtain ⟨w₁, p₁, hex, hdr⟩ := h
    cases hrow.symm.trans hex.before
    obtain ⟨a, ha, -, -⟩ := gates.request
    exact progressing_of_report hp gates.mem
      ((hok p hrow step gates.mem).1 ⟨a, ha, hid ▸ gates.gatesStep ha⟩) hex hdr
  | @stepRejected _ _ _ _ q step gates hid h =>
    obtain ⟨w₁, p₁, hex, -, hdr⟩ := h
    cases hrow.symm.trans hex.before
    obtain ⟨a, ha, -, -⟩ := gates.request
    exact progressing_of_report hp gates.mem
      ((hok p hrow step gates.mem).1 ⟨a, ha, hid ▸ gates.gatesStep ha⟩) hex hdr
  | @retried orgId k _ _ h =>
    obtain ⟨w₁, w₂, q, p₁, p₂, target, hr, htarget, -, hex, hdr⟩ := h
    cases hrow.symm.trans hr.touched.before
    obtain ⟨step, hmem, hk, hfailed⟩ := hr.failed
    obtain ⟨hcomp, hhalts⟩ := (hok p hrow step hmem).2 ⟨orgId, by rw [hk]⟩ hfailed
    have hunder : Underway p₁ := by
      refine hr.underway hp hcomp fun hst s hs hsk => ?_
      rw [p.step_unique hs hmem (hsk.trans hk.symm)]
      exact hhalts hst
    exact hdr.progress hex.after (hex.progress htarget hunder)
  | resolvedAside _ _ stored h =>
    refine ⟨p, h.row.trans ?_, hp⟩
    rw [stored]
    exact hrow
  | @resolvedApproved verdict _ approvalId resolvedBy roles _ w₁ _ a q step found pending
      stored _ gates hid h =>
      obtain ⟨w₂, p₁, hex, hdr⟩ := h
      have hrow₁ : w₁.findById id = some p := by
        rw [stored]
        exact hrow
      cases hrow₁.symm.trans hex.before
      exact progressing_of_report hp gates.mem ((hok p hrow step gates.mem).1
        ⟨a, found, gates.gatesStep_resolved hid found stored, pending⟩) hex hdr
  | @resolvedRejected verdict _ approvalId resolvedBy roles _ w₁ _ a q step found pending
      stored _ gates hid h =>
      obtain ⟨w₂, p₁, hex, -, hdr⟩ := h
      have hrow₁ : w₁.findById id = some p := by
        rw [stored]
        exact hrow
      cases hrow₁.symm.trans hex.before
      exact progressing_of_report hp gates.mem ((hok p hrow step gates.mem).1
        ⟨a, found, gates.gatesStep_resolved hid found stored, pending⟩) hex hdr

/-! ## Operations on a completed plan -/

section Idle

variable {id : String} {w : World} {p : RemediationPlan} {o : PlanExecutorOptions}

/-- The section left the row of plan `id` as it is in `w`. -/
def Idle (id : String) (w : World) (_ t : World) : Prop := t.findById id = w.findById id

theorem idle_of_aside {α : Type} {prog : Prog World α} {t : World}
    (h : prog.Holds Eq (Aside id) (fun _ _ => True) t)
    (ht : t.findById id = w.findById id) :
    prog.Holds Eq (Idle id w) (fun _ _ => True) t :=
  (h.accumulate (Aside.refl id) fun _ _ _ => Aside.trans).mono (fun _ _ h => h)
    (fun _ _ ha => ha.row.trans ht) fun _ _ _ => trivial

theorem planForDecision_idle {α : Type} {orgId verb : String}
    {allowed : List RemediationPlanStatus} {k : RemediationPlan → Prog World α}
    (hrow : w.findById id = some p) (hst : p.status ∉ allowed) :
    (planForDecision orgId id allowed verb >>= k).Holds Eq (Idle id w) (fun _ _ => True) w := by
  have hread : Idle id w w w := rfl
  refine Holds.bind ((planForDecision_solo hread).post ?_)
  rintro (e | q) t ⟨-, hq⟩
  · trivial
  · obtain ⟨hq, -, hallowed⟩ := hq q rfl
    cases hrow.symm.trans hq
    exact absurd hallowed hst

theorem report_idle {α : Type} {orgId approvalId : String} {t : World}
    {k : RemediationPlan × RemediationPlanStep → Prog World α}
    (ht : t.findById id = w.findById id)
    (hother : ∀ q step, Gates t orgId approvalId q step → q.id ≠ id)
    (hk : ∀ q step, q.id ≠ id → (k (q, step)).Holds Eq (Aside id) (fun _ _ => True) t) :
    (findStepByApproval o orgId approvalId >>= k).Holds Eq (Idle id w)
      (fun _ _ => True) t := by
  refine Holds.bind ((findStepByApproval_solo ht).post ?_)
  rintro (e | ⟨q, step⟩) u ⟨hu, hgates⟩
  · trivial
  · rw [hu]
    exact idle_of_aside (hk q step (hother q step (hgates q step rfl))) ht

theorem onStepApproved_idle {orgId approvalId : String} {t : World}
    (ht : t.findById id = w.findById id)
    (hother : ∀ q step, Gates t orgId approvalId q step → q.id ≠ id) :
    (onStepApproved o orgId approvalId).Holds Eq (Idle id w) (fun _ _ => True) t := by
  refine report_idle ht hother fun q step hne => ?_
  exact approvedStep_each Aside.statements hne

theorem onStepRejected_idle {orgId approvalId : String} {t : World}
    (ht : t.findById id = w.findById id)
    (hother : ∀ q step, Gates t orgId approvalId q step → q.id ≠ id) :
    (onStepRejected o orgId approvalId).Holds Eq (Idle id w) (fun _ _ => True) t := by
  refine report_idle ht hother fun q step hne => ?_
  exact rejectedStep_each Aside.statements hne

theorem retryStep_idle {orgId : String} {k : ℕ} (hrow : w.findById id = some p)
    (hno : ∀ step ∈ p.steps, step.ordinal = k → step.status ≠ .failed) :
    (retryStep o orgId id k).Holds Eq (Idle id w) (fun _ _ => True) w := by
  unfold retryStep findByIdInOrg
  rw [holds_read_bind]
  rintro _ rfl
  refine ⟨rfl, ?_⟩
  cases hfind : w.findByIdInOrg orgId id with
  | none => trivial
  | some q =>
    obtain ⟨hq, -⟩ := World.findByIdInOrg_eq_some.mp hfind
    obtain rfl := Option.some.inj (hrow.symm.trans hq)
    dsimp only
    cases hstep : p.steps.find? (·.ordinal = k) with
    | none => trivial
    | some step =>
      have hne := hno step (List.mem_of_find?_eq_some hstep)
        (by simpa using List.find?_some hstep)
      dsimp only
      rw [if_pos hne]
      trivial

theorem onResolved_idle {request : ApprovalRequest} {t : World}
    (ht : t.findById id = w.findById id)
    (hother : ∀ orgId q step, Gates t orgId request.id q step → q.id ≠ id) :
    (onResolved o request).Holds Eq (Idle id w) (fun _ _ => True) t := by
  unfold onResolved
  split
  · trivial
  split
  · trivial
  unfold resumeExecutor findById
  cases request.context.planId with
  | none => trivial
  | some planId =>
    dsimp only
    rw [holds_read_bind]
    rintro _ rfl
    refine ⟨ht, ?_⟩
    cases t.findById planId with
    | none => trivial
    | some plan =>
      apply Holds.swallow
      cases request.status with
      | pending => trivial
      | expired => trivial
      | approved => exact Holds.discard (onStepApproved_idle ht (hother plan.orgId))
      | rejected => exact Holds.discard (onStepRejected_idle ht (hother plan.orgId))

/-- **An operation that keeps completion leaves a completed plan alone**, at each
of its sections. -/
theorem code_idle (listening : Bool) (op : Op) (hrow : w.findById id = some p)
    (hcomp : p.status = .completed) (hok : KeepsCompletion id op w) :
    (code o listening op).Holds Eq (Idle id w) (fun _ _ => True) w := by
  have hwakes : ∀ step ∈ p.steps, ¬ WakesStep id op w step.ordinal := fun step hs hw =>
    ((hok p hrow step hs).1 hw).1 hcomp
  cases op with
  | approve orgId planId autoEdit userId =>
    apply Holds.discard
    by_cases hid : planId = id
    · rw [hid]
      exact planForDecision_idle hrow (by rw [hcomp]; decide)
    · exact idle_of_aside (approve_each Aside.statements hid) rfl
  | reject orgId planId userId =>
    apply Holds.discard
    by_cases hid : planId = id
    · rw [hid]
      exact planForDecision_idle hrow (by rw [hcomp]; decide)
    · exact idle_of_aside (reject_each Aside.statements hid) rfl
  | cancel orgId planId userId =>
    apply Holds.discard
    by_cases hid : planId = id
    · rw [hid]
      exact planForDecision_idle hrow (by rw [hcomp]; decide)
    · exact idle_of_aside (cancel_each Aside.statements hid) rfl
  | onStepApproved orgId approvalId =>
    refine Holds.discard (onStepApproved_idle rfl ?_)
    intro q step hg hid
    obtain rfl := Option.some.inj (hrow.symm.trans (hid ▸ hg.row))
    obtain ⟨a, ha, -, -⟩ := hg.request
    exact hwakes step hg.mem ⟨a, ha, hid ▸ hg.gatesStep ha⟩
  | onStepRejected orgId approvalId =>
    refine Holds.discard (onStepRejected_idle rfl ?_)
    intro q step hg hid
    obtain rfl := Option.some.inj (hrow.symm.trans (hid ▸ hg.row))
    obtain ⟨a, ha, -, -⟩ := hg.request
    exact hwakes step hg.mem ⟨a, ha, hid ▸ hg.gatesStep ha⟩
  | retryStep orgId planId k =>
    apply Holds.discard
    by_cases hid : planId = id
    · rw [hid]
      refine retryStep_idle hrow fun step hs hk hfailed => ?_
      exact ((hok p hrow step hs).2 ⟨orgId, by rw [hid, hk]⟩ hfailed).1 hcomp
    · exact idle_of_aside (retryStep_each Aside.statements hid) rfl
  | resolve verdict approvalId resolvedBy roles =>
    have hplans : ∀ t t' : World, t'.plans = w.plans → Idle id w t t' := by
      intro t t' ht
      unfold Idle World.findById
      rw [ht]
    refine Holds.bind ((resolution_solo hplans).post ?_)
    rintro r w₁ (⟨rfl, rfl⟩ | ⟨a, ha, hpend, rfl, hw₁⟩)
    · trivial
    · have ht : w₁.findById id = w.findById id := by
        rw [hw₁]
        rfl
      dsimp only
      split
      · refine onResolved_idle ht ?_
        intro orgId q step hg hid
        have hg' : Gates w₁ orgId approvalId q step := World.approval_id ha ▸ hg
        obtain rfl := Option.some.inj (hrow.symm.trans (ht.symm.trans (hid ▸ hg'.row)))
        exact hwakes step hg'.mem
          ⟨a, ha, hg'.gatesStep_resolved hid ha hw₁, hpend⟩
      · trivial
  | expireStale now =>
    apply Holds.discard
    unfold expireStale
    rw [holds_atomic]
    rintro _ rfl
    refine ⟨?_, trivial⟩
    show (w.expireStale now).findById id = w.findById id
    rw [w.findById_expireStale, hrow, Option.map_some, if_neg (by simp [hcomp])]
  | setClock now =>
    rintro _ rfl
    exact ⟨rfl, trivial⟩

end Idle

/-! ## The result -/

def CompletedSettled (id : String) (w : World) : Prop :=
  ∀ p, w.findById id = some p → p.status = .completed → ∀ s ∈ p.steps, Settled s

theorem Progressing.completedSettled {id : String} {w : World} (h : Progressing id w) :
    CompletedSettled id w := by
  obtain ⟨p, hrow, hp⟩ := h
  intro q hq hc
  cases hrow.symm.trans hq
  exact hp.completed hc

theorem completedSettled_during {o : PlanExecutorOptions} {listening : Bool} {id : String}
    {op : Op} {w : World} (hI : Progressing id w) (hok : KeepsCompletion id op w) :
    ∀ t ∈ (code o listening op).trace w, CompletedSettled id t := by
  obtain ⟨p, hrow, hp⟩ := hI
  by_cases hcomp : p.status = .completed
  · -- the operation does nothing to the plan
    have hidle : ∀ t ∈ (code o listening op).trace w, t.findById id = w.findById id :=
      trace_of_holds (code_idle listening op hrow hcomp hok)
    intro t ht q hq hc
    rw [hidle t ht, hrow] at hq
    cases hq
    exact hp.completed hcomp
  · -- a section that shows the plan completed shows a final state
    have hdone : ∀ q, w.findById id = some q → q.status = .completed → False := by
      intro q hq hc
      cases hrow.symm.trans hq
      exact hcomp hc
    have heffect : (code o listening op).Holds Eq (fun _ t => CompletedSettled id t)
        (fun _ t => OpEffect id op w t) w := by
      refine code_effect op (fun t t' hwatch q hq hc => ?_) hdone
      have hfinal := (hwatch q hq hc).resolve_left not_false
      exact (hfinal.progressing ⟨p, hrow, hp⟩ hok).completedSettled q hq hc
    exact trace_of_holds heffect

theorem Fresh.progressing {id : String} {w : World} (h : Fresh id w) : Progressing id w := by
  obtain ⟨p, hrow, hst, hsteps⟩ := h.row
  refine ⟨p, hrow, Underway.progress ⟨?_, ?_, fun s hs => Or.inl (hsteps s hs)⟩⟩
  · rw [hst]
    decide
  · rw [hst]
    decide

/-- **Completed means settled.** In every session whose operations keep completion,
every state, between the operations and within one, that shows the plan completed
shows each of its steps done, or failed with `continueOnError`. -/
theorem completed_means_settled (o : PlanExecutorOptions) (listening : Bool) (id : String)
    (w₀ : World) (hfresh : Fresh id w₀) (w : World)
    (hrun : Serial (code o listening) (KeepsCompletion id) w₀ w) :
    CompletedSettled id w ∧ ∀ op, KeepsCompletion id op w →
      ∀ t ∈ (code o listening op).trace w, CompletedSettled id t := by
  have hinv : Progressing id w := by
    refine session_invariant id hfresh.progressing ?_ hrun
    intro op t t' hI hok heffect
    exact heffect.progressing hI hok
  exact ⟨hinv.completedSettled, fun op hok => completedSettled_during hinv hok⟩

instance : DecidablePred Settled := fun _ => inferInstanceAs (Decidable (_ ∨ _ ∧ _))

def commandStep (ordinal : ℕ) (argv : List String) (continueOnError : Bool) :
    RemediationPlanStep where
  ordinal := ordinal
  kind := "ops.run_command"
  commandText := ""
  paramsJson := [("argv", .arr (argv.map .str)), ("connectorId", .str "k8s-prod")]
  continueOnError := continueOnError
  status := .pending
  approvalRequestId := none
  executedAt := none
  outputText := none
  errorText := none

def restartPlan : RemediationPlan :=
  { oneStepPlan [] with
    steps := [commandStep 0 ["delete", "pod", "web-0"] true,
      commandStep 1 ["scale", "deploy/web"] false]
    ordered := by decide }

/-- Approved with auto-edit, it completes with that step failed. -/
theorem completed_means_settled_restart :
    let w := serveAll (code sampleOptions true)
      [.approve "org_main" "plan-1" true "ann"] (sampleWorld restartPlan)
    w.planStatus "plan-1" = some .completed ∧ CompletedSettled "plan-1" w := by
  have hfresh : Fresh "plan-1" (sampleWorld restartPlan) :=
    fresh_sampleWorld restartPlan rfl (by decide)
  refine ⟨by decide +kernel, (completed_means_settled sampleOptions true "plan-1" _ hfresh _
    (.serve _ .init ?_)).1⟩
  intro p _ step _
  exact ⟨fun hwakes => hwakes.elim, by rintro ⟨_, h⟩; cases h⟩

def cleanupPlan : RemediationPlan :=
  { oneStepPlan [] with
    steps := [commandStep 0 ["delete", "pod", "web-0"] true,
      commandStep 1 ["delete", "pod", "web-1"] false,
      commandStep 2 ["scale", "deploy/web"] false]
    ordered := by decide }

/-- **A retry completes a plan with a failed step.** Step 1 halts the plan; the
retry of step 0 takes back the skip of step 2 but not the failure of step 1. -/
theorem retry_completes_failed_plan :
    ¬ ∀ (o : PlanExecutorOptions) (listening : Bool) (id : String) (w₀ : World),
      Fresh id w₀ → ∀ w, Serial (code o listening) (fun _ _ => True) w₀ w →
        CompletedSettled id w := by
  intro h
  have hfresh : Fresh "plan-1" (sampleWorld cleanupPlan) :=
    fresh_sampleWorld cleanupPlan rfl (by decide)
  have hsettled := h sampleOptions true "plan-1" _ hfresh _
    (Serial.serveAll (fun _ _ => trivial)
      [.approve "org_main" "plan-1" true "ann", .retryStep "org_main" "plan-1" 0] .init)
  have hbad : ((serveAll (code sampleOptions true)
      [.approve "org_main" "plan-1" true "ann", .retryStep "org_main" "plan-1" 0]
      (sampleWorld cleanupPlan)).findById "plan-1").any (fun p =>
        p.status = .completed ∧ ∃ s ∈ p.steps, ¬ Settled s) = true := by
    decide +kernel
  obtain ⟨p, hp, hpred⟩ := (Option.any_eq_true _ _).mp hbad
  obtain ⟨hst, s, hs, hnot⟩ := of_decide_eq_true hpred
  exact hnot (hsettled p hp hst s hs)

end OpenObs.Plans
