import OpenObs.Plans.Executor

/-!
# What the executor does when nobody interferes

The private methods of the executor run alone (`Holds Eq`): `Executed` says all that a run of
`executeStep` does to the stored state, `Requested` all that a pause does, and `runNext_solo` is the
induction rule of the drive loop.
-/

namespace OpenObs.Plans

open OpenObs.Foundation OpenObs.Approvals Prog

/-! ## Rewriting the rows of a plan -/

abbrev StatusMap : Type := ℕ → RemediationPlanStepStatus → RemediationPlanStepStatus

/-- `p'` is `p` with the statuses of its steps rewritten by `g`; the plan's own
status is not looked at. -/
structure Rewrites (p p' : RemediationPlan) (g : StatusMap) : Prop where
  orgId : p'.orgId = p.orgId
  autoEdit : p'.autoEdit = p.autoEdit
  steps : ∃ f : RemediationPlanStep → RemediationPlanStep, p'.steps = p.steps.map f ∧
    ∀ s, (f s).ordinal = s.ordinal ∧ (f s).kind = s.kind ∧
      (f s).paramsJson = s.paramsJson ∧ (f s).continueOnError = s.continueOnError ∧
      (s ∈ p.steps → (f s).status = g s.ordinal s.status)

theorem Rewrites.refl (p : RemediationPlan) : Rewrites p p fun _ st => st :=
  ⟨rfl, rfl, fun s => s, by simp, fun _ => ⟨rfl, rfl, rfl, rfl, fun _ => rfl⟩⟩

theorem Rewrites.trans {p q r : RemediationPlan} {g h : StatusMap}
    (hpq : Rewrites p q g) (hqr : Rewrites q r h) :
    Rewrites p r fun j st => h j (g j st) := by
  obtain ⟨f₁, hf₁, h₁⟩ := hpq.steps
  obtain ⟨f₂, hf₂, h₂⟩ := hqr.steps
  refine ⟨hqr.orgId.trans hpq.orgId, hqr.autoEdit.trans hpq.autoEdit, f₂ ∘ f₁, ?_, ?_⟩
  · rw [hf₂, hf₁, List.map_map]
  · intro s
    obtain ⟨ho₁, hk₁, hp₁, hc₁, hs₁⟩ := h₁ s
    obtain ⟨ho₂, hk₂, hp₂, hc₂, hs₂⟩ := h₂ (f₁ s)
    refine ⟨ho₂.trans ho₁, hk₂.trans hk₁, hp₂.trans hp₁, hc₂.trans hc₁, fun hs => ?_⟩
    have hmem : f₁ s ∈ q.steps := hf₁ ▸ List.mem_map_of_mem hs
    rw [Function.comp_apply, hs₂ hmem, ho₁, hs₁ hs]

theorem Rewrites.congr {p q : RemediationPlan} {g h : StatusMap} (hpq : Rewrites p q g)
    (hgh : ∀ s ∈ p.steps, g s.ordinal s.status = h s.ordinal s.status) :
    Rewrites p q h := by
  obtain ⟨f, hf, hstep⟩ := hpq.steps
  refine ⟨hpq.orgId, hpq.autoEdit, f, hf, fun s => ?_⟩
  obtain ⟨ho, hk, hp, hc, hs⟩ := hstep s
  exact ⟨ho, hk, hp, hc, fun hmem => (hs hmem).trans (hgh s hmem)⟩

theorem Rewrites.of_mem {p q : RemediationPlan} {g : StatusMap} (h : Rewrites p q g)
    {s' : RemediationPlanStep} (hs' : s' ∈ q.steps) :
    ∃ s ∈ p.steps, s'.ordinal = s.ordinal ∧ s'.continueOnError = s.continueOnError ∧
      s'.status = g s.ordinal s.status := by
  obtain ⟨f, hf, hstep⟩ := h.steps
  rw [hf] at hs'
  obtain ⟨s, hs, rfl⟩ := List.mem_map.mp hs'
  obtain ⟨ho, -, -, hc, hst⟩ := hstep s
  exact ⟨s, hs, ho, hc, hst hs⟩

theorem rewrites_writeStep (p : RemediationPlan) (k : ℕ) (patch : RemediationPlanStepPatch) :
    Rewrites p (p.writeStep k patch)
      fun j st => if j = k then patch.status.getD st else st := by
  refine ⟨rfl, rfl, fun s => if s.ordinal = k then s.write patch else s, rfl, fun s => ?_⟩
  by_cases hs : s.ordinal = k <;> simp [hs, RemediationPlanStep.write]

theorem rewrites_write {p : RemediationPlan} {patch : RemediationPlanPatch}
    (h : patch.autoEdit = none) : Rewrites p (p.write p patch) fun _ st => st := by
  refine ⟨rfl, by simp [RemediationPlan.write, h], fun s => s, by
    simp [RemediationPlan.write], fun _ => ⟨rfl, rfl, rfl, rfl, fun _ => rfl⟩⟩

theorem RemediationPlan.step_unique {p : RemediationPlan} {s t : RemediationPlanStep}
    (hs : s ∈ p.steps) (ht : t ∈ p.steps) (h : s.ordinal = t.ordinal) : s = t := by
  have hnodup : (p.steps.map (·.ordinal)).Nodup :=
    p.ordered.imp fun hab => Nat.ne_of_lt hab
  exact List.inj_on_of_nodup_map hnodup hs ht h

theorem RemediationPlan.ordinal_mem_filter {p : RemediationPlan} {s : RemediationPlanStep}
    {P : RemediationPlanStep → Prop} [DecidablePred P] (hs : s ∈ p.steps) :
    s.ordinal ∈ (p.steps.filter fun t => P t).map (·.ordinal) ↔ P s := by
  constructor
  · intro hin
    obtain ⟨t, ht, hts⟩ := List.mem_map.mp hin
    obtain ⟨htmem, hcond⟩ := List.mem_filter.mp ht
    rw [← RemediationPlan.step_unique htmem hs hts]
    exact of_decide_eq_true hcond
  · intro hcond
    exact List.mem_map.mpr ⟨s, List.mem_filter.mpr ⟨hs, decide_eq_true hcond⟩, rfl⟩

/-! ## Effects on the stored state -/

/-- Between `w` and `w'` the row of plan `id` changed from `p` to `p'`, by `g`,
and no request was created or resolved. -/
structure Touched (id : String) (w w' : World) (p p' : RemediationPlan) (g : StatusMap) :
    Prop where
  before : w.findById id = some p
  after : w'.findById id = some p'
  rows : Rewrites p p' g
  approvals : w'.approvals = w.approvals

theorem Touched.refl {id : String} {w : World} {p : RemediationPlan}
    (h : w.findById id = some p) : Touched id w w p p fun _ st => st :=
  ⟨h, h, Rewrites.refl p, rfl⟩

theorem Touched.trans {id : String} {w w' w'' : World} {p p' p'' : RemediationPlan}
    {g h : StatusMap} (h₁ : Touched id w w' p p' g) (h₂ : Touched id w' w'' p' p'' h) :
    Touched id w w'' p p'' fun j st => h j (g j st) :=
  ⟨h₁.before, h₂.after, h₁.rows.trans h₂.rows, h₂.approvals.trans h₁.approvals⟩

theorem Touched.congr {id : String} {w w' : World} {p p' : RemediationPlan}
    {g h : StatusMap} (ht : Touched id w w' p p' g)
    (hgh : ∀ s ∈ p.steps, g s.ordinal s.status = h s.ordinal s.status) :
    Touched id w w' p p' h :=
  { ht with rows := ht.rows.congr hgh }

theorem touched_writeStep {id : String} {w : World} {p : RemediationPlan} (k : ℕ)
    (patch : RemediationPlanStepPatch) (h : w.findById id = some p) :
    Touched id w (w.writeStep id k patch) p (p.writeStep k patch)
      fun j st => if j = k then patch.status.getD st else st :=
  ⟨h, World.findById_writeStep h, rewrites_writeStep p k patch, rfl⟩

theorem touched_writePlan {id : String} {w : World} {p : RemediationPlan}
    (patch : RemediationPlanPatch) (h : w.findById id = some p)
    (hauto : patch.autoEdit = none) :
    Touched id w (w.writePlan p.orgId id p patch) p (p.write p patch) fun _ st => st :=
  ⟨h, World.findById_writePlan h rfl, rewrites_write hauto, rfl⟩

/-- The row of plan `id` is there, with the given status or failed: what every
section of `executeStep` and `haltPlan` leaves behind. -/
def During (id : String) (status : RemediationPlanStatus) (w : World) : Prop :=
  ∃ p, w.findById id = some p ∧ (p.status = status ∨ p.status = .failed)

section Private

variable {G : World → World → Prop} {id : String} {w : World} {p : RemediationPlan}

theorem updatePlan_solo {patch : String → RemediationPlanPatch}
    (h : w.findById id = some p) (hread : G w w)
    (hwrite : G w (w.writePlan p.orgId id p (patch w.now))) :
    (updatePlan p.orgId id patch).Holds Eq G
      (fun r w' => (∃ a, r = .ok a) ∧ w' = w.writePlan p.orgId id p (patch w.now) ∧
        w'.findById id = some (p.write p (patch w.now))) w := by
  have hfind : w.findByIdInOrg p.orgId id = some p :=
    World.findByIdInOrg_eq_some.mpr ⟨h, rfl⟩
  unfold updatePlan
  rw [holds_read_bind]
  rintro _ rfl
  refine ⟨hread, ?_⟩
  simp only [hfind]
  rw [holds_atomic]
  rintro _ rfl
  exact ⟨hwrite, ⟨_, rfl⟩, rfl, World.findById_writePlan h rfl⟩

theorem markSteps_solo (status : RemediationPlanStepStatus) (xs : List RemediationPlanStep)
    (hG : ∀ t t', During id p.status t' → G t t') (h : w.findById id = some p) :
    (markSteps id status xs).Holds Eq G
      (fun r w' => r = .ok () ∧ w'.calls = w.calls ∧ ∃ p', p'.status = p.status ∧
        Touched id w w' p p' fun j st => if j ∈ xs.map (·.ordinal) then status else st) w := by
  induction xs generalizing w p with
  | nil => exact ⟨rfl, rfl, p, rfl, (Touched.refl h).congr (by simp)⟩
  | cons s xs ih =>
    have hstep := touched_writeStep s.ordinal { status := some status } h
    show ∀ t, w = t → G t (t.writeStep id s.ordinal { status := some status }) ∧
      (markSteps id status xs).Holds Eq G _
        (t.writeStep id s.ordinal { status := some status })
    rintro _ rfl
    have hG' : ∀ t t',
        During id (p.writeStep s.ordinal { status := some status }).status t' → G t t' := hG
    refine ⟨hG _ _ ⟨_, hstep.after, Or.inl rfl⟩, ?_⟩
    refine (ih hG' hstep.after).post ?_
    rintro r w' ⟨hr, hcalls, p', hst, htouched⟩
    refine ⟨hr, hcalls, p', hst, (hstep.trans htouched).congr fun t _ => ?_⟩
    by_cases ht : t.ordinal = s.ordinal <;> simp [ht]

theorem haltPlan_solo {k : ℕ} {reason : String}
    (hG : ∀ t t', During id p.status t' → G t t') (h : w.findById id = some p) :
    (haltPlan p.orgId id k reason).Holds Eq G
      (fun r w' => r = .ok (.failed k reason) ∧ w'.calls = w.calls ∧
        ∃ p', p'.status = .failed ∧ Touched id w w' p p' fun j st =>
          if k < j ∧ st = .pending then .skipped else st) w := by
  have hfind : w.findByIdInOrg p.orgId id = some p :=
    World.findByIdInOrg_eq_some.mpr ⟨h, rfl⟩
  unfold haltPlan findByIdInOrg
  rw [holds_read_bind]
  rintro _ rfl
  refine ⟨hG _ _ ⟨p, h, Or.inl rfl⟩, ?_⟩
  simp only [hfind]
  refine Holds.bind ((markSteps_solo .skipped _ hG h).post ?_)
  rintro r w₁ ⟨rfl, hcalls₁, p₁, hst₁, ht₁⟩
  have hG₁ : ∀ t t', During id p₁.status t' → G t t' := fun t t' hd => hG t t' (hst₁ ▸ hd)
  have ht₂ := touched_writePlan { status := some .failed } ht₁.after rfl
  rw [← ht₁.rows.orgId]
  refine Holds.bind ((updatePlan_solo ht₁.after (hG₁ _ _ ⟨p₁, ht₁.after, Or.inl rfl⟩)
    (hG₁ _ _ ⟨_, ht₂.after, Or.inr rfl⟩)).post ?_)
  rintro r w₂ ⟨⟨a, rfl⟩, rfl, -⟩
  refine ⟨rfl, hcalls₁, _, rfl, (ht₁.trans ht₂).congr fun s hs => ?_⟩
  simp only [RemediationPlan.ordinal_mem_filter hs]

/-- A call of step `k` of plan `id`, made while its row had this status. -/
structure CallOf (id : String) (k : ℕ) (status : RemediationPlanStatus)
    (approvals : List ApprovalRequest) (c : AdapterCall) : Prop where
  planId : c.planId = id
  ordinal : c.ordinal = k
  planStatus : c.planStatus = some status
  approvals : c.approvals = approvals

/-- All that a run of `executeStep` alone does: the step ends as `done` or
`failed`, a failure halts the plan unless the step continues on error, and the
adapter is called at most once. -/
structure Executed (id : String) (step : RemediationPlanStep) (w w' : World)
    (p p' : RemediationPlan) : Prop where
  outcome : ∃ final, (final = .done ∨ final = .failed) ∧
    let halts := final = .failed ∧ step.continueOnError = false
    (p'.status = if halts then .failed else p.status) ∧
    Touched id w w' p p' fun j st =>
      if j = step.ordinal then final
      else if halts ∧ step.ordinal < j ∧ st = .pending then .skipped else st
  calls : ∃ cs, w'.calls = w.calls ++ cs ∧ cs.length ≤ 1 ∧
    ∀ c ∈ cs, CallOf id step.ordinal p.status w.approvals c

theorem failStep_solo {plan : RemediationPlan} {step : RemediationPlanStep}
    {errorText : Option String} {reason : String}
    (hG : ∀ t t', During id p.status t' → G t t') (h : w.findById id = some p)
    (hid : plan.id = id) (horg : plan.orgId = p.orgId) :
    (failStep plan step errorText reason).Holds Eq G
      (fun r w' => r = .ok () ∧ w'.calls = w.calls ∧
        ∃ p', (p'.status = if step.continueOnError = false then .failed else p.status) ∧
        Touched id w w' p p' fun j st =>
          if j = step.ordinal then .failed
          else if step.continueOnError = false ∧ step.ordinal < j ∧ st = .pending
            then .skipped else st) w := by
  have hw := touched_writeStep step.ordinal
    { status := some .failed, errorText := some errorText } h
  unfold failStep updateStep
  rw [holds_atomic_bind, hid, horg]
  rintro _ rfl
  refine ⟨hG _ _ ⟨_, hw.after, Or.inl rfl⟩, ?_⟩
  cases hc : step.continueOnError with
  | true =>
    refine ⟨rfl, rfl, _, by simp, hw.congr fun s _ => ?_⟩
    simp
  | false =>
    have hG₁ : ∀ t t', During id (p.writeStep step.ordinal
        { status := some .failed, errorText := some errorText }).status t' → G t t' := hG
    refine Holds.bind ((haltPlan_solo hG₁ hw.after).post ?_)
    rintro r w' ⟨rfl, hcalls, p', hst, ht⟩
    refine ⟨rfl, hcalls, p', by simpa using hst, (hw.trans ht).congr fun s _ => ?_⟩
    by_cases hs : s.ordinal = step.ordinal <;> simp [hs]

theorem callAdapter_solo {o : PlanExecutorOptions} {plan : RemediationPlan}
    {step : RemediationPlanStep} {params : OpsRunCommandStepParams}
    (hG : ∀ t t', During id p.status t' → G t t') (h : w.findById id = some p) :
    (callAdapter o plan step params).Holds Eq G
      (fun r w' => (∃ result, r = .ok result) ∧
        (w' = w ∨ w' = w.recordCall plan.id step.ordinal params)) w := by
  have hd : During id p.status w := ⟨p, h, Or.inl rfl⟩
  have hd' : During id p.status (w.recordCall plan.id step.ordinal params) :=
    ⟨p, h, Or.inl rfl⟩
  unfold callAdapter
  apply Holds.tryCatch
  rw [holds_attempt_bind]
  rintro _ rfl
  refine ⟨hG _ _ hd, ?_⟩
  cases o.adapterFor w plan step with
  | error e => exact ⟨⟨_, rfl⟩, Or.inl rfl⟩
  | ok adapter =>
    dsimp only
    rw [holds_write_bind]
    rintro _ rfl
    refine ⟨hG _ _ hd', ?_⟩
    rw [holds_attempt_bind]
    rintro _ rfl
    refine ⟨hG _ _ hd', ?_⟩
    cases adapter.execute (w.recordCall plan.id step.ordinal params) params with
    | error e => exact ⟨⟨_, rfl⟩, Or.inr rfl⟩
    | ok result => exact ⟨⟨_, rfl⟩, Or.inr rfl⟩

structure Started (id : String) (step : RemediationPlanStep) (w w' : World)
    (p p' : RemediationPlan) : Prop where
  status : p'.status = p.status
  touched : Touched id w w' p p' fun j st => if j = step.ordinal then .executing else st
  calls : ∃ cs, w'.calls = w.calls ++ cs ∧ cs.length ≤ 1 ∧
    ∀ c ∈ cs, CallOf id step.ordinal p.status w.approvals c

theorem Started.recordCall {step : RemediationPlanStep} {params : OpsRunCommandStepParams}
    {w₁ : World} {p₁ : RemediationPlan} (hs : Started id step w w₁ p p₁)
    (hcalls : w₁.calls = w.calls) :
    Started id step w (w₁.recordCall id step.ordinal params) p p₁ := by
  have hafter : w₁.plans.find? (·.id = id) = some p₁ := hs.touched.after
  refine ⟨hs.status, { hs.touched with }, [_], by rw [World.recordCall, hcalls], le_refl 1, ?_⟩
  intro c hc
  rw [List.mem_singleton.mp hc]
  refine ⟨rfl, rfl, ?_, hs.touched.approvals⟩
  rw [AdapterCall.planStatus, hafter, Option.map_some, hs.status]

theorem failStep_started {plan : RemediationPlan} {step : RemediationPlanStep}
    {errorText : Option String} {reason : String} {w₁ : World} {p₁ : RemediationPlan}
    (hG : ∀ t t', During id p.status t' → G t t') (hs : Started id step w w₁ p p₁)
    (hid : plan.id = id) (horg : plan.orgId = p.orgId) :
    (failStep plan step errorText reason).Holds Eq G
      (fun r w' => r = .ok () ∧ ∃ p', Executed id step w w' p p') w₁ := by
  have hG₁ : ∀ t t', During id p₁.status t' → G t t' := fun t t' hd => hG t t' (hs.status ▸ hd)
  have horg₁ : plan.orgId = p₁.orgId := horg.trans hs.touched.rows.orgId.symm
  refine (failStep_solo hG₁ hs.touched.after hid horg₁).post ?_
  rintro r w' ⟨rfl, hcalls, p', hst, ht⟩
  refine ⟨rfl, p', ⟨.failed, Or.inr rfl, ?_, ?_⟩, ?_⟩
  · rw [hst, hs.status]
    simp
  · refine (hs.touched.trans ht).congr fun s _ => ?_
    by_cases hk : s.ordinal = step.ordinal <;> simp [hk]
  · rw [hcalls]
    exact hs.calls

theorem doneStep_started {step : RemediationPlanStep} {outputText : Option (Option String)}
    {w₁ : World} {p₁ : RemediationPlan} (hG : ∀ t t', During id p.status t' → G t t')
    (hs : Started id step w w₁ p p₁) :
    (updateStep id step.ordinal (fun _ => { status := some .done, outputText := outputText })
      >>= fun _ => pure ()).Holds Eq G
      (fun r w' => r = .ok () ∧ ∃ p', Executed id step w w' p p') w₁ := by
  have hdone := touched_writeStep step.ordinal
    { status := some .done, outputText := outputText } hs.touched.after
  unfold updateStep
  rw [holds_atomic_bind]
  rintro _ rfl
  refine ⟨hG _ _ ⟨_, hdone.after, Or.inl hs.status⟩, rfl, p₁.writeStep step.ordinal
    { status := some .done, outputText := outputText }, ⟨.done, Or.inl rfl, ?_, ?_⟩, hs.calls⟩
  · simpa using hs.status
  · refine (hs.touched.trans hdone).congr fun s _ => ?_
    by_cases hk : s.ordinal = step.ordinal <;> simp [hk]

/-- **A step run alone.** -/
theorem executeStep_solo {o : PlanExecutorOptions} {plan : RemediationPlan}
    {step : RemediationPlanStep} (hG : ∀ t t', During id p.status t' → G t t')
    (h : w.findById id = some p) (hid : plan.id = id) (horg : plan.orgId = p.orgId) :
    (executeStep o plan step).Holds Eq G
      (fun r w' => r = .ok () ∧ ∃ p', Executed id step w w' p p') w := by
  have hw := touched_writeStep step.ordinal
    { status := some .executing, executedAt := some (some w.now) } h
  have hstart : Started id step w
      (w.writeStep id step.ordinal
        { status := some .executing, executedAt := some (some w.now) }) p
      (p.writeStep step.ordinal
        { status := some .executing, executedAt := some (some w.now) }) :=
    ⟨rfl, hw, [], (List.append_nil _).symm, by simp, by simp⟩
  unfold executeStep updateStep
  rw [holds_atomic_bind, hid]
  rintro _ rfl
  refine ⟨hG _ _ ⟨_, hw.after, Or.inl rfl⟩, ?_⟩
  cases readOpsRunCommandParams step with
  | none => exact failStep_started hG hstart hid horg
  | some params =>
    have hG₁ : ∀ t t', During id (p.writeStep step.ordinal
      { status := some .executing, executedAt := some (some w.now) }).status t' →
        G t t' := hG
    refine Holds.bind ((callAdapter_solo hG₁ hw.after).post ?_)
    rintro r w₂ ⟨⟨result, rfl⟩, hw₂⟩
    have hstart₂ : Started id step w w₂ p (p.writeStep step.ordinal
        { status := some .executing, executedAt := some (some w.now) }) := by
      rcases hw₂ with rfl | rfl
      · exact hstart
      · rw [hid]
        exact hstart.recordCall rfl
    cases result with
    | error e => exact failStep_started hG hstart₂ hid horg
    | ok result =>
      dsimp only
      by_cases hsucc : result.success = true
      · rw [if_pos hsucc]
        exact doneStep_started hG hstart₂
      · rw [if_neg hsucc]
        exact failStep_started hG hstart₂ hid horg

/-- All that a pause does: at most one request is created, for the given step,
and the step is pointed at it. -/
structure Requested (id : String) (step : RemediationPlanStep) (w w' : World)
    (p : RemediationPlan) : Prop where
  row : ∃ p', w'.findById id = some p' ∧ p'.status = p.status ∧
    Rewrites p p' fun _ st => st
  approvals : w'.approvals = w.approvals ∨
    ∃ a, w'.approvals = w.approvals ++ [a] ∧ a.context.planId = some id ∧
      a.context.stepOrdinal = some step.ordinal ∧ a.status = .pending
  calls : w'.calls = w.calls

theorem submit_solo {rt : Runtime} {params : SubmitParams} (hread : G w w)
    (hinsert : G w (w.insertApproval (newRequest rt params w))) :
    (submit rt params).Holds Eq G
      (fun r w' => (∃ e, r = .error e ∧ w' = w) ∨
        (r = .ok (newRequest rt params w) ∧
          w' = w.insertApproval (newRequest rt params w))) w := by
  unfold submit
  rw [holds_attempt]
  rintro _ rfl
  by_cases htaken : (w.approval (newRequest rt params w).id).isSome = true
  · simp only [htaken, if_true]
    exact ⟨hread, Or.inl ⟨_, rfl, trivial⟩⟩
  · simp only [htaken]
    exact ⟨hinsert, Or.inr ⟨rfl, rfl⟩⟩

theorem requestApproval_solo {o : PlanExecutorOptions} {orgId : String}
    {step : RemediationPlanStep} (hG : ∀ t t', During id p.status t' → G t t')
    (h : w.findById id = some p) :
    (requestApproval o orgId p step).Holds Eq G
      (fun _ w' => Requested id step w w' p) w := by
  have hd : During id p.status w := ⟨p, h, Or.inl rfl⟩
  have hid : p.id = id := World.findById_id h
  have hsame : Requested id step w w p :=
    ⟨⟨p, h, rfl, Rewrites.refl p⟩, Or.inl rfl, rfl⟩
  -- the insert and the update of the step, from any outcome of the team lookup
  have hsubmit : ∀ team, (submit o.runtime (stepApproval p step team) >>= fun submitted => do
      let _ ← updateStep p.id step.ordinal fun _ =>
        { approvalRequestId := some (some submitted.id) }
      pure (PlanExecutorOutcome.pausedForApproval step.ordinal submitted.id)).Holds Eq G
      (fun _ w' => Requested id step w w' p) w := by
    intro team
    refine Holds.bind ((submit_solo (hG _ _ hd) (hG _ _ ⟨p, h, Or.inl rfl⟩)).post ?_)
    rintro r w₁ (⟨e, rfl, rfl⟩ | ⟨rfl, rfl⟩)
    · exact hsame
    · have hrow : (w.insertApproval (newRequest o.runtime (stepApproval p step team) w)).findById
          id = some p := h
      have hw := touched_writeStep step.ordinal { approvalRequestId := some (some
        (newRequest o.runtime (stepApproval p step team) w).id) } hrow
      unfold updateStep
      dsimp only
      rw [holds_atomic_bind, hid]
      rintro _ rfl
      refine ⟨hG _ _ ⟨_, hw.after, Or.inl rfl⟩, ⟨_, hw.after, rfl, ?_⟩,
        Or.inr ⟨newRequest o.runtime (stepApproval p step team) w, rfl, ?_, rfl, rfl⟩, rfl⟩
      · exact hw.rows.congr fun s _ => by simp
      · exact congrArg some hid
  unfold requestApproval
  by_cases hwired : o.approvals = false
  · rw [if_pos hwired]
    exact hsame
  · rw [if_neg hwired]
    cases o.resolveRequesterTeamId with
    | none => exact hsubmit none
    | some lookup =>
      dsimp only
      rw [holds_attempt_bind]
      rintro _ rfl
      refine ⟨hG _ _ hd, ?_⟩
      cases lookup w orgId p.investigationId with
      | error e => exact hsame
      | ok team => exact hsubmit team

/-- **The rule of the drive loop.** `I` is what holds whenever `runNext` reads
the plan; executing a step keeps it, and each of the ways to stop ends in `Q`. -/
theorem runNext_solo {o : PlanExecutorOptions} {orgId : String} {I Q : World → Prop}
    (hread : ∀ t, I t → G t t) (hstop : ∀ t, I t → Q t)
    (hexec : ∀ t q next, I t → t.findById id = some q → q.orgId = orgId →
      q.status ≠ .failed → q.status ≠ .cancelled → q.autoEdit = true →
      next ∈ q.steps → next.status = .pending →
      (executeStep o q next).Holds Eq G (fun r t' => r = .ok () ∧ I t') t)
    (hcomplete : ∀ t q, I t → t.findById id = some q → q.orgId = orgId →
      q.status ≠ .failed → q.status ≠ .cancelled → (∀ s ∈ q.steps, s.status ≠ .pending) →
      G t (t.writePlan q.orgId id q { status := some .completed }) ∧
        Q (t.writePlan q.orgId id q { status := some .completed }))
    (hpause : ∀ t q next, I t → t.findById id = some q → q.orgId = orgId →
      q.status ≠ .failed → q.status ≠ .cancelled → q.autoEdit = false →
      next ∈ q.steps → next.status = .pending →
      (requestApproval o orgId q next).Holds Eq G (fun _ t' => Q t') t) :
    ∀ (fuel : ℕ) (t : World), I t →
      (runNext o orgId id fuel).Holds Eq G (fun _ t' => Q t') t := by
  intro fuel
  induction fuel with
  | zero => exact fun t ht => hstop t ht
  | succ fuel ih =>
    intro t ht
    unfold runNext findByIdInOrg
    rw [holds_read_bind]
    rintro _ rfl
    refine ⟨hread t ht, ?_⟩
    cases hfind : t.findByIdInOrg orgId id with
    | none => exact hstop t ht
    | some q =>
      obtain ⟨hrow, horg⟩ := World.findByIdInOrg_eq_some.mp hfind
      dsimp only
      by_cases hf : q.status = .failed
      · rw [if_pos hf]
        exact hstop t ht
      rw [if_neg hf]
      by_cases hc : q.status = .cancelled
      · rw [if_pos hc]
        exact hstop t ht
      rw [if_neg hc]
      cases hnext : q.steps.find? (·.status = .pending) with
      | none =>
        have hno : ∀ s ∈ q.steps, s.status ≠ .pending := by
          simpa using List.find?_eq_none.mp hnext
        obtain ⟨hg, hq⟩ := hcomplete t q ht hrow horg hf hc hno
        subst horg
        refine Holds.bind ((updatePlan_solo hrow (hread t ht) hg).post ?_)
        rintro r w' ⟨⟨a, rfl⟩, rfl, -⟩
        exact hq
      | some next =>
        have hmem : next ∈ q.steps := List.mem_of_find?_eq_some hnext
        have hpend : next.status = .pending := by simpa using List.find?_some hnext
        dsimp only
        by_cases hauto : q.autoEdit = true
        · rw [if_pos hauto]
          refine Holds.bind ((hexec t q next ht hrow horg hf hc hauto hmem hpend).post ?_)
          rintro r t' ⟨rfl, ht'⟩
          exact ih t' ht'
        · rw [if_neg hauto]
          have hauto' : q.autoEdit = false := by simpa using hauto
          exact hpause t q next ht hrow horg hf hc hauto' hmem hpend

end Private

end OpenObs.Plans
