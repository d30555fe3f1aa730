import OpenObs.Plans.Delivery

/-!
# The executor under interference

Every decision about a plan reads its status in one section and stores a new one in a later section,
whatever is stored by then.
-/

namespace OpenObs.Plans

open OpenObs.Foundation OpenObs.Approvals Prog

def finalStatuses : List RemediationPlanStatus := [.rejected, .expired, .cancelled, .completed]

def World.orgOf (w : World) (id : String) : Option String := (w.findById id).map (·.orgId)

def Final (id : String) (w : World) : Prop :=
  ∃ status ∈ finalStatuses, w.planStatus id = some status

def Over (id : String) (w : World) : Prop := Final id w ∨ w.planStatus id = some .failed

theorem final_congr {id : String} {w w' : World} (h : w'.planStatus id = w.planStatus id) :
    Final id w' ↔ Final id w := by
  unfold Final
  rw [h]

theorem over_congr {id : String} {w w' : World} (h : w'.planStatus id = w.planStatus id) :
    Over id w' ↔ Over id w := by
  unfold Over
  rw [final_congr h, h]

theorem not_over_of_status {id : String} {w : World} {status : RemediationPlanStatus}
    (h : w.planStatus id = some status) (hst : status ∉ .failed :: finalStatuses) :
    ¬ Over id w := by
  rintro (⟨st, hmem, hw⟩ | hw)
  · cases h.symm.trans hw
    exact hst (List.mem_cons_of_mem _ hmem)
  · cases h.symm.trans hw
    exact hst List.mem_cons_self

theorem planStatus_of_row {id : String} {w : World} {p : RemediationPlan}
    (h : w.findById id = some p) : w.planStatus id = some p.status := by
  rw [World.planStatus, h, Option.map_some]

/-! ## What a section may do -/

def ContextsKept (w w' : World) : Prop :=
  ∀ approvalId a, w.approval approvalId = some a →
    ∃ a', w'.approval approvalId = some a' ∧ a'.context = a.context

theorem ContextsKept.of_append {w w' : World} {as : List ApprovalRequest}
    (h : w'.approvals = w.approvals ++ as) : ContextsKept w w' := by
  intro approvalId a ha
  obtain ⟨a', ha', hctx, -⟩ := keeps_of_append h a ha
  exact ⟨a', ha', hctx⟩

theorem ContextsKept.of_eq {w w' : World} (h : w'.approvals = w.approvals) :
    ContextsKept w w' := .of_append (h.trans (List.append_nil _).symm)

theorem ContextsKept.trans {w w' w'' : World} (h₁ : ContextsKept w w')
    (h₂ : ContextsKept w' w'') : ContextsKept w w'' := by
  intro approvalId a ha
  obtain ⟨a', ha', hctx'⟩ := h₁ approvalId a ha
  obtain ⟨a'', ha'', hctx''⟩ := h₂ approvalId a' ha'
  exact ⟨a'', ha'', hctx''.trans hctx'⟩

/-- The section does not decide anything about plan `id`. -/
structure Neutral (id : String) (w w' : World) : Prop where
  org : w'.orgOf id = w.orgOf id
  contexts : ContextsKept w w'
  status : w'.planStatus id = w.planStatus id

/-- What an operation tolerates between its sections: the plan is not ended, and
a final status is not left. -/
structure Rely (id : String) (w w' : World) : Prop where
  org : w'.orgOf id = w.orgOf id
  contexts : ContextsKept w w'
  status : w'.planStatus id = w.planStatus id ∨ (¬ Final id w ∧ ¬ Over id w')

/-- What a section may do to plan `id`: a final status is not left, and a failed
plan is only reopened, by an operation that `retries`. -/
structure Moves (id : String) (retries : Prop) (w w' : World) : Prop where
  org : w'.orgOf id = w.orgOf id
  contexts : ContextsKept w w'
  status : w'.planStatus id = w.planStatus id ∨ ¬ Over id w ∨
    (retries ∧ w.planStatus id = some .failed ∧ ¬ Over id w')

theorem Neutral.refl (id : String) (w : World) : Neutral id w w := ⟨rfl, .of_eq rfl, rfl⟩

theorem Neutral.rely {id : String} {w w' : World} (h : Neutral id w w') : Rely id w w' :=
  ⟨h.org, h.contexts, Or.inl h.status⟩

theorem Neutral.moves {id : String} {retries : Prop} {w w' : World} (h : Neutral id w w') :
    Moves id retries w w' := ⟨h.org, h.contexts, Or.inl h.status⟩

theorem Aside.neutral {id : String} {w w' : World} (h : Aside id w w') : Neutral id w w' := by
  obtain ⟨as, has, -⟩ := h.approvals
  refine ⟨?_, .of_append has, ?_⟩
  · rw [World.orgOf, h.row]
    rfl
  · rw [World.planStatus, h.row]
    rfl

theorem Rely.refl (id : String) (w : World) : Rely id w w := (Neutral.refl id w).rely

theorem Rely.trans {id : String} {w w' w'' : World} (h₁ : Rely id w w')
    (h₂ : Rely id w' w'') : Rely id w w'' := by
  refine ⟨h₂.org.trans h₁.org, h₁.contexts.trans h₂.contexts, ?_⟩
  rcases h₁.status with hs₁ | ⟨hf₁, ho₁⟩
  · rcases h₂.status with hs₂ | ⟨hf₂, ho₂⟩
    · exact Or.inl (hs₂.trans hs₁)
    · exact Or.inr ⟨fun hf => hf₂ ((final_congr hs₁).mpr hf), ho₂⟩
  · rcases h₂.status with hs₂ | ⟨-, ho₂⟩
    · exact Or.inr ⟨hf₁, fun ho => ho₁ ((over_congr hs₂).mp ho)⟩
    · exact Or.inr ⟨hf₁, ho₂⟩

/-- What an operation tolerates that concerns plan `id` as long as `P` holds: requests
gate what they gated, and `Rely` while the plan is concerned. -/
structure Tolerates (id : String) (P : World → Prop) (w w' : World) : Prop where
  contexts : ContextsKept w w'
  rely : P w' → Rely id w w'

theorem Rely.tolerates {id : String} {P : World → Prop} {w w' : World} (h : Rely id w w') :
    Tolerates id P w w' := ⟨h.contexts, fun _ => h⟩

theorem Tolerates.trans {id : String} {P : World → Prop}
    (hP : ∀ w w', ContextsKept w w' → P w' → P w) {w w' w'' : World}
    (h₁ : Tolerates id P w w') (h₂ : Tolerates id P w' w'') : Tolerates id P w w'' :=
  ⟨h₁.contexts.trans h₂.contexts, fun hp =>
    (h₁.rely (hP _ _ h₂.contexts hp)).trans (h₂.rely hp)⟩

/-- The plan, of org `orgId`, is not final. -/
def NotFinal (orgId id : String) (w : World) : Prop :=
  ¬ Final id w ∧ w.orgOf id = some orgId

/-- The plan, of org `orgId`, is not over. -/
def NotOver (orgId id : String) (w : World) : Prop :=
  ¬ Over id w ∧ w.orgOf id = some orgId

theorem not_over_rely {id : String} {w w' : World} (hr : Rely id w w') (h : ¬ Over id w) :
    ¬ Over id w' := by
  rcases hr.status with hs | ⟨-, ho⟩
  · exact fun hover => h ((over_congr hs).mp hover)
  · exact ho

theorem not_final_rely {id : String} {w w' : World} (hr : Rely id w w') (h : ¬ Final id w) :
    ¬ Final id w' := by
  rcases hr.status with hs | ⟨-, ho⟩
  · exact fun hfinal => h ((final_congr hs).mp hfinal)
  · exact fun hfinal => ho (Or.inl hfinal)

theorem NotOver.rely {orgId id : String} (w w' : World) (hr : Rely id w w')
    (h : NotOver orgId id w) : NotOver orgId id w' :=
  ⟨not_over_rely hr h.1, hr.org.trans h.2⟩

theorem NotFinal.rely {orgId id : String} (w w' : World) (hr : Rely id w w')
    (h : NotFinal orgId id w) : NotFinal orgId id w' :=
  ⟨not_final_rely hr h.1, hr.org.trans h.2⟩

theorem NotOver.notFinal {orgId id : String} {w : World} (h : NotOver orgId id w) :
    NotFinal orgId id w := ⟨fun hf => h.1 (Or.inl hf), h.2⟩

theorem orgOf_of_find {orgId id : String} {w : World} {p : RemediationPlan}
    (h : w.findByIdInOrg orgId id = some p) : w.orgOf id = some orgId := by
  obtain ⟨hrow, horg⟩ := World.findByIdInOrg_eq_some.mp h
  rw [World.orgOf, hrow, Option.map_some, horg]

theorem find_of_orgOf {orgId id : String} {w : World} (h : w.orgOf id = some orgId) :
    ∃ p, w.findById id = some p ∧ p.orgId = orgId := by
  unfold World.orgOf at h
  simpa using h

/-! ## Sections that decide nothing -/

section Neutral

variable {R : World → World → Prop} {id : String} {w : World}

theorem neutral_of_map {w w' : World} {f : RemediationPlan → RemediationPlan}
    (hplans : w'.plans = w.plans.map f) (hid : ∀ p, (f p).id = p.id)
    (horg : ∀ p, (f p).orgId = p.orgId) (hst : ∀ p, (f p).status = p.status)
    (happr : w'.approvals = w.approvals) : Neutral id w w' := by
  have hfind : w'.findById id = (w.findById id).map f := by
    unfold World.findById
    rw [hplans]
    exact find?_map_row hid id w.plans
  refine ⟨?_, .of_eq happr, ?_⟩
  · rw [World.orgOf, hfind, Option.map_map, World.orgOf]
    congr 1
    funext p
    exact horg p
  · rw [World.planStatus, hfind, Option.map_map, World.planStatus]
    congr 1
    funext p
    exact hst p

theorem neutral_of_plans {w w' : World} (hplans : w'.plans = w.plans)
    (hctx : ContextsKept w w') : Neutral id w w' := by
  refine ⟨?_, hctx, ?_⟩
  · rw [World.orgOf, World.findById, hplans]
    rfl
  · rw [World.planStatus, World.findById, hplans]
    rfl

theorem writeStep_neutral {planId : String} (t : World) (k : ℕ)
    (patch : RemediationPlanStepPatch) : Neutral id t (t.writeStep planId k patch) := by
  have hkept : ∀ p : RemediationPlan,
      ((if p.id = planId then p.writeStep k patch else p).id = p.id ∧
        (if p.id = planId then p.writeStep k patch else p).orgId = p.orgId) ∧
        (if p.id = planId then p.writeStep k patch else p).status = p.status := by
    intro p
    split <;> exact ⟨⟨rfl, rfl⟩, rfl⟩
  exact neutral_of_map rfl (fun p => (hkept p).1.1) (fun p => (hkept p).1.2)
    (fun p => (hkept p).2) rfl

theorem updateStep_neutral {planId : String} {k : ℕ}
    {patch : String → RemediationPlanStepPatch} :
    (updateStep planId k patch).Holds R (Neutral id) (fun _ _ => True) w :=
  updateStep_each fun t patch => writeStep_neutral t k patch

theorem markSteps_neutral {planId : String} {status : RemediationPlanStepStatus}
    {xs : List RemediationPlanStep} :
    (markSteps planId status xs).Holds R (Neutral id) (fun _ _ => True) w :=
  markSteps_each writeStep_neutral

theorem callAdapter_neutral {o : PlanExecutorOptions} {plan : RemediationPlan}
    {step : RemediationPlanStep} {params : OpsRunCommandStepParams} :
    (callAdapter o plan step params).Holds R (Neutral id) (fun _ _ => True) w :=
  callAdapter_each (Neutral.refl id) fun _ => neutral_of_plans rfl (.of_eq rfl)

theorem requestApproval_neutral {o : PlanExecutorOptions} {orgId : String}
    {plan : RemediationPlan} {step : RemediationPlanStep} :
    (requestApproval o orgId plan step).Holds R (Neutral id) (fun _ _ => True) w :=
  requestApproval_each (Neutral.refl id)
    (fun _ _ => neutral_of_plans rfl (.of_append rfl)) writeStep_neutral

end Neutral

/-! ## The executor under interference -/

section Moves

variable {orgId id : String} {retries : Prop} {w : World} {o : PlanExecutorOptions}

theorem moves_of_neutral {α : Type} {prog : Prog World α} {P : World → Prop}
    (hP : ∀ s t, Rely id s t → P s → P t)
    (h : prog.Holds (Rely id) (Neutral id) (fun _ _ => True) w) (hw : P w) :
    prog.Holds (Rely id) (Moves id retries) (fun _ t => P t) w :=
  (h.stable hP (fun _ _ hn => hn.rely) hw).mono (fun _ _ h => h) (fun _ _ hn => hn.moves)
    fun _ _ hq => hq.2

theorem updatePlan_moves {patch : String → RemediationPlanPatch} {P : World → Prop}
    {status : RemediationPlanStatus} (hP : ∀ s t, Rely id s t → P s → P t)
    (horg : ∀ t, P t → t.orgOf id = some orgId) (hst : ∀ now, (patch now).status = some status)
    (hmove : ∀ t t', P t → t'.planStatus id = some status → ¬ Over id t ∨
      (retries ∧ t.planStatus id = some .failed ∧ ¬ Over id t')) (hw : P w) :
    (updatePlan orgId id patch).Holds (Rely id) (Moves id retries)
      (fun _ t => t.planStatus id = some status ∧ t.orgOf id = some orgId) w := by
  unfold updatePlan
  rw [holds_read_bind]
  intro t hwt
  have ht : P t := hP _ _ hwt hw
  refine ⟨(Neutral.refl id t).moves, ?_⟩
  obtain ⟨p, hrow, hporg⟩ := find_of_orgOf (horg t ht)
  have hfind : t.findByIdInOrg orgId id = some p :=
    World.findByIdInOrg_eq_some.mpr ⟨hrow, hporg⟩
  simp only [hfind]
  rw [holds_atomic]
  -- the patch was completed from the row of `t` and lands on the row of `u`
  intro u htu
  have hu : P u := hP _ _ htu ht
  obtain ⟨q, hrowu, hqorg⟩ := find_of_orgOf (horg u hu)
  have hafter : (u.writePlan orgId id p (patch t.now)).findById id =
      some (q.write p (patch t.now)) := World.findById_writePlan hrowu hqorg
  have hstatus : (u.writePlan orgId id p (patch t.now)).planStatus id = some status := by
    rw [planStatus_of_row hafter]
    simp [RemediationPlan.write, hst]
  have horg' : (u.writePlan orgId id p (patch t.now)).orgOf id = some orgId := by
    rw [World.orgOf, hafter, Option.map_some]
    exact congrArg some hqorg
  exact ⟨⟨horg'.trans (horg u hu).symm, .of_eq rfl, Or.inr (hmove u _ hu hstatus)⟩,
    hstatus, horg'⟩

theorem updatePlan_open {patch : String → RemediationPlanPatch}
    {status : RemediationPlanStatus} (hst : ∀ now, (patch now).status = some status)
    (hw : NotOver orgId id w) :
    (updatePlan orgId id patch).Holds (Rely id) (Moves id retries)
      (fun _ t => t.planStatus id = some status ∧ t.orgOf id = some orgId) w :=
  updatePlan_moves NotOver.rely (fun _ h => h.2) hst (fun _ _ h _ => Or.inl h.1) hw

theorem notOver_of_status {status : RemediationPlanStatus}
    (h : w.planStatus id = some status ∧ w.orgOf id = some orgId)
    (hst : status ∉ .failed :: finalStatuses) : NotOver orgId id w :=
  ⟨not_over_of_status h.1 hst, h.2⟩

theorem notFinal_of_failed (h : w.planStatus id = some .failed ∧ w.orgOf id = some orgId) :
    NotFinal orgId id w := by
  refine ⟨?_, h.2⟩
  rintro ⟨status, hmem, hst⟩
  cases h.1.symm.trans hst
  exact absurd hmem (by decide)

theorem haltPlan_moves {k : ℕ} {reason : String} (hw : NotOver orgId id w) :
    (haltPlan orgId id k reason).Holds (Rely id) (Moves id retries)
      (fun _ t => NotFinal orgId id t) w := by
  have hfail : ∀ t, NotOver orgId id t →
      (updatePlan orgId id (fun _ => { status := some .failed }) >>= fun _ =>
        pure (PlanExecutorOutcome.failed k reason)).Holds (Rely id) (Moves id retries)
        (fun _ t => NotFinal orgId id t) t := by
    intro t ht
    refine Holds.bind ((updatePlan_open (fun _ => rfl) ht).post ?_)
    rintro (e | a) u hu
    · exact notFinal_of_failed hu
    · exact notFinal_of_failed hu
  unfold haltPlan findByIdInOrg
  rw [holds_read_bind]
  intro t hwt
  have ht := NotOver.rely _ _ hwt hw
  refine ⟨(Neutral.refl id t).moves, ?_⟩
  cases t.findByIdInOrg orgId id with
  | none => exact hfail t ht
  | some fresh =>
    refine Holds.bind ((moves_of_neutral NotOver.rely markSteps_neutral ht).post ?_)
    rintro (e | a) u hu
    · exact hu.notFinal
    · exact hfail u hu

theorem failStep_moves {plan : RemediationPlan} {step : RemediationPlanStep}
    {errorText : Option String} {reason : String} (hid : plan.id = id)
    (horg : plan.orgId = orgId) (hw : NotOver orgId id w) :
    (failStep plan step errorText reason).Holds (Rely id) (Moves id retries)
      (fun _ t => NotFinal orgId id t) w := by
  unfold failStep
  refine Holds.bind ((moves_of_neutral NotOver.rely updateStep_neutral hw).post ?_)
  rintro (e | a) t ht
  · exact ht.notFinal
  · dsimp only
    split
    · exact ht.notFinal
    · rw [hid, horg]
      exact Holds.discard (haltPlan_moves ht)

theorem executeStep_moves {plan : RemediationPlan} {step : RemediationPlanStep}
    (hid : plan.id = id) (horg : plan.orgId = orgId) (hw : NotOver orgId id w) :
    (executeStep o plan step).Holds (Rely id) (Moves id retries)
      (fun _ t => NotFinal orgId id t) w := by
  unfold executeStep
  refine Holds.bind ((moves_of_neutral NotOver.rely updateStep_neutral hw).post ?_)
  rintro (e | a) t ht
  · exact ht.notFinal
  cases readOpsRunCommandParams step with
  | none => exact failStep_moves hid horg ht
  | some params =>
    refine Holds.bind ((moves_of_neutral NotOver.rely callAdapter_neutral ht).post ?_)
    rintro (e | result) u hu
    · exact hu.notFinal
    cases result with
    | error e => exact failStep_moves hid horg hu
    | ok result =>
      dsimp only
      split
      · refine Holds.discard
          ((moves_of_neutral NotOver.rely updateStep_neutral hu).post ?_)
        exact fun _ _ h => h.notFinal
      · exact failStep_moves hid horg hu

theorem runNext_moves (fuel : ℕ) :
    ∀ {w : World}, ¬ Final id w →
      (runNext o orgId id fuel).Holds (Rely id) (Moves id retries) (fun _ _ => True) w := by
  induction fuel with
  | zero => exact fun _ => trivial
  | succ fuel ih =>
    intro w hw
    unfold runNext findByIdInOrg
    rw [holds_read_bind]
    intro t hwt
    have ht := not_final_rely hwt hw
    refine ⟨(Neutral.refl id t).moves, ?_⟩
    cases hfind : t.findByIdInOrg orgId id with
    | none => trivial
    | some plan =>
      obtain ⟨hrow, horg⟩ := World.findByIdInOrg_eq_some.mp hfind
      dsimp only
      by_cases hf : plan.status = .failed
      · rw [if_pos hf]
        trivial
      rw [if_neg hf]
      -- neither final nor failed in the section that looks, so what is stored
      -- later is stored over an open plan
      have hopen : NotOver orgId id t := by
        refine ⟨?_, orgOf_of_find hfind⟩
        rintro (hfinal | hfailed)
        · exact ht hfinal
        · rw [planStatus_of_row hrow] at hfailed
          exact hf (Option.some.inj hfailed)
      split
      · trivial
      cases plan.steps.find? (·.status = .pending) with
      | none =>
        refine Holds.bind ((updatePlan_open (fun _ => rfl) hopen).post ?_)
        rintro (e | a) u - <;> trivial
      | some next =>
        dsimp only
        split
        · refine Holds.bind ((executeStep_moves (World.findById_id hrow) horg
            hopen).post ?_)
          rintro (e | a) u hu
          · trivial
          · exact ih hu.1
        · exact (requestApproval_neutral.mono (fun _ _ h => h)
            (fun _ _ hn => hn.moves) fun _ _ h => h)

end Moves

end OpenObs.Plans
