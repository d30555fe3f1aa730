import OpenObs.Foundation.Pool
import OpenObs.Plans.Interference

/-!
# Terminal statuses under interleaving

A status is kept only if no other operation on the plan is under way when a terminal status is
stored, and if reports and retries of steps do not start on a plan that is over.
-/

namespace OpenObs.Plans

open OpenObs.Foundation OpenObs.Approvals Prog

/-! ## The public methods under interference -/

section Public

variable {orgId id : String} {retries : Prop} {w : World} {o : PlanExecutorOptions}

theorem planForDecision_moves {allowed : List RemediationPlanStatus} {verb : String}
    (hallowed : ∀ status ∈ allowed, status ∉ .failed :: finalStatuses) :
    (planForDecision orgId id allowed verb).Holds (Rely id) (Moves id retries)
      (fun r t => ∀ p, r = .ok p → NotOver orgId id t) w := by
  unfold planForDecision findByIdInOrg
  rw [holds_read_bind]
  intro t _
  refine ⟨(Neutral.refl id t).moves, ?_⟩
  cases hfind : t.findByIdInOrg orgId id with
  | none => exact fun p hp => by cases hp
  | some plan =>
    obtain ⟨hrow, -⟩ := World.findByIdInOrg_eq_some.mp hfind
    dsimp only
    by_cases hst : plan.status ∈ allowed
    · rw [if_pos hst]
      exact fun p _ => notOver_of_status ⟨planStatus_of_row hrow, orgOf_of_find hfind⟩
        (hallowed _ hst)
    · rw [if_neg hst]
      exact fun p hp => by cases hp

theorem approve_moves {autoEdit : Bool} {userId : String} :
    (approve o orgId id autoEdit userId).Holds (Rely id) (Moves id retries)
      (fun _ _ => True) w := by
  unfold approve
  refine Holds.bind ((planForDecision_moves (by decide)).post ?_)
  rintro (e | p) t ht
  · trivial
  refine Holds.bind ((updatePlan_open (fun _ => rfl) (ht p rfl)).post ?_)
  rintro (e | a) u hu
  · trivial
  have hopen : NotOver orgId id u := notOver_of_status hu (by decide)
  refine Holds.bind ((updatePlan_open (fun _ => rfl) hopen).post ?_)
  rintro (e | a) v hv
  · trivial
  have hopen' : NotOver orgId id v := notOver_of_status hv (by decide)
  exact runNext_moves o.fuel hopen'.notFinal.1

theorem endPlan_moves {allowed : List RemediationPlanStatus} {verb userId : String}
    {status : RemediationPlanStatus}
    (hallowed : ∀ status ∈ allowed, status ∉ .failed :: finalStatuses) :
    (planForDecision orgId id allowed verb >>= fun _ => endPlan orgId id status userId).Holds
      (Rely id) (Moves id retries) (fun _ _ => True) w := by
  refine Holds.bind ((planForDecision_moves hallowed).post ?_)
  rintro (e | p) t ht
  · trivial
  · exact (updatePlan_open (fun _ => rfl) (ht p rfl)).post fun _ _ _ => trivial

theorem aside_moves {α : Type} {R : World → World → Prop} {prog : Prog World α} {t : World}
    (h : prog.Holds R (Aside id) (fun _ _ => True) t) :
    prog.Holds R (Moves id retries) (fun _ _ => True) t :=
  h.mono (fun _ _ h => h) (fun _ _ ha => ha.neutral.moves) fun _ _ h => h

/-- The request `approvalId` gates a step of plan `id`. -/
def DoesGate (id approvalId : String) (w : World) : Prop :=
  ∃ a, w.approval approvalId = some a ∧ gatesPlan a id

/-- The request gates a step of plan `id`, or is not there yet. -/
def MayGate (id approvalId : String) (w : World) : Prop :=
  ∀ a, w.approval approvalId = some a → gatesPlan a id

/-- Whatever the request `approvalId` gates, it is no step of a plan `id` that is
over. -/
def Reportable (id approvalId : String) (w : World) : Prop :=
  ¬ Over id w ∨ ∃ a, w.approval approvalId = some a ∧ ¬ gatesPlan a id

theorem DoesGate.kept {approvalId : String} {w w' : World} (hk : ContextsKept w w')
    (h : DoesGate id approvalId w) : DoesGate id approvalId w' := by
  obtain ⟨a, ha, hgates⟩ := h
  obtain ⟨a', ha', hctx⟩ := hk approvalId a ha
  refine ⟨a', ha', ?_⟩
  unfold gatesPlan at *
  rwa [hctx]

theorem DoesGate.mayGate {approvalId : String} {w : World} (h : DoesGate id approvalId w) :
    MayGate id approvalId w := by
  obtain ⟨a, ha, hgates⟩ := h
  intro b hb
  cases ha.symm.trans hb
  exact hgates

theorem MayGate.of_kept {approvalId : String} (w w' : World) (hk : ContextsKept w w')
    (h : MayGate id approvalId w') : MayGate id approvalId w := by
  intro a ha
  obtain ⟨a', ha', hctx⟩ := hk approvalId a ha
  have hgates := h a' ha'
  unfold gatesPlan at *
  rwa [← hctx]

theorem Reportable.not_over {approvalId : String} {w : World} (h : Reportable id approvalId w)
    (hgate : MayGate id approvalId w) : ¬ Over id w := by
  rcases h with h | ⟨a, ha, hnot⟩
  · exact h
  · exact absurd (hgate a ha) hnot

theorem Reportable.tolerates {approvalId : String} (w w' : World)
    (ht : Tolerates id (MayGate id approvalId) w w') (h : Reportable id approvalId w) :
    Reportable id approvalId w' := by
  by_cases hgate : MayGate id approvalId w'
  · have hopen := h.not_over (MayGate.of_kept w w' ht.contexts hgate)
    exact Or.inl (not_over_rely (ht.rely hgate) hopen)
  · obtain ⟨a, hnot⟩ := not_forall.mp hgate
    exact Or.inr ⟨a, Classical.not_imp.mp hnot⟩

theorem holds_of_gated {α : Type} {approvalId : String} {prog : Prog World α} {t : World}
    (hgated : DoesGate id approvalId t)
    (h : prog.Holds (Rely id) (Moves id retries) (fun _ _ => True) t) :
    prog.Holds (Tolerates id (MayGate id approvalId)) (Moves id retries)
      (fun _ _ => True) t := by
  refine Holds.within (I := DoesGate id approvalId) ?_
    (fun _ _ hI hm => hI.kept hm.contexts) hgated h
  intro s u hs hu
  have hgated := hs.kept hu.contexts
  exact ⟨hu.rely hgated.mayGate, hgated⟩

theorem findStepByApproval_moves {approvalId : String} (hw : Reportable id approvalId w) :
    (findStepByApproval o orgId approvalId).Holds (Tolerates id (MayGate id approvalId))
      (Moves id retries)
      (fun r t => ∀ p step, r = .ok (p, step) → p.id = id →
        p.orgId = orgId ∧ NotOver orgId id t ∧ DoesGate id approvalId t) w := by
  unfold findStepByApproval Approvals.findById findByIdInOrg
  by_cases hwired : o.approvals = false
  · rw [if_pos hwired]
    exact fun p step h => by cases h
  rw [if_neg hwired, holds_read_bind]
  intro t hwt
  have ht := Reportable.tolerates _ _ hwt hw
  refine ⟨(Neutral.refl id t).moves, ?_⟩
  cases ha : t.approval approvalId with
  | none => exact fun p step h => by cases h
  | some a =>
    dsimp only
    cases hplan : a.context.planId with
    | none => exact fun p step h => by cases h
    | some planId =>
      cases hord : a.context.stepOrdinal with
      | none => exact fun p step h => by cases h
      | some ordinal =>
        dsimp only
        rw [holds_read_bind]
        intro u htu
        refine ⟨(Neutral.refl id u).moves, ?_⟩
        cases hfind : u.findByIdInOrg orgId planId with
        | none => exact fun p step h => by cases h
        | some p =>
          obtain ⟨hrow, horg⟩ := World.findByIdInOrg_eq_some.mp hfind
          dsimp only
          cases p.steps.find? (·.ordinal = ordinal) with
          | none => exact fun p step h => by cases h
          | some step =>
            intro p' step' h hid
            cases h
            have hpid : planId = id := (World.findById_id hrow).symm.trans hid
            subst hpid
            -- the request gates this plan, so the plan was not over
            have hgated : DoesGate planId approvalId t :=
              ⟨a, ha, hplan, by rw [hord]; rfl⟩
            have hgated' := hgated.kept htu.contexts
            have hopen := not_over_rely (htu.rely hgated'.mayGate)
              (ht.not_over hgated.mayGate)
            exact ⟨horg, ⟨hopen, orgOf_of_find hfind⟩, hgated'⟩

theorem onStepApproved_moves {approvalId : String} (hw : Reportable id approvalId w) :
    (onStepApproved o orgId approvalId).Holds (Tolerates id (MayGate id approvalId))
      (Moves id retries) (fun _ _ => True) w := by
  unfold onStepApproved
  refine Holds.bind ((findStepByApproval_moves hw).post ?_)
  rintro (e | ⟨p, step⟩) t ht
  · trivial
  dsimp only
  by_cases hid : p.id = id
  · obtain ⟨horg, hopen, hgated⟩ := ht p step rfl hid
    refine holds_of_gated hgated (Holds.bind ((executeStep_moves hid horg hopen).post ?_))
    rintro (e | a) u hu
    · trivial
    · dsimp only
      rw [hid]
      exact runNext_moves o.fuel hu.1
  · exact aside_moves (approvedStep_each Aside.statements hid)

theorem onStepRejected_moves {approvalId : String} (hw : Reportable id approvalId w) :
    (onStepRejected o orgId approvalId).Holds (Tolerates id (MayGate id approvalId))
      (Moves id retries) (fun _ _ => True) w := by
  unfold onStepRejected
  refine Holds.bind ((findStepByApproval_moves hw).post ?_)
  rintro (e | ⟨p, step⟩) t ht
  · trivial
  dsimp only
  by_cases hid : p.id = id
  · obtain ⟨horg, hopen, hgated⟩ := ht p step rfl hid
    refine holds_of_gated hgated (Holds.bind ((moves_of_neutral NotOver.rely
      updateStep_neutral hopen).post ?_))
    rintro (e | a) u hu
    · trivial
    dsimp only
    rw [hid]
    split
    · exact runNext_moves o.fuel hu.notFinal.1
    · exact (haltPlan_moves hu).post fun _ _ _ => trivial
  · exact aside_moves (rejectedStep_each Aside.statements hid)

theorem resetForRetry_moves {plan : RemediationPlan} {k : ℕ} (hretries : retries)
    (hw : NotFinal orgId id w) (hopen : plan.status ≠ .failed → NotOver orgId id w) :
    (resetForRetry orgId plan id k).Holds (Rely id) (Moves id retries)
      (fun r t => r = .ok () → NotOver orgId id t) w := by
  unfold resetForRetry
  by_cases hf : plan.status = .failed
  · refine Holds.bind ((moves_of_neutral NotFinal.rely updateStep_neutral hw).post ?_)
    rintro (e | a) t ht
    · exact fun h => by cases h
    dsimp only
    rw [if_pos hf]
    refine Holds.bind ((moves_of_neutral NotFinal.rely markSteps_neutral ht).post ?_)
    rintro (e | a) u hu
    · exact fun h => by cases h
    refine Holds.bind ((updatePlan_moves NotFinal.rely (fun _ h => h.2) (fun _ => rfl) ?_
      hu).post ?_)
    · intro s s' hs hs'
      by_cases hover : Over id s
      · exact Or.inr ⟨hretries, hover.resolve_left hs.1, not_over_of_status hs' (by decide)⟩
      · exact Or.inl hover
    · rintro (e | a) v hv
      · exact fun h => by cases h
      · exact fun _ => notOver_of_status hv (by decide)
  · refine Holds.bind
      ((moves_of_neutral NotOver.rely updateStep_neutral (hopen hf)).post ?_)
    rintro (e | a) t ht
    · exact fun h => by cases h
    · dsimp only
      rw [if_neg hf]
      exact fun _ => ht

theorem retryStep_moves {k : ℕ} (hretries : retries) (hw : ¬ Final id w) :
    (retryStep o orgId id k).Holds (Rely id) (Moves id retries) (fun _ _ => True) w := by
  unfold retryStep findByIdInOrg
  rw [holds_read_bind]
  intro t hwt
  have ht := not_final_rely hwt hw
  refine ⟨(Neutral.refl id t).moves, ?_⟩
  cases hfind : t.findByIdInOrg orgId id with
  | none => trivial
  | some plan =>
    obtain ⟨hrow, horg⟩ := World.findByIdInOrg_eq_some.mp hfind
    -- only a failed plan is reopened; any other one that is found is open
    have hopen : plan.status ≠ .failed → NotOver orgId id t := by
      intro hf
      refine ⟨?_, orgOf_of_find hfind⟩
      rintro (hfinal | hfailed)
      · exact ht hfinal
      · rw [planStatus_of_row hrow] at hfailed
        exact hf (Option.some.inj hfailed)
    dsimp only
    cases plan.steps.find? (·.ordinal = k) with
    | none => trivial
    | some step =>
      dsimp only
      by_cases hst : step.status ≠ .failed
      · rw [if_pos hst]
        trivial
      rw [if_neg hst]
      refine Holds.bind ((resetForRetry_moves hretries ⟨ht, orgOf_of_find hfind⟩
        hopen).post ?_)
      rintro (e | a) u hu
      · trivial
      have hu := hu rfl
      dsimp only
      rw [holds_read_bind]
      intro v huv
      have hv := NotOver.rely _ _ huv hu
      refine ⟨(Neutral.refl id v).moves, ?_⟩
      cases hfindv : v.findByIdInOrg orgId id with
      | none => trivial
      | some refreshed =>
        obtain ⟨hrowv, horgv⟩ := World.findByIdInOrg_eq_some.mp hfindv
        dsimp only
        cases refreshed.steps.find? (·.ordinal = k) with
        | none => trivial
        | some target =>
          refine Holds.bind ((executeStep_moves (World.findById_id hrowv) horgv
            hv).post ?_)
          rintro (e | a) x hx
          · trivial
          · exact runNext_moves o.fuel hx.1

end Public

/-! ## Resolutions and the sweep under interference -/

section Whole

variable {id : String} {w : World} {o : PlanExecutorOptions}

theorem contextsKept_resolve {t : World} {approvalId resolvedBy : String}
    {status : ApprovalStatus} {roles : Option (List String)} :
    ContextsKept t (t.resolveApproval approvalId status resolvedBy roles) := by
  intro target a ha
  by_cases htarget : target = approvalId
  · subst htarget
    exact ⟨_, World.approval_resolveApproval ha, rfl⟩
  · exact ⟨a, (World.approval_resolveApproval_ne htarget).trans ha, rfl⟩

theorem resolution_neutral {R : World → World → Prop} {verdict : Verdict}
    {approvalId resolvedBy : String} {roles : Option (List String)} :
    (resolution verdict approvalId resolvedBy roles).Holds R (Neutral id)
      (fun r _ => ∀ request, r = .ok (some request) → request.id = approvalId) w := by
  have hresolve : ∀ status t, (announce (resolve approvalId status resolvedBy roles)).Holds R
      (Neutral id) (fun r _ => ∀ request, r = .ok (some request) → request.id = approvalId)
      t := by
    intro status t
    unfold announce resolve
    rw [holds_atomic_bind]
    intro u _
    refine ⟨neutral_of_plans rfl contextsKept_resolve, ?_⟩
    dsimp only
    cases ha : (u.resolveApproval approvalId status resolvedBy roles).approval approvalId with
    | none => exact fun request h => by cases h
    | some request =>
      dsimp only
      unfold notify
      rw [holds_write_bind]
      intro v _
      refine ⟨neutral_of_plans rfl (.of_eq rfl), fun request' h => ?_⟩
      cases h
      exact World.approval_id ha
  have hpending : ∀ status t, (announce (resolvePending status approvalId resolvedBy
      roles)).Holds R (Neutral id)
      (fun r _ => ∀ request, r = .ok (some request) → request.id = approvalId) t := by
    intro status t
    unfold resolvePending Approvals.findById
    rw [announce_bind, holds_read_bind]
    intro u _
    refine ⟨Neutral.refl id u, ?_⟩
    cases u.approval approvalId with
    | none => exact fun request h => by cases h
    | some a =>
      dsimp only
      split
      · exact hresolve status u
      · exact fun request h => by cases h
  cases verdict with
  | approve => exact hpending .approved w
  | reject => exact hpending .rejected w
  | override => exact hresolve .approved w

theorem onResolved_moves {retries : Prop} {request : ApprovalRequest}
    (hw : Reportable id request.id w) :
    (onResolved o request).Holds (Tolerates id (MayGate id request.id)) (Moves id retries)
      (fun _ _ => True) w := by
  unfold onResolved
  split
  · trivial
  split
  · trivial
  unfold resumeExecutor findById
  cases request.context.planId with
  | none => trivial
  | some planId =>
    dsimp only
    rw [holds_read_bind]
    intro t hwt
    have ht := Reportable.tolerates _ _ hwt hw
    refine ⟨(Neutral.refl id t).moves, ?_⟩
    cases t.findById planId with
    | none => trivial
    | some plan =>
      apply Holds.swallow
      cases request.status with
      | pending => trivial
      | expired => trivial
      | approved => exact Holds.discard (onStepApproved_moves ht)
      | rejected => exact Holds.discard (onStepRejected_moves ht)

theorem expireStale_moves {R : World → World → Prop} {retries : Prop} {now : String} :
    (expireStale now).Holds R (Moves id retries) (fun _ _ => True) w := by
  unfold expireStale
  rw [holds_atomic]
  intro t _
  refine ⟨?_, trivial⟩
  have hafter := t.findById_expireStale now id
  cases hrow : t.findById id with
  | none =>
    rw [hrow, Option.map_none, ← hrow] at hafter
    exact (Aside.neutral (.of_eq hafter rfl rfl)).moves
  | some p =>
    rw [hrow, Option.map_some] at hafter
    by_cases hstale : p.status = .pendingApproval ∧ p.expiresAt ≤ now
    · rw [if_pos hstale] at hafter
      refine ⟨?_, .of_eq rfl, Or.inr (Or.inl ?_)⟩
      · rw [World.orgOf, World.orgOf, hafter, hrow]
        rfl
      · refine not_over_of_status (planStatus_of_row hrow) ?_
        rw [hstale.1]
        decide
    · rw [if_neg hstale, ← hrow] at hafter
      exact (Aside.neutral (.of_eq hafter rfl rfl)).moves

def StartsInTime (id : String) (op : Op) (w : World) : Prop :=
  match op with
  | .onStepApproved _ approvalId => Reportable id approvalId w
  | .onStepRejected _ approvalId => Reportable id approvalId w
  | .resolve _ approvalId _ _ => Reportable id approvalId w
  | .retryStep _ planId _ => planId = id → ¬ Final id w
  | _ => True

def RetriesPlan (id : String) (op : Op) : Prop := ∃ orgId k, op = .retryStep orgId id k

/-- The operation decides about plan `id`, or reports on a request that gates it or
may come to. -/
def Concerns (id : String) (op : Op) (w : World) : Prop :=
  match op with
  | .approve _ planId _ _ => planId = id
  | .reject _ planId _ => planId = id
  | .cancel _ planId _ => planId = id
  | .retryStep _ planId _ => planId = id
  | .onStepApproved _ approvalId => MayGate id approvalId w
  | .onStepRejected _ approvalId => MayGate id approvalId w
  | .resolve _ approvalId _ _ => MayGate id approvalId w
  | .expireStale _ => False
  | .setClock _ => False

theorem Concerns.of_kept (op : Op) (w w' : World) (hk : ContextsKept w w')
    (h : Concerns id op w') : Concerns id op w := by
  cases op with
  | onStepApproved orgId approvalId => exact MayGate.of_kept w w' hk h
  | onStepRejected orgId approvalId => exact MayGate.of_kept w w' hk h
  | resolve verdict approvalId resolvedBy roles => exact MayGate.of_kept w w' hk h
  | _ => exact h

theorem decision_moves {α : Type} {planId : String} {retries : Prop} {prog : Prog World α}
    (hon : planId = id → prog.Holds (Rely id) (Moves id retries) (fun _ _ => True) w)
    (haside : planId ≠ id → prog.Holds (Tolerates id fun _ => planId = id) (Aside id)
      (fun _ _ => True) w) :
    prog.Holds (Tolerates id fun _ => planId = id) (Moves id retries) (fun _ _ => True) w := by
  by_cases hid : planId = id
  · exact (hon hid).mono (fun _ _ ht => ht.rely hid) (fun _ _ h => h) fun _ _ h => h
  · exact aside_moves (haside hid)

/-- **Every operation started in time keeps its guarantee**, whatever the others do
that it tolerates. -/
theorem code_moves (listening : Bool) (op : Op) (hw : StartsInTime id op w) :
    (code o listening op).Holds (Tolerates id (Concerns id op))
      (Moves id (RetriesPlan id op)) (fun _ _ => True) w := by
  cases op with
  | approve orgId planId autoEdit userId =>
    refine Holds.discard (decision_moves ?_ fun hid => approve_each Aside.statements hid)
    rintro rfl
    exact approve_moves
  | reject orgId planId userId =>
    refine Holds.discard (decision_moves ?_ fun hid => reject_each Aside.statements hid)
    rintro rfl
    exact endPlan_moves (by decide)
  | cancel orgId planId userId =>
    refine Holds.discard (decision_moves ?_ fun hid => cancel_each Aside.statements hid)
    rintro rfl
    exact endPlan_moves (by decide)
  | retryStep orgId planId k =>
    refine Holds.discard (decision_moves ?_ fun hid => retryStep_each Aside.statements hid)
    rintro rfl
    exact retryStep_moves ⟨orgId, k, rfl⟩ (hw rfl)
  | onStepApproved orgId approvalId => exact Holds.discard (onStepApproved_moves hw)
  | onStepRejected orgId approvalId => exact Holds.discard (onStepRejected_moves hw)
  | resolve verdict approvalId resolvedBy roles =>
    have hresolution : (resolution verdict approvalId resolvedBy roles).Holds
        (Tolerates id (MayGate id approvalId)) (Neutral id)
        (fun r t => (∀ request, r = .ok (some request) → request.id = approvalId) ∧
          Reportable id approvalId t) w :=
      resolution_neutral.stable Reportable.tolerates (fun _ _ hn => hn.rely.tolerates) hw
    refine Holds.bind (hresolution.mono (fun _ _ h => h) (fun _ _ hn => hn.moves) ?_)
    rintro (e | request) t ⟨hrequest, ht⟩
    · trivial
    cases request with
    | none => trivial
    | some request =>
      dsimp only
      obtain rfl := hrequest request rfl
      split
      · exact onResolved_moves ht
      · trivial
  | expireStale now => exact Holds.discard expireStale_moves
  | setClock now =>
    intro t _
    have hn : Neutral id t { t with now := now } := neutral_of_plans rfl (.of_eq rfl)
    exact ⟨hn.moves, trivial⟩

end Whole

/-! ## The result -/

/-- The condition on the steps of a run: operations start in time, and the section
that ends the plan is executed while no other operation that concerns the plan has
one left. -/
def InOrder (o : PlanExecutorOptions) (listening : Bool) (id : String)
    (c : Config World Op Unit) (l : Label Op) : Prop :=
  match l with
  | .start op => StartsInTime id op c.st
  | .step i => ∀ c', c.next (code o listening) (.step i) = some c' →
      ¬ Over id c.st → Over id c'.st → c.others i fun op => ¬ Concerns id op c.st

section Runs

variable {o : PlanExecutorOptions} {listening : Bool} {id : String}
  {c₀ c : Config World Op Unit}

theorem rely_of_moves {retries : Prop} {w w' : World} (h : Moves id retries w w')
    (horder : ¬ Over id w → ¬ Over id w') : Rely id w w' := by
  refine ⟨h.org, h.contexts, ?_⟩
  rcases h.status with hs | hopen | ⟨-, hfailed, hopen'⟩
  · exact Or.inl hs
  · exact Or.inr ⟨fun hf => hopen (Or.inl hf), horder hopen⟩
  · refine Or.inr ⟨?_, hopen'⟩
    rintro ⟨status, hmem, hst⟩
    cases hfailed.symm.trans hst
    exact absurd hmem (by decide)

/-- **Every step of a run in order is a guaranteed one.** -/
theorem step_moves (h₀ : c₀.threads = []) (hrun : Run (code o listening)
    (InOrder o listening id) c₀ c) {i : ℕ} {c' : Config World Op Unit}
    (hn : c.next (code o listening) (.step i) = some c') :
    ∃ th, c.threads[i]? = some th ∧ Moves id (RetriesPlan id th.op) c.st c'.st := by
  have hall := Run.rely_guarantee (R := fun op => Tolerates id (Concerns id op))
    (G := fun op => Moves id (RetriesPlan id op)) (fun _ w => (Rely.refl id w).tolerates)
    (fun op _ _ _ => Tolerates.trans (Concerns.of_kept op))
    (fun c op _ hok => code_moves listening op hok) ?_ h₀ hrun
  · exact Run.step_guarantee (R := fun op => Tolerates id (Concerns id op))
      (G := fun op => Moves id (RetriesPlan id op)) (fun _ w => (Rely.refl id w).tolerates)
      hall hn
  · intro c i op f k _ hok hi hmoves j th hj hth hlive
    refine ⟨hmoves.contexts, fun hconcerns => rely_of_moves hmoves fun hopen hover => ?_⟩
    have hnot := hok { st := f c.st, threads := c.threads.set i ⟨op, k c.st⟩ }
      (by simp [Config.next, hi]) hopen hover j th hj hth hlive
    exact hnot (Concerns.of_kept th.op _ _ hmoves.contexts hconcerns)

/-- **Terminal statuses absorb.** In every run in order, from any state, a plan that
is rejected, expired, cancelled or completed keeps that status for the rest of the
run, and a failed one leaves it only by a section of `retryStep`. -/
theorem terminal_statuses_absorb (o : PlanExecutorOptions) (listening : Bool) (id : String)
    (c₀ c : Config World Op Unit) (h₀ : c₀.threads = [])
    (hrun : Run (code o listening) (InOrder o listening id) c₀ c) :
    (Final id c.st → ∀ c', Run (code o listening) (InOrder o listening id) c c' →
      c'.st.planStatus id = c.st.planStatus id) ∧
    (c.st.planStatus id = some .failed → ∀ i c',
      c.next (code o listening) (.step i) = some c' →
      c'.st.planStatus id ≠ some .failed →
      ∃ th, c.threads[i]? = some th ∧ RetriesPlan id th.op) := by
  constructor
  · intro hfinal c' hrest
    induction hrest with
    | init => rfl
    | @tail d d' l hd hok hn ih =>
      cases l with
      | start op =>
        rw [(Config.next_start hn).1]
        exact ih
      | step i =>
        obtain ⟨th, -, hmoves⟩ := step_moves h₀ (hrun.trans hd) hn
        have hfinald : Final id d.st := (final_congr ih).mpr hfinal
        rcases hmoves.status with hs | hopen | ⟨-, hfailed, -⟩
        · exact hs.trans ih
        · exact absurd (Or.inl hfinald) hopen
        · obtain ⟨status, hmem, hst⟩ := hfinald
          cases hfailed.symm.trans hst
          exact absurd hmem (by decide)
  · intro hfailed i c' hn hne
    obtain ⟨th, hth, hmoves⟩ := step_moves h₀ hrun hn
    refine ⟨th, hth, ?_⟩
    rcases hmoves.status with hs | hopen | ⟨hretries, -, -⟩
    · exact absurd (hs.trans hfailed) hne
    · exact absurd (Or.inr hfailed) hopen
    · exact hretries

theorem allOk_alone (n : ℕ) : ∀ {c : Config World Op Unit}, c.threads.length = 1 →
    AllOk (code o listening) (InOrder o listening id) c (List.replicate n (.step 0)) := by
  induction n with
  | zero => exact fun _ => trivial
  | succ n ih =>
    intro c hone
    refine ⟨fun _ _ _ _ => Config.others_of_length hone, fun c' hn => ih ?_⟩
    obtain ⟨_, _, _, -, -, hthreads⟩ := Config.next_step hn
    rw [hthreads, List.length_set, hone]

end Runs

/-- The one-step plan, completed by its approval with auto-edit, stays completed. -/
theorem terminal_statuses_absorb_scale :
    ∃ c, Config.exec (code sampleOptions true) ⟨sampleWorld scalePlan, []⟩
        (.start (.approve "org_main" "plan-1" true "ann") :: List.replicate 14 (.step 0)) =
          some c ∧
      c.st.planStatus "plan-1" = some .completed ∧
      ∀ c', Run (code sampleOptions true) (InOrder sampleOptions true "plan-1") c c' →
        c'.st.planStatus "plan-1" = c.st.planStatus "plan-1" := by
  have hexec : (Config.exec (code sampleOptions true) ⟨sampleWorld scalePlan, []⟩
      (.start (.approve "org_main" "plan-1" true "ann") :: List.replicate 14 (.step 0))).map
        (fun c => c.st.planStatus "plan-1") = some (some .completed) := by
    decide +kernel
  obtain ⟨c, hc, hst⟩ := Option.map_eq_some_iff.mp hexec
  refine ⟨c, hc, hst, ?_⟩
  have hok : AllOk (code sampleOptions true) (InOrder sampleOptions true "plan-1")
      ⟨sampleWorld scalePlan, []⟩
      (.start (.approve "org_main" "plan-1" true "ann") :: List.replicate 14 (.step 0)) := by
    refine ⟨trivial, fun c' hn => allOk_alone 14 ?_⟩
    rw [(Config.next_start hn).2]
    rfl
  exact (terminal_statuses_absorb sampleOptions true "plan-1" ⟨sampleWorld scalePlan, []⟩ c rfl
    (Run.init.of_exec hok hc)).1 ⟨.completed, by decide, hst⟩

/-- **An expired plan comes back to life.** The sweep expires the plan after `approve`
read it as pending; the two updates of `approve` do not look again. -/
theorem approve_revives_expired :
    ¬ ∀ (o : PlanExecutorOptions) (listening : Bool) (id : String)
      (c₀ c c' : Config World Op Unit), Fresh id c₀.st → c₀.threads = [] →
      Run (code o listening) (fun _ _ => True) c₀ c →
      Run (code o listening) (fun _ _ => True) c c' →
      Final id c.st → c'.st.planStatus id = c.st.planStatus id := by
  intro h
  have hexpired : (Config.exec (code sampleOptions true) ⟨sampleWorld scalePlan, []⟩
      [.start (.approve "org_main" "plan-1" false "ann"), .step 0, .start (.expireStale "now"),
        .step 1]).map (fun c => (c.st.planStatus "plan-1",
          (c.exec (code sampleOptions true) [.step 0, .step 0]).map
            fun c' => c'.st.planStatus "plan-1")) =
      some (some .expired, some (some .approved)) := by
    decide +kernel
  obtain ⟨c, hc, hpair⟩ := Option.map_eq_some_iff.mp hexpired
  obtain ⟨hst, hrest⟩ := Prod.mk.inj hpair
  obtain ⟨c', hc', hst'⟩ := Option.map_eq_some_iff.mp hrest
  have hrun := Run.of_exec (Run.init) (allOk_of_forall (fun _ _ => trivial) _ _) hc
  have hrun' := Run.of_exec (Run.init) (allOk_of_forall (fun _ _ => trivial) _ _) hc'
  have hkept := h sampleOptions true "plan-1" _ c c' fresh_scalePlan rfl hrun hrun'
    ⟨.expired, by decide, hst⟩
  rw [hst, hst'] at hkept
  cases hkept

end OpenObs.Plans
