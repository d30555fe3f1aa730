import OpenObs.Plans.Completion

/-!
# A plan that runs without asking

`approve` with `autoEdit`, run alone: the steps in their order, up to the first that fails and
does not continue on error. What an adapter does with a step is given by the step: it
resolves, `adapterFor` throws, or `execute` throws.
-/

namespace OpenObs.Plans

open OpenObs.Foundation OpenObs.Approvals Prog

namespace AutoEdit

inductive StepBehaviour : Type where
  | resolves (result : ExecutionResult)
  | adapterForThrows (e : String)
  | executeThrows (e : String)

def StepBehaviour.adapter : StepBehaviour → Except String ExecutionAdapter
  | .resolves result => .ok ⟨fun _ _ => .ok result⟩
  | .adapterForThrows e => .error e
  | .executeThrows e => .ok ⟨fun _ _ => .error e⟩

def Behaves (o : PlanExecutorOptions) (b : ℕ → StepBehaviour) : Prop :=
  ∀ w plan step, o.adapterFor w plan step = (b step.ordinal).adapter

def succeeds (b : ℕ → StepBehaviour) (s : RemediationPlanStep) : Bool :=
  match readOpsRunCommandParams s, b s.ordinal with
  | some _, .resolves result => result.success
  | _, _ => false

def halts (b : ℕ → StepBehaviour) (s : RemediationPlanStep) : Bool :=
  !succeeds b s && !s.continueOnError

def reached (b : ℕ → StepBehaviour) : List RemediationPlanStep → List RemediationPlanStep
  | [] => []
  | s :: rest => if halts b s then [s] else s :: reached b rest

structure Invocation where
  planId : String
  ordinal : ℕ
  targetService : String
  argv : List String
deriving DecidableEq

def invocation (b : ℕ → StepBehaviour) (planId : String) (s : RemediationPlanStep) :
    Option Invocation :=
  match readOpsRunCommandParams s, b s.ordinal with
  | none, _ => none
  | some _, .adapterForThrows _ => none
  | some params, _ => some ⟨planId, s.ordinal, params.connectorId, params.argv⟩

def finalStatus (b : ℕ → StepBehaviour) (s : RemediationPlanStep) :
    RemediationPlanStepStatus :=
  if succeeds b s then .done else .failed

def invocations (calls : List AdapterCall) : List Invocation :=
  calls.map fun c => ⟨c.planId, c.ordinal, c.targetService, c.argv⟩

/-! ## One step -/

/-- All that a run of `executeStep` does, for a given behaviour. -/
structure Ran (b : ℕ → StepBehaviour) (id : String) (step : RemediationPlanStep) (w w' : World)
    (p p' : RemediationPlan) : Prop where
  status : p'.status = if halts b step then .failed else p.status
  touched : Touched id w w' p p' fun j st =>
    if j = step.ordinal then finalStatus b step
    else if halts b step ∧ step.ordinal < j ∧ st = .pending then .skipped else st
  calls : ∃ cs, w'.calls = w.calls ++ cs ∧
    invocations cs = (invocation b id step).toList

section Step

variable {b : ℕ → StepBehaviour} {o : PlanExecutorOptions} {id : String} {w w₁ : World}
  {p p₁ plan : RemediationPlan} {step : RemediationPlanStep}

abbrev Free : World → World → Prop := fun _ _ => True

theorem callAdapter_ran (hb : Behaves o b) {params : OpsRunCommandStepParams}
    (hparams : readOpsRunCommandParams step = some params) :
    (callAdapter o plan step params).Holds Eq Free
      (fun r w' => ∃ result, r = .ok result ∧
        w'.plans = w.plans ∧ w'.approvals = w.approvals ∧
        (∃ cs, w'.calls = w.calls ++ cs ∧
          invocations cs = (invocation b plan.id step).toList) ∧
        (succeeds b step = match result with
          | .error _ => false
          | .ok result => result.success)) w := by
  unfold callAdapter
  apply Holds.tryCatch
  rw [holds_attempt_bind]
  rintro _ rfl
  refine ⟨trivial, ?_⟩
  rw [hb]
  cases hbehaviour : b step.ordinal with
  | adapterForThrows e =>
    refine ⟨_, rfl, rfl, rfl, ⟨[], (List.append_nil _).symm, ?_⟩, ?_⟩
    · simp [invocations, invocation, hparams, hbehaviour]
    · simp [succeeds, hparams, hbehaviour]
  | resolves result =>
    dsimp only [StepBehaviour.adapter]
    rw [holds_write_bind]
    rintro _ rfl
    refine ⟨trivial, ?_⟩
    rw [holds_attempt_bind]
    rintro _ rfl
    refine ⟨trivial, _, rfl, rfl, rfl, ⟨[_], rfl, ?_⟩, ?_⟩
    · simp [invocations, invocation, hparams, hbehaviour]
    · simp [succeeds, hparams, hbehaviour]
  | executeThrows e =>
    dsimp only [StepBehaviour.adapter]
    rw [holds_write_bind]
    rintro _ rfl
    refine ⟨trivial, ?_⟩
    rw [holds_attempt_bind]
    rintro _ rfl
    refine ⟨trivial, _, rfl, rfl, rfl, ⟨[_], rfl, ?_⟩, ?_⟩
    · simp [invocations, invocation, hparams, hbehaviour]
    · simp [succeeds, hparams, hbehaviour]

structure Underway (b : ℕ → StepBehaviour) (id : String) (step : RemediationPlanStep)
    (w w₁ : World) (p p₁ : RemediationPlan) : Prop where
  status : p₁.status = p.status
  touched : Touched id w w₁ p p₁ fun j st => if j = step.ordinal then .executing else st
  calls : ∃ cs, w₁.calls = w.calls ++ cs ∧
    invocations cs = (invocation b id step).toList

theorem failStep_ran {errorText : Option String} {reason : String}
    (hfails : succeeds b step = false) (h : Underway b id step w w₁ p p₁)
    (hid : plan.id = id) (horg : plan.orgId = p.orgId) :
    (failStep plan step errorText reason).Holds Eq Free
      (fun r w' => r = .ok () ∧ ∃ p', Ran b id step w w' p p') w₁ := by
  have horg₁ : plan.orgId = p₁.orgId := horg.trans h.touched.rows.orgId.symm
  refine (failStep_solo (fun _ _ _ => trivial) h.touched.after hid horg₁).post ?_
  rintro r w' ⟨rfl, hcalls, p', hst, ht⟩
  have hhalts : halts b step = true ↔ step.continueOnError = false := by
    simp [halts, hfails]
  refine ⟨rfl, p', ?_, (h.touched.trans ht).congr fun s _ => ?_, ?_⟩
  · rw [hst, h.status]
    simp only [hhalts]
  · by_cases hk : s.ordinal = step.ordinal
    · simp [hk, finalStatus, hfails]
    · simp [hk, hhalts]
  · rw [hcalls]
    exact h.calls

theorem doneStep_ran {outputText : Option (Option String)} (hok : succeeds b step = true)
    (h : Underway b id step w w₁ p p₁) :
    (updateStep id step.ordinal (fun _ => { status := some .done, outputText := outputText })
      >>= fun _ => pure ()).Holds Eq Free
      (fun r w' => r = .ok () ∧ ∃ p', Ran b id step w w' p p') w₁ := by
  have hdone := touched_writeStep step.ordinal
    { status := some .done, outputText := outputText } h.touched.after
  unfold updateStep
  rw [holds_atomic_bind]
  rintro _ rfl
  refine ⟨trivial, rfl, p₁.writeStep step.ordinal
    { status := some .done, outputText := outputText }, ?_, ?_, h.calls⟩
  · simpa [halts, hok] using h.status
  · refine (h.touched.trans hdone).congr fun s _ => ?_
    by_cases hk : s.ordinal = step.ordinal
    · simp [hk, finalStatus, hok]
    · simp [hk, halts, hok]

/-- **A step run alone**, with the behaviour of its adapter given. -/
theorem executeStep_ran (hb : Behaves o b) (h : w.findById id = some p) (hid : plan.id = id)
    (horg : plan.orgId = p.orgId) :
    (executeStep o plan step).Holds Eq Free
      (fun r w' => r = .ok () ∧ ∃ p', Ran b id step w w' p p') w := by
  have hw := touched_writeStep step.ordinal
    { status := some .executing, executedAt := some (some w.now) } h
  unfold executeStep updateStep
  rw [holds_atomic_bind, hid]
  rintro _ rfl
  refine ⟨trivial, ?_⟩
  cases hparams : readOpsRunCommandParams step with
  | none =>
    have hunderway : Underway b id step w (w.writeStep id step.ordinal
        { status := some .executing, executedAt := some (some w.now) }) p
        (p.writeStep step.ordinal
          { status := some .executing, executedAt := some (some w.now) }) :=
      ⟨rfl, hw, [], (List.append_nil _).symm, by simp [invocations, invocation, hparams]⟩
    exact failStep_ran (by simp [succeeds, hparams]) hunderway hid horg
  | some params =>
    refine Holds.bind ((callAdapter_ran hb hparams).post ?_)
    rintro r w₂ ⟨result, rfl, hplans, happrovals, hcalls, hsucceeds⟩
    rw [hid] at hcalls
    have hrow : w₂.findById id = some (p.writeStep step.ordinal
        { status := some .executing, executedAt := some (some w.now) }) := by
      rw [World.findById, hplans]
      exact hw.after
    have hunderway : Underway b id step w w₂ p (p.writeStep step.ordinal
        { status := some .executing, executedAt := some (some w.now) }) :=
      ⟨rfl, { hw with after := hrow, approvals := happrovals.trans hw.approvals }, hcalls⟩
    cases result with
    | error e => exact failStep_ran hsucceeds hunderway hid horg
    | ok result =>
      dsimp only at hsucceeds ⊢
      by_cases hsucc : result.success = true
      · rw [if_pos hsucc]
        exact doneStep_ran (hsucceeds.trans hsucc) hunderway
      · rw [if_neg hsucc]
        exact failStep_ran (hsucceeds.trans (by simpa using hsucc)) hunderway hid horg

end Step

/-! ## The loop -/

def SameTasks (f : RemediationPlanStep → RemediationPlanStep) : Prop :=
  ∀ s, (f s).ordinal = s.ordinal ∧ (f s).kind = s.kind ∧ (f s).paramsJson = s.paramsJson ∧
    (f s).continueOnError = s.continueOnError

/-- How the steps stand at the end, where `rest` were pending. -/
def endStatus (b : ℕ → StepBehaviour) (rest : List RemediationPlanStep) : StatusMap := fun j st =>
  if st = .pending then
    match (reached b rest).find? (·.ordinal = j) with
    | some s => finalStatus b s
    | none => .skipped
  else st

/-- What a drive over the pending steps `rest` does. -/
structure Drove (b : ℕ → StepBehaviour) (id : String) (rest : List RemediationPlanStep)
    (w w' : World) (p p' : RemediationPlan) : Prop where
  status : p'.status = if rest.any (halts b) then .failed else .completed
  touched : Touched id w w' p p' (endStatus b rest)
  calls : ∃ cs, w'.calls = w.calls ++ cs ∧
    invocations cs = (reached b rest).filterMap (invocation b id)

section Loop

variable {b : ℕ → StepBehaviour} {o : PlanExecutorOptions} {id orgId : String}
  {w w₁ : World} {p p₁ : RemediationPlan} {step : RemediationPlanStep}
  {rest : List RemediationPlanStep} {f : RemediationPlanStep → RemediationPlanStep}

theorem SameTasks.params (hf : SameTasks f) (s : RemediationPlanStep) :
    readOpsRunCommandParams (f s) = readOpsRunCommandParams s := by
  obtain ⟨-, hkind, hparams, -⟩ := hf s
  rw [readOpsRunCommandParams, hkind, hparams, readOpsRunCommandParams]

theorem SameTasks.succeeds (hf : SameTasks f) (s : RemediationPlanStep) :
    succeeds b (f s) = succeeds b s := by
  rw [AutoEdit.succeeds, hf.params, (hf s).1, AutoEdit.succeeds]

theorem SameTasks.halts (hf : SameTasks f) (s : RemediationPlanStep) :
    halts b (f s) = halts b s := by
  rw [AutoEdit.halts, hf.succeeds, (hf s).2.2.2, AutoEdit.halts]

theorem SameTasks.invocation (hf : SameTasks f) (s : RemediationPlanStep) :
    invocation b id (f s) = invocation b id s := by
  rw [AutoEdit.invocation, hf.params, (hf s).1, AutoEdit.invocation]

theorem SameTasks.reached (hf : SameTasks f) : ∀ rest : List RemediationPlanStep,
    reached b (rest.map f) = (reached b rest).map f
  | [] => rfl
  | s :: rest => by
    rw [List.map_cons, AutoEdit.reached, AutoEdit.reached, hf.halts, hf.reached rest]
    split <;> rfl

theorem SameTasks.endStatus (hf : SameTasks f) (rest : List RemediationPlanStep) :
    endStatus b (rest.map f) = endStatus b rest := by
  funext j st
  have hordinal : ((fun s : RemediationPlanStep => decide (s.ordinal = j)) ∘ f) =
      fun s => decide (s.ordinal = j) := by
    funext s
    simp [(hf s).1]
  rw [AutoEdit.endStatus, AutoEdit.endStatus, hf.reached, List.find?_map, hordinal]
  cases (AutoEdit.reached b rest).find? (·.ordinal = j) with
  | none => rfl
  | some s => simp [finalStatus, hf.succeeds]

theorem SameTasks.invocations (hf : SameTasks f) (rest : List RemediationPlanStep) :
    (AutoEdit.reached b (rest.map f)).filterMap (AutoEdit.invocation b id) =
      (AutoEdit.reached b rest).filterMap (AutoEdit.invocation b id) := by
  rw [hf.reached, List.filterMap_map]
  exact List.filterMap_congr fun s _ => hf.invocation s

theorem SameTasks.any_halts (hf : SameTasks f) (rest : List RemediationPlanStep) :
    (rest.map f).any (AutoEdit.halts b) = rest.any (AutoEdit.halts b) := by
  rw [List.any_map]
  exact congrArg rest.any (funext hf.halts)

theorem pending_lt (hrest : p.steps.filter (·.status = .pending) = step :: rest) :
    ∀ t ∈ rest, step.ordinal < t.ordinal := by
  have hsub : List.Sublist ((step :: rest).map (·.ordinal)) (p.steps.map (·.ordinal)) :=
    hrest ▸ List.filter_sublist.map _
  have hpairs := p.ordered.sublist hsub
  rw [List.map_cons, List.pairwise_cons] at hpairs
  exact fun t ht => hpairs.1 _ (List.mem_map_of_mem ht)

theorem mem_pending (hrest : p.steps.filter (·.status = .pending) = step :: rest) :
    step ∈ p.steps ∧ step.status = .pending := by
  have hmem : step ∈ p.steps.filter (·.status = .pending) := hrest ▸ List.mem_cons_self
  exact ⟨(List.mem_filter.mp hmem).1, of_decide_eq_true (List.mem_filter.mp hmem).2⟩

theorem Ran.pending_after (h : Ran b id step w w₁ p p₁) (hgoes : halts b step = false)
    (hrest : p.steps.filter (·.status = .pending) = step :: rest) :
    ∃ f, SameTasks f ∧ p₁.steps.filter (·.status = .pending) = rest.map f := by
  obtain ⟨f, hf, hstep⟩ := h.touched.rows.steps
  refine ⟨f, fun s => ⟨(hstep s).1, (hstep s).2.1, (hstep s).2.2.1, (hstep s).2.2.2.1⟩, ?_⟩
  have hpending : ∀ t ∈ p.steps, decide ((f t).status = .pending) =
      (decide (t.status = .pending) && decide (t.ordinal ≠ step.ordinal)) := by
    intro t ht
    rw [(hstep t).2.2.2.2 ht]
    by_cases hk : t.ordinal = step.ordinal
    · cases hs : succeeds b step <;> simp [hk, finalStatus, hs]
    · simp [hk, hgoes]
  have hlater : ∀ t ∈ rest, decide (t.ordinal ≠ step.ordinal) = true := fun t ht =>
    decide_eq_true (Nat.ne_of_gt (pending_lt hrest t ht))
  have hfilter : p.steps.filter (fun t => (f t).status = .pending) = rest := by
    rw [List.filter_congr hpending]
    simp only [Bool.and_comm (decide (_ = RemediationPlanStepStatus.pending))]
    rw [← List.filter_filter, hrest, List.filter_cons_of_neg (by simp)]
    exact List.filter_eq_self.mpr hlater
  rw [hf, List.filter_map]
  exact congrArg (List.map f) hfilter

theorem endStatus_goes (hgoes : halts b step = false)
    (hrest : p.steps.filter (·.status = .pending) = step :: rest) {t : RemediationPlanStep}
    (ht : t ∈ p.steps) :
    endStatus b rest t.ordinal (if t.ordinal = step.ordinal then finalStatus b step
      else if halts b step ∧ step.ordinal < t.ordinal ∧ t.status = .pending then .skipped
      else t.status) = endStatus b (step :: rest) t.ordinal t.status := by
  by_cases hk : t.ordinal = step.ordinal
  · obtain ⟨hmem, hst⟩ := mem_pending hrest
    obtain rfl := p.step_unique ht hmem hk
    cases hs : succeeds b t <;>
      simp [endStatus, reached, hgoes, hst, finalStatus, hs]
  · simp [endStatus, reached, hgoes, hk, Ne.symm hk]

theorem endStatus_halts (hhalts : halts b step = true)
    (hrest : p.steps.filter (·.status = .pending) = step :: rest) {t : RemediationPlanStep}
    (ht : t ∈ p.steps) :
    (if t.ordinal = step.ordinal then finalStatus b step
      else if halts b step ∧ step.ordinal < t.ordinal ∧ t.status = .pending then .skipped
      else t.status) = endStatus b (step :: rest) t.ordinal t.status := by
  by_cases hk : t.ordinal = step.ordinal
  · obtain ⟨hmem, hst⟩ := mem_pending hrest
    obtain rfl := p.step_unique ht hmem hk
    simp [endStatus, reached, hhalts, hst]
  · by_cases hst : t.status = .pending
    · have hin : t ∈ step :: rest := hrest ▸ List.mem_filter.mpr ⟨ht, decide_eq_true hst⟩
      have hlt : step.ordinal < t.ordinal := by
        rcases List.mem_cons.mp hin with rfl | hin
        · exact absurd rfl hk
        · exact pending_lt hrest t hin
      simp [endStatus, reached, hhalts, hk, Ne.symm hk, hst, hlt]
    · simp [endStatus, hk, hst]

theorem runNext_failed {fuel : ℕ} (h : w.findById id = some p) (horg : p.orgId = orgId)
    (hst : p.status = .failed) : (runNext o orgId id (fuel + 1)).Holds Eq Free
      (fun r w' => (∃ k reason, r = .ok (.failed k reason)) ∧ w' = w) w := by
  have hfind : w.findByIdInOrg orgId id = some p := World.findByIdInOrg_eq_some.mpr ⟨h, horg⟩
  unfold runNext findByIdInOrg
  rw [holds_read_bind]
  rintro _ rfl
  refine ⟨trivial, ?_⟩
  simp only [hfind, if_pos hst]
  exact ⟨⟨_, _, rfl⟩, rfl⟩

def Answers (b : ℕ → StepBehaviour) (rest : List RemediationPlanStep)
    (r : Except String PlanExecutorOutcome) : Prop :=
  if rest.any (halts b) then ∃ k reason, r = .ok (.failed k reason) else r = .ok .completed

/-- **The drive loop**, by induction over the pending steps: each takes one round, and the
round after the last one ends it. -/
theorem runNext_drove (hb : Behaves o b) : ∀ (rest : List RemediationPlanStep) (fuel : ℕ)
    (w : World) (p : RemediationPlan), rest.length < fuel → w.findById id = some p →
    p.orgId = orgId → p.status = .executing → p.autoEdit = true →
    p.steps.filter (·.status = .pending) = rest →
      (runNext o orgId id fuel).Holds Eq Free
        (fun r w' => Answers b rest r ∧ ∃ p', Drove b id rest w w' p p') w := by
  intro rest
  induction hlength : rest.length generalizing rest with
  | zero =>
    intro fuel w p hfuel h horg hst hauto hrest
    obtain rfl := List.length_eq_zero_iff.mp hlength
    obtain ⟨fuel, rfl⟩ := Nat.exists_eq_add_one.mpr hfuel
    have hfind : w.findByIdInOrg orgId id = some p :=
      World.findByIdInOrg_eq_some.mpr ⟨h, horg⟩
    have hno : ∀ s ∈ p.steps, s.status ≠ .pending := fun s hs hpend =>
      List.filter_eq_nil_iff.mp hrest s hs (decide_eq_true hpend)
    have hnone : p.steps.find? (·.status = .pending) = none :=
      List.find?_eq_none.mpr fun s hs => by simpa using hno s hs
    unfold runNext findByIdInOrg
    rw [holds_read_bind]
    rintro _ rfl
    refine ⟨trivial, ?_⟩
    simp only [hfind, hst, hnone]
    subst horg
    refine Holds.bind ((updatePlan_solo h trivial trivial).post ?_)
    rintro r w' ⟨⟨a, rfl⟩, rfl, -⟩
    have ht := touched_writePlan { status := some .completed } h rfl
    refine ⟨rfl, _, ⟨rfl, ht.congr fun s hs => ?_, [], (List.append_nil _).symm, rfl⟩⟩
    simp [endStatus, hno s hs]
  | succ n ih =>
    intro fuel w p hfuel h horg hst hauto hrest
    obtain ⟨s, rest, rfl⟩ := List.exists_cons_of_length_eq_add_one hlength
    obtain ⟨fuel, rfl⟩ := Nat.exists_eq_add_one.mpr (Nat.zero_lt_of_lt hfuel)
    have hfind : w.findByIdInOrg orgId id = some p :=
      World.findByIdInOrg_eq_some.mpr ⟨h, horg⟩
    have hnext : p.steps.find? (·.status = .pending) = some s := by
      rw [← List.head?_filter, hrest, List.head?_cons]
    unfold runNext findByIdInOrg
    rw [holds_read_bind]
    rintro _ rfl
    refine ⟨trivial, ?_⟩
    simp only [hfind, hst, hnext, hauto, if_true]
    refine Holds.bind ((executeStep_ran hb h (World.findById_id h) rfl).post ?_)
    rintro r w₁ ⟨rfl, p₁, hran⟩
    have horg₁ : p₁.orgId = orgId := hran.touched.rows.orgId.trans horg
    cases hhalts : halts b s with
    | true =>
      have hst₁ : p₁.status = .failed := by rw [hran.status, if_pos hhalts]
      obtain ⟨fuel, rfl⟩ : ∃ m, fuel = m + 1 :=
        Nat.exists_eq_add_one.mpr (by rw [List.length_cons] at hlength; omega)
      refine (runNext_failed hran.touched.after horg₁ hst₁).post ?_
      rintro r w' ⟨hanswer, rfl⟩
      refine ⟨?_, p₁, ?_, ?_, ?_⟩
      · simpa [Answers, hhalts] using hanswer
      · simp [hst₁, hhalts]
      · exact hran.touched.congr fun t ht => endStatus_halts hhalts hrest ht
      · obtain ⟨cs, hcalls, hinv⟩ := hran.calls
        refine ⟨cs, hcalls, ?_⟩
        rw [hinv, reached, if_pos hhalts]
        cases hone : invocation b id s <;> simp [hone]
    | false =>
      have hst₁ : p₁.status = .executing := by
        rw [hran.status, if_neg (by simp [hhalts]), hst]
      obtain ⟨f, hf, hpending⟩ := hran.pending_after hhalts hrest
      have hlen : (rest.map f).length = n := by
        rw [List.length_map]
        simpa using hlength
      refine (ih (rest.map f) hlen fuel w₁ p₁ (by omega) hran.touched.after horg₁ hst₁
        (hran.touched.rows.autoEdit.trans hauto) hpending).post ?_
      rintro r w' ⟨hanswer, p', hdrove⟩
      refine ⟨?_, p', ?_, ?_, ?_⟩
      · simpa [Answers, hf.any_halts, hhalts] using hanswer
      · simpa [hf.any_halts, hhalts] using hdrove.status
      · refine (hran.touched.trans hdrove.touched).congr fun t ht => ?_
        rw [hf.endStatus]
        exact endStatus_goes hhalts hrest ht
      · obtain ⟨cs, hcalls, hinv⟩ := hran.calls
        obtain ⟨cs', hcalls', hinv'⟩ := hdrove.calls
        refine ⟨cs ++ cs', by rw [hcalls', hcalls, List.append_assoc], ?_⟩
        rw [invocations, List.map_append, ← invocations, ← invocations, hinv, hinv',
          hf.invocations, reached, if_neg (by simp [hhalts]), List.filterMap_cons]
        cases hone : invocation b id s <;> simp [hone]

end Loop

/-! ## The approval -/

def outcomeStatus (b : ℕ → StepBehaviour) (steps : List RemediationPlanStep)
    (s : RemediationPlanStep) : RemediationPlanStepStatus :=
  if s.ordinal ∈ (reached b steps).map (·.ordinal) then finalStatus b s else .skipped

/-- What approving a plan with `autoEdit` comes to. -/
structure Completes (b : ℕ → StepBehaviour) (p : RemediationPlan) (w w' : World)
    (r : Except String PlanExecutorOutcome) : Prop where
  answer : Answers b p.steps r
  /-- Each valid step of the prefix is put to its adapter once, in order, and no other. -/
  calls : ∃ cs, w'.calls = w.calls ++ cs ∧
    invocations cs = (reached b p.steps).filterMap (invocation b p.id)
  row : ∃ p', w'.findById p.id = some p' ∧
    (p'.status = if p.steps.any (halts b) then .failed else .completed) ∧
    ((p'.steps.map fun s => (s.ordinal, s.status)) = p.steps.map fun s =>
      (s.ordinal, outcomeStatus b p.steps s)) ∧
    ∀ s ∈ p'.steps, s.status ∈ [RemediationPlanStepStatus.done, .failed, .skipped]

section Approval

variable {b : ℕ → StepBehaviour} {o : PlanExecutorOptions} {id : String} {w : World}
  {p p' : RemediationPlan} {rest : List RemediationPlanStep}

theorem reached_isPrefix : ∀ rest : List RemediationPlanStep, reached b rest <+: rest
  | [] => List.prefix_rfl
  | s :: rest => by
    rw [reached]
    split
    · exact ⟨rest, rfl⟩
    · exact (List.prefix_cons_inj s).mpr (reached_isPrefix rest)

theorem outcomeStatus_over (steps : List RemediationPlanStep) (s : RemediationPlanStep) :
    outcomeStatus b steps s ∈ [RemediationPlanStepStatus.done, .failed, .skipped] := by
  rw [outcomeStatus]
  split
  · cases hs : succeeds b s <;> simp [finalStatus, hs]
  · simp

theorem endStatus_pending {s : RemediationPlanStep} (hs : s ∈ p.steps)
    (hst : s.status = .pending) :
    endStatus b p.steps s.ordinal s.status = outcomeStatus b p.steps s := by
  rw [endStatus, if_pos hst, outcomeStatus]
  cases hfound : (reached b p.steps).find? (·.ordinal = s.ordinal) with
  | none =>
    have hnot : s.ordinal ∉ (reached b p.steps).map (·.ordinal) := by
      intro hin
      obtain ⟨t, ht, hordinal⟩ := List.mem_map.mp hin
      simpa [hordinal] using List.find?_eq_none.mp hfound t ht
    rw [if_neg hnot]
  | some t =>
    have hin := List.mem_of_find?_eq_some hfound
    have hordinal : t.ordinal = s.ordinal := by simpa using List.find?_some hfound
    obtain rfl := p.step_unique ((reached_isPrefix p.steps).subset hin) hs hordinal
    rw [if_pos (List.mem_map_of_mem hin)]

theorem approve_drove (userId : String) (hb : Behaves o b) (h : w.findById id = some p)
    (hst : p.status = .pendingApproval) (hsteps : ∀ s ∈ p.steps, s.status = .pending)
    (hfuel : p.steps.length < o.fuel) :
    (approve o p.orgId id true userId).Holds Eq Free
      (fun r w' => Answers b p.steps r ∧ ∃ w₁ p₁ p', Launched id true w w₁ p p₁ ∧
        Drove b id p.steps w₁ w' p₁ p') w := by
  have hfind : w.findByIdInOrg p.orgId id = some p :=
    World.findByIdInOrg_eq_some.mpr ⟨h, rfl⟩
  have hdecide : (planForDecision p.orgId id [.pendingApproval] "approve").Holds Eq Free
      (fun r w' => r = .ok p ∧ w' = w) w := by
    unfold planForDecision findByIdInOrg
    rw [holds_read_bind]
    rintro _ rfl
    refine ⟨trivial, ?_⟩
    simp only [hfind, hst, List.mem_singleton, if_true]
    exact ⟨rfl, rfl⟩
  unfold approve
  refine Holds.bind (hdecide.post ?_)
  rintro r w₀ ⟨rfl, rfl⟩
  refine Holds.bind ((updatePlan_solo h trivial trivial).post ?_)
  rintro r w₁ ⟨⟨a, rfl⟩, hw₁, hrow₁⟩
  refine Holds.bind ((updatePlan_solo hrow₁ trivial trivial).post ?_)
  rintro r w₂ ⟨⟨a, rfl⟩, hw₂, hrow₂⟩
  have hlaunched : Launched id true w₀ w₂ p _ :=
    ⟨h, hst, hrow₂, rfl, rfl, rfl, by rw [hw₂, hw₁]; rfl, by rw [hw₂, hw₁]; rfl⟩
  have hpending : p.steps.filter (·.status = .pending) = p.steps :=
    List.filter_eq_self.mpr fun s hs => decide_eq_true (hsteps s hs)
  refine (runNext_drove hb p.steps o.fuel w₂ _ hfuel hrow₂ rfl rfl rfl hpending).post ?_
  rintro r w' ⟨hanswer, p', hdrove⟩
  exact ⟨hanswer, w₂, _, p', hlaunched, hdrove⟩

end Approval

/-- **A plan approved with auto-edit** runs its steps in order, each once, up to the first that
fails and may not; the ones behind it are skipped, and the plan has failed. Where there is no
such step it is completed. A fuel above the number of its steps is enough. -/
theorem approve_completes (o : PlanExecutorOptions) (b : ℕ → StepBehaviour) (hb : Behaves o b)
    (userId : String) (w : World) (p : RemediationPlan) (h : w.findById p.id = some p)
    (hst : p.status = .pendingApproval) (hsteps : ∀ s ∈ p.steps, s.status = .pending)
    (hfuel : p.steps.length < o.fuel) :
    Completes b p w ((approve o p.orgId p.id true userId).run w).2
      ((approve o p.orgId p.id true userId).run w).1 := by
  obtain ⟨hanswer, w₁, p₁, p', hlaunched, hdrove⟩ :=
    (run_of_holds (approve_drove userId hb h hst hsteps hfuel)).2
  obtain ⟨f, hf, hstep⟩ := hdrove.touched.rows.steps
  have hstatus : ∀ s ∈ p.steps, (f s).status = outcomeStatus b p.steps s := by
    intro s hs
    have hend := (hstep s).2.2.2.2 (hlaunched.steps ▸ hs)
    rwa [endStatus_pending hs (hsteps s hs)] at hend
  rw [hlaunched.steps] at hf
  refine ⟨hanswer, ?_, p', hdrove.touched.after, hdrove.status, ?_, ?_⟩
  · obtain ⟨cs, hcalls, hinv⟩ := hdrove.calls
    exact ⟨cs, by rw [hcalls, hlaunched.calls], hinv⟩
  · rw [hf, List.map_map]
    refine List.map_congr_left fun s hs => ?_
    rw [Function.comp_apply, (hstep s).1, hstatus s hs]
  · intro s' hs'
    rw [hf] at hs'
    obtain ⟨s, hs, rfl⟩ := List.mem_map.mp hs'
    rw [hstatus s hs]
    exact outcomeStatus_over p.steps s

def cleanupBehaviour : ℕ → StepBehaviour
  | 0 => .executeThrows "timeout"
  | 1 => .resolves ⟨false, none, some "denied"⟩
  | _ => .resolves ⟨true, none, none⟩

theorem approve_completes_cleanup :
    Completes cleanupBehaviour cleanupPlan (sampleWorld cleanupPlan)
      ((approve { sampleOptions with
        adapterFor := fun _ _ step => (cleanupBehaviour step.ordinal).adapter }
        "org_main" "plan-1" true "ann").run (sampleWorld cleanupPlan)).2
      ((approve { sampleOptions with
        adapterFor := fun _ _ step => (cleanupBehaviour step.ordinal).adapter }
        "org_main" "plan-1" true "ann").run (sampleWorld cleanupPlan)).1 :=
  approve_completes _ cleanupBehaviour (fun _ _ _ => rfl) "ann" (sampleWorld cleanupPlan)
    cleanupPlan (by simp [World.findById, sampleWorld]) rfl (by decide) (by decide)

end AutoEdit

end OpenObs.Plans
