import OpenObs.Plans.Completion

/-!
# Resolving one request many times

Every resolution the store returns is delivered to the executor, and `onStepApproved` runs the step
whatever state it is in. What keeps a request from running its step twice is the store alone:
`approve` and `reject` act only on a pending request.
-/

namespace OpenObs.Plans

open OpenObs.Foundation OpenObs.Approvals Prog

/-- How often step `k` of plan `id` was handed to an adapter. -/
def countCalls (id : String) (k : ℕ) (w : World) : ℕ :=
  w.calls.countP fun c => c.planId = id ∧ c.ordinal = k

def Op.resolves (approvalId : String) : Op → Bool
  | .resolve _ id _ _ => id = approvalId
  | _ => false

/-- The calls of step `k` made while a resolution of the request is served. -/
def causedCalls (approvalId id : String) (k : ℕ) (op : Op) (w w' : World) : ℕ :=
  if op.resolves approvalId then countCalls id k w' - countCalls id k w else 0

def OverridesOpen (approvalId : String) (op : Op) (w : World) : Prop :=
  ∀ resolvedBy roles, op = .resolve .override approvalId resolvedBy roles →
    ∀ a, w.approval approvalId = some a → a.status ≠ .approved

/-! ## Calls of one step -/

theorem countCalls_append {id : String} {k : ℕ} {w w' : World} {cs : List AdapterCall}
    (h : w'.calls = w.calls ++ cs) :
    countCalls id k w' = countCalls id k w +
      cs.countP fun c => c.planId = id ∧ c.ordinal = k := by
  unfold countCalls
  rw [h, List.countP_append]

theorem countCalls_other {id : String} {k : ℕ} {w w' : World} {cs : List AdapterCall}
    (h : w'.calls = w.calls ++ cs) (hcs : ∀ c ∈ cs, ¬ (c.planId = id ∧ c.ordinal = k)) :
    countCalls id k w' = countCalls id k w := by
  rw [countCalls_append h, List.countP_eq_zero.mpr (by simpa using hcs), Nat.add_zero]

theorem Aside.countCalls {id : String} {w w' : World} (h : Aside id w w') (k : ℕ) :
    countCalls id k w' = countCalls id k w := by
  obtain ⟨cs, hcs, hout⟩ := h.calls
  exact countCalls_other hcs fun c hc hboth => hout c hc hboth.1

/-- No step with ordinal `k` is pending. -/
def NotPending (k : ℕ) (p : RemediationPlan) : Prop :=
  ∀ s ∈ p.steps, s.ordinal = k → s.status ≠ .pending

theorem Executed.notPending {id : String} {step : RemediationPlanStep} {w w' : World}
    {p p' : RemediationPlan} (h : Executed id step w w' p p') : NotPending step.ordinal p' := by
  obtain ⟨final, hfinal, -, ht⟩ := h.outcome
  intro s' hs' hk hpend
  obtain ⟨s, -, hord, -, hst⟩ := ht.rows.of_mem hs'
  rw [if_pos (hord.symm.trans hk)] at hst
  rcases hfinal with rfl | rfl
  · rw [hst] at hpend
    cases hpend
  · rw [hst] at hpend
    cases hpend

theorem Executed.notPending_other {id : String} {step : RemediationPlanStep} {w w' : World}
    {p p' : RemediationPlan} {k : ℕ} (h : Executed id step w w' p p')
    (hne : step.ordinal ≠ k) (hp : NotPending k p) : NotPending k p' := by
  obtain ⟨final, -, -, ht⟩ := h.outcome
  intro s' hs' hk hpend
  obtain ⟨s, hs, hord, -, hst⟩ := ht.rows.of_mem hs'
  have hsk : s.ordinal = k := hord.symm.trans hk
  rw [if_neg (fun he => hne (he.symm.trans hsk))] at hst
  split at hst
  · rw [hst] at hpend
    cases hpend
  · exact hp s hs hsk (hst.symm.trans hpend)

theorem Drive.countCalls {id : String} {k : ℕ} {w w' : World} (h : Drive id w w') :
    ∀ {p}, w.findById id = some p → NotPending k p →
      countCalls id k w' = countCalls id k w := by
  induction h with
  | stop w => exact fun _ _ => rfl
  | complete row _ _ _ => exact fun _ _ => rfl
  | pause row _ _ _ _ _ requested =>
    intro p _ _
    unfold OpenObs.Plans.countCalls
    rw [requested.calls]
  | execute row _ _ _ mem pending executed _ ih =>
    intro p hrow hp
    obtain rfl := Option.some.inj (hrow.symm.trans row)
    have hne : _ ≠ k := fun hk => hp _ mem hk pending
    obtain ⟨cs, hcs, -, hall⟩ := executed.calls
    rw [ih executed.after (executed.notPending_other hne hp)]
    refine countCalls_other hcs fun c hc hboth => hne ?_
    rw [← (hall c hc).ordinal]
    exact hboth.2

theorem StepApproved.countCalls {id : String} {step : RemediationPlanStep}
    {p : RemediationPlan} {w w' : World} (h : StepApproved id step p w w') :
    countCalls id step.ordinal w' ≤ countCalls id step.ordinal w + 1 := by
  obtain ⟨w₁, p₁, hex, hdr⟩ := h
  obtain ⟨cs, hcs, hlen, -⟩ := hex.calls
  have hle : (cs.countP fun c => c.planId = id ∧ c.ordinal = step.ordinal) ≤ cs.length :=
    List.countP_le_length
  rw [hdr.countCalls hex.after hex.notPending, countCalls_append hcs]
  omega

theorem StepRejected.countCalls {id : String} {step : RemediationPlanStep}
    {p : RemediationPlan} {w w' : World} (h : StepRejected id step p w w') :
    countCalls id step.ordinal w' = countCalls id step.ordinal w := by
  obtain ⟨w₁, p₁, hex, hcalls, hdr⟩ := h
  rw [hdr.countCalls hex.after hex.notPending]
  unfold OpenObs.Plans.countCalls
  rw [hcalls]

/-! ## The request across operations -/

def Keeps (approvalId : String) (w w' : World) : Prop :=
  ∀ a, w.approval approvalId = some a → ∃ a', w'.approval approvalId = some a' ∧
    a'.context = a.context ∧ (a.status = .approved → a'.status = .approved)

theorem Keeps.trans {approvalId : String} {w w' w'' : World} (h₁ : Keeps approvalId w w')
    (h₂ : Keeps approvalId w' w'') : Keeps approvalId w w'' := by
  intro a ha
  obtain ⟨a', ha', hctx', hst'⟩ := h₁ a ha
  obtain ⟨a'', ha'', hctx'', hst''⟩ := h₂ a' ha'
  exact ⟨a'', ha'', hctx''.trans hctx', fun h => hst'' (hst' h)⟩

theorem keeps_of_append {approvalId : String} {w w' : World} {as : List ApprovalRequest}
    (h : w'.approvals = w.approvals ++ as) : Keeps approvalId w w' := by
  intro a ha
  refine ⟨a, ?_, rfl, fun hst => hst⟩
  unfold World.approval at ha ⊢
  rw [h, List.find?_append, ha, Option.some_or]

theorem keeps_of_eq {approvalId : String} {w w' : World} (h : w'.approvals = w.approvals) :
    Keeps approvalId w w' := keeps_of_append (h.trans (List.append_nil _).symm)

theorem Aside.keeps {id approvalId : String} {w w' : World} (h : Aside id w w') :
    Keeps approvalId w w' := by
  obtain ⟨as, has, -⟩ := h.approvals
  exact keeps_of_append has

theorem Drive.keeps {id approvalId : String} {w w' : World} (h : Drive id w w') :
    Keeps approvalId w w' := by
  induction h with
  | stop w => exact keeps_of_eq rfl
  | complete row _ _ _ => exact keeps_of_eq rfl
  | pause row _ _ _ _ _ requested =>
    rcases requested.approvals with h | ⟨a, h, -⟩
    · exact keeps_of_eq h
    · exact keeps_of_append h
  | execute row _ _ _ _ _ executed _ ih => exact (keeps_of_eq executed.approvals).trans ih

theorem keeps_resolved {approvalId target resolvedBy : String} {verdict : Verdict}
    {roles : Option (List String)} {w : World} {a request : ApprovalRequest}
    (found : w.approval target = some a)
    (pending : verdict ≠ .override → a.status = .pending) :
    Keeps approvalId w (resolvedWorld verdict target resolvedBy roles w request) := by
  intro b hb
  by_cases htarget : approvalId = target
  · subst htarget
    cases found.symm.trans hb
    refine ⟨_, World.approval_resolveApproval found, rfl, fun hst => ?_⟩
    cases verdict with
    | approve => rfl
    | override => rfl
    | reject =>
      rw [pending (by decide)] at hst
      cases hst
  · exact ⟨b, (World.approval_resolveApproval_ne htarget).trans hb, rfl, fun hst => hst⟩

theorem OpEffect.keeps {id approvalId : String} {op : Op} {w w' : World}
    (h : OpEffect id op w w') : Keeps approvalId w w' := by
  cases h with
  | aside h => exact h.keeps
  | approved h =>
    obtain ⟨w₁, p, p₁, hl, hdr⟩ := h
    exact (keeps_of_eq hl.approvals).trans hdr.keeps
  | rejected h => exact keeps_of_eq h.touched.approvals
  | cancelled h => exact keeps_of_eq h.touched.approvals
  | expired h => exact keeps_of_eq h.touched.approvals
  | stepApproved _ _ h =>
    obtain ⟨w₁, p₁, hex, hdr⟩ := h
    exact (keeps_of_eq hex.approvals).trans hdr.keeps
  | stepRejected _ _ h =>
    obtain ⟨w₁, p₁, hex, -, hdr⟩ := h
    exact (keeps_of_eq hex.approvals).trans hdr.keeps
  | retried h =>
    obtain ⟨w₁, w₂, p, p₁, p₂, target, hr, -, -, hex, hdr⟩ := h
    exact ((keeps_of_eq hr.touched.approvals).trans (keeps_of_eq hex.approvals)).trans
      hdr.keeps
  | resolvedAside found pending stored h =>
    exact (stored ▸ keeps_resolved found pending).trans h.keeps
  | resolvedApproved found pending stored _ _ _ h =>
    obtain ⟨w₂, p₁, hex, hdr⟩ := h
    exact ((stored ▸ keeps_resolved found pending).trans (keeps_of_eq hex.approvals)).trans
      hdr.keeps
  | resolvedRejected found pending stored _ _ _ h =>
    obtain ⟨w₂, p₁, hex, -, hdr⟩ := h
    exact ((stored ▸ keeps_resolved found pending).trans (keeps_of_eq hex.approvals)).trans
      hdr.keeps

/-! ## Resolutions of one request -/

theorem gatesStep_unique {id : String} {j k : ℕ} {a : ApprovalRequest}
    (hj : gatesStep id j a = true) (hk : gatesStep id k a = true) : j = k := by
  have h := (gatesStep_iff.mp hj).2.symm.trans (gatesStep_iff.mp hk).2
  exact Option.some.inj h

/-- **One resolution.** It runs the step it gates at most once, and when it does,
the verdict was one the store accepts and the request is approved afterwards. -/
theorem OpEffect.caused {id approvalId resolvedBy : String} {k : ℕ} {verdict : Verdict}
    {roles : Option (List String)} {w w' : World} {a : ApprovalRequest}
    (h : OpEffect id (.resolve verdict approvalId resolvedBy roles) w w')
    (ha : w.approval approvalId = some a) (hgates : gatesStep id k a = true) :
    countCalls id k w' = countCalls id k w ∨
      (countCalls id k w' ≤ countCalls id k w + 1 ∧
        (verdict ≠ .override → a.status = .pending) ∧
        ∃ a', w'.approval approvalId = some a' ∧ a'.status = .approved) := by
  cases h with
  | aside h => exact Or.inl (h.countCalls k)
  | resolvedAside found pending stored h =>
    left
    rw [h.countCalls k, stored]
    rfl
  | @resolvedRejected _ _ _ _ _ _ w₁ _ b _ step found pending stored _ gates hid h =>
    cases found.symm.trans ha
    obtain rfl := gatesStep_unique (gates.gatesStep_resolved hid found stored) hgates
    left
    rw [h.countCalls, stored]
    rfl
  | @resolvedApproved _ _ _ _ _ _ w₁ _ b _ step found pending stored status gates hid h =>
    cases found.symm.trans ha
    obtain rfl := gatesStep_unique (gates.gatesStep_resolved hid found stored) hgates
    have hcalls : countCalls id step.ordinal w₁ = countCalls id step.ordinal w := by
      rw [stored]
      rfl
    have hle := h.countCalls
    rw [hcalls] at hle
    refine Or.inr ⟨hle, pending, ?_⟩
    -- the verdict is stored before the step runs, and stays
    have ha₁ : w₁.approval approvalId =
        some (a.resolve verdict.status resolvedBy w.now roles) := by
      rw [stored]
      exact World.approval_resolveApproval found
    obtain ⟨w₂, p₁, hex, hdr⟩ := h
    have hkeeps : Keeps approvalId w₁ w' := (keeps_of_eq hex.approvals).trans hdr.keeps
    obtain ⟨a', ha', -, hst'⟩ := hkeeps _ ha₁
    exact ⟨a', ha', hst' status⟩

theorem tally_caused_le {o : PlanExecutorOptions} {listening : Bool} {approvalId id : String}
    {k : ℕ} (ops : List Op) :
    ∀ {w : World} {a : ApprovalRequest}, w.approval approvalId = some a →
      gatesStep id k a = true →
      AllServed (code o listening) (OverridesOpen approvalId) ops w →
      tally (code o listening) (causedCalls approvalId id k) ops w ≤ 1 ∧
        (a.status = .approved →
          tally (code o listening) (causedCalls approvalId id k) ops w = 0) := by
  induction ops with
  | nil => exact fun _ _ _ => ⟨by simp [tally], fun _ => rfl⟩
  | cons op ops ih =>
    intro w a ha hgates hok
    obtain ⟨hopen, hrest⟩ := hok
    have heffect := run_effect o listening id op w
    obtain ⟨a', ha', hctx, hst'⟩ := heffect.keeps a ha
    have hgates' : gatesStep id k a' = true := by
      rw [gatesStep_iff, hctx]
      exact gatesStep_iff.mp hgates
    obtain ⟨hle, hzero⟩ := ih ha' hgates' hrest
    simp only [tally]
    by_cases hres : op.resolves approvalId = true
    · cases op with
      | resolve verdict target resolvedBy roles =>
        obtain rfl : target = approvalId := by simpa [Op.resolves] using hres
        simp only [causedCalls, hres, if_true]
        rcases heffect.caused ha hgates with hsame | ⟨hone, hpend, b, hb, hbst⟩
        · rw [hsame, Nat.sub_self, Nat.zero_add]
          exact ⟨hle, fun hst => hzero (hst' hst)⟩
        · cases ha'.symm.trans hb
          have hrest0 := hzero hbst
          refine ⟨by omega, fun hst => ?_⟩
          -- an approved request: neither pending nor open to an override
          by_cases hv : verdict = .override
          · exact absurd hst (hopen resolvedBy roles (by rw [hv]) a ha)
          · rw [hpend hv] at hst
            cases hst
      | _ => simp [Op.resolves] at hres
    · rw [causedCalls, if_neg hres, Nat.zero_add]
      exact ⟨hle, fun hst => hzero (hst' hst)⟩

/-- **A request runs its step at most once.** In every session, from any state, in
which the request is never overridden while it is approved, its resolutions
together hand the step it gates to an adapter at most once, whatever other
operations are served between them. -/
theorem resolutions_run_once (o : PlanExecutorOptions) (listening : Bool)
    (approvalId id : String) (k : ℕ) (w₀ : World) (a : ApprovalRequest)
    (ha : w₀.approval approvalId = some a) (hgates : gatesStep id k a = true) (ops : List Op)
    (hok : AllServed (code o listening) (OverridesOpen approvalId) ops w₀) :
    tally (code o listening) (causedCalls approvalId id k) ops w₀ ≤ 1 :=
  (tally_caused_le ops ha hgates hok).1

def pausedWorld : World :=
  serveAll (code sampleOptions true) [.approve "org_main" "plan-1" false "ann"]
    (sampleWorld scalePlan)

theorem request_pausedWorld : ∃ a, pausedWorld.approval "req-0" = some a ∧
    gatesStep "plan-1" 0 a = true := by
  have h : (pausedWorld.approval "req-0").any (gatesStep "plan-1" 0) = true := by
    decide +kernel
  exact (Option.any_eq_true _ _).mp h

/-- A rejected request may be overridden: its step then runs, once. -/
theorem resolutions_run_once_scale :
    tally (code sampleOptions true) (causedCalls "req-0" "plan-1" 0)
      [.resolve .reject "req-0" "bob" none, .resolve .override "req-0" "eve" none,
        .resolve .approve "req-0" "bob" none] pausedWorld ≤ 1 := by
  obtain ⟨a, ha, hgates⟩ := request_pausedWorld
  refine resolutions_run_once sampleOptions true "req-0" "plan-1" 0 _ a ha hgates _
    ⟨?_, ?_, ?_, trivial⟩
  · rintro _ _ ⟨⟩
  · rintro _ _ - b hb hst
    have hrejected : (((code sampleOptions true (.resolve .reject "req-0" "bob" none)).run
        pausedWorld).2.approval "req-0").map (·.status) = some .rejected := by
      decide +kernel
    rw [hb, Option.map_some, hst] at hrejected
    cases hrejected
  · rintro _ _ ⟨⟩

/-- **An override of an approved request runs its step again.** -/
theorem override_runs_twice :
    ¬ ∀ (o : PlanExecutorOptions) (listening : Bool) (approvalId id : String) (k : ℕ)
      (w w₀ : World) (a : ApprovalRequest), Fresh id w →
      Serial (code o listening) (fun _ _ => True) w w₀ →
      w₀.approval approvalId = some a → gatesStep id k a = true →
      ∀ ops : List Op, (∀ op ∈ ops, op.resolves approvalId = true) →
        tally (code o listening) (causedCalls approvalId id k) ops w₀ ≤ 1 := by
  intro h
  obtain ⟨a, ha, hgates⟩ := request_pausedWorld
  have hrun : Serial (code sampleOptions true) (fun _ _ => True) (sampleWorld scalePlan)
      pausedWorld := Serial.serveAll (fun _ _ => trivial) _ .init
  have htwice := h sampleOptions true "req-0" "plan-1" 0 _ _ a fresh_scalePlan hrun ha hgates
    [.resolve .approve "req-0" "bob" none, .resolve .override "req-0" "eve" none]
    (by simp [Op.resolves])
  revert htwice
  decide +kernel

end OpenObs.Plans
