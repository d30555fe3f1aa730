import OpenObs.Plans.Absorbing

/-!
# Deadlines

A plan and an approval request both carry `expiresAt`, but a decision looks at the stored status
only: until the sweep has marked a plan its deadline has no effect, and nothing ever marks a
request.
-/

namespace OpenObs.Plans

open OpenObs.Foundation OpenObs.Approvals Prog

def RemediationPlan.Overdue (p : RemediationPlan) (now : String) : Prop :=
  p.status = .pendingApproval ∧ p.expiresAt ≤ now

instance (p : RemediationPlan) (now : String) : Decidable (p.Overdue now) :=
  inferInstanceAs (Decidable (_ ∧ _))

def ApprovalRequest.Overdue (a : ApprovalRequest) (now : String) : Prop :=
  a.status = .pending ∧ a.expiresAt ≤ now

/-! ## What keeps a plan closed -/

def Settles (w w' : World) : Prop :=
  ∀ id p', w'.findById id = some p' → p'.status = .pendingApproval →
    ∃ p, w.findById id = some p ∧ p.status = .pendingApproval ∧ p.expiresAt = p'.expiresAt

theorem Settles.refl (w : World) : Settles w w :=
  fun _ p hp hst => ⟨p, hp, hst, rfl⟩

theorem Settles.trans (w w' w'' : World) (h₁ : Settles w w') (h₂ : Settles w' w'') :
    Settles w w'' := by
  intro id p'' hp'' hst''
  obtain ⟨p', hp', hst', hexp'⟩ := h₂ id p'' hp'' hst''
  obtain ⟨p, hp, hst, hexp⟩ := h₁ id p' hp' hst'
  exact ⟨p, hp, hst, hexp.trans hexp'⟩

theorem Settles.of_eq {w w' : World} (h : w'.plans = w.plans) : Settles w w' := by
  intro id p' hp' hst
  rw [World.findById, h] at hp'
  exact ⟨p', hp', hst, rfl⟩

theorem settles_map {w w' : World} {f : RemediationPlan → RemediationPlan}
    (hplans : w'.plans = w.plans.map f) (hid : ∀ p, (f p).id = p.id)
    (hf : ∀ p, (f p).status = .pendingApproval →
      p.status = .pendingApproval ∧ p.expiresAt = (f p).expiresAt) : Settles w w' := by
  intro id p' hp' hst
  unfold World.findById at hp'
  rw [hplans, find?_map_row hid] at hp'
  obtain ⟨p, hp, rfl⟩ := Option.map_eq_some_iff.mp hp'
  obtain ⟨hpend, hexp⟩ := hf p hst
  exact ⟨p, hp, hpend, hexp⟩

/-- **No statement of a session puts a plan back to pending, or moves its deadline.** -/
theorem settles_statements : SessionStatements Settles where
  read := Settles.refl
  writePlan t orgId planId existing patch _ hpatch := by
    obtain ⟨status, hstatus, hne⟩ := hpatch
    refine settles_map rfl (fun p => by split <;> rfl) fun p hp => ?_
    by_cases hrow : p.orgId = orgId ∧ p.id = planId
    · rw [if_pos hrow] at hp
      simp only [RemediationPlan.write, hstatus, Option.getD_some] at hp
      exact absurd hp hne
    · rw [if_neg hrow] at hp ⊢
      exact ⟨hp, rfl⟩
  writeStep t planId k patch _ := by
    refine settles_map rfl (fun p => by split <;> rfl) fun p hp => ?_
    by_cases hrow : p.id = planId
    · rw [if_pos hrow] at hp ⊢
      exact ⟨hp, rfl⟩
    · rw [if_neg hrow] at hp ⊢
      exact ⟨hp, rfl⟩
  recordCall _ _ _ _ _ := .of_eq rfl
  submit _ _ _ _ _ _ := .of_eq rfl
  resolve _ _ _ _ _ := .of_eq rfl
  notify _ _ := .of_eq rfl
  expireStale t now := by
    refine settles_map rfl (fun p => by split <;> rfl) fun p hp => ?_
    by_cases hstale : p.status = .pendingApproval ∧ p.expiresAt ≤ now
    · rw [if_pos hstale] at hp
      cases hp
    · rw [if_neg hstale] at hp ⊢
      exact ⟨hp, rfl⟩
  setClock _ _ := .of_eq rfl

/-! ## Approvals of a plan -/

section Approve

variable {o : PlanExecutorOptions} {orgId id userId : String} {autoEdit : Bool} {w : World}

/-- `approve`, called alone, goes through: it returns, or it throws only after it has
stored the decision. -/
def ApprovesPlan (o : PlanExecutorOptions) (orgId id : String) (autoEdit : Bool)
    (userId : String) (w : World) : Prop :=
  (∃ outcome, ((approve o orgId id autoEdit userId).run w).1 = .ok outcome) ∨
    ((approve o orgId id autoEdit userId).run w).2.planStatus id ≠ w.planStatus id

theorem run_approve_refused (o : PlanExecutorOptions) (autoEdit : Bool) (userId : String)
    (h : ∀ p, w.findByIdInOrg orgId id = some p → p.status ≠ .pendingApproval) :
    ∃ e, (approve o orgId id autoEdit userId).run w = (.error e, w) := by
  unfold approve planForDecision findByIdInOrg
  rw [run_bind, run_bind, run_read]
  cases hfind : w.findByIdInOrg orgId id with
  | none => exact ⟨_, rfl⟩
  | some p =>
    dsimp only
    rw [if_neg (by simpa using h p hfind)]
    exact ⟨_, rfl⟩

theorem run_approve_taken {p : RemediationPlan} (hfind : w.findByIdInOrg orgId id = some p)
    (hst : p.status = .pendingApproval) :
    ((approve o orgId id autoEdit userId).run w).2.planStatus id ≠ some .pendingApproval := by
  obtain ⟨hrow, horg⟩ := World.findByIdInOrg_eq_some.mp hfind
  have hstored : ∃ w₁ q, w₁.findById id = some q ∧ q.status = .approved ∧
      (approve o orgId id autoEdit userId).run w =
        (do
          let _ ← updatePlan orgId id fun _ => { status := some .executing }
          runNext o orgId id o.fuel).run w₁ := by
    refine ⟨w.writePlan orgId id p
      { status := some .approved, autoEdit := some autoEdit, resolvedAt := some (some w.now),
        resolvedBy := some (some userId) }, _, World.findById_writePlan hrow horg, rfl, ?_⟩
    unfold approve planForDecision findByIdInOrg
    rw [run_bind, run_bind, run_read]
    simp only [hfind]
    rw [if_pos (by simp [hst])]
    dsimp only [run_pure]
    rw [run_bind]
    unfold updatePlan
    rw [run_bind, run_read]
    simp only [hfind]
    rfl
  obtain ⟨w₁, q, hq, hqst, hrun⟩ := hstored
  have hrest : Settles w₁ ((approve o orgId id autoEdit userId).run w).2 := by
    rw [hrun]
    refine run_related Settles.refl Settles.trans (Holds.bind_any ?_ fun _ _ => ?_)
    · exact updatePlan_each settles_statements.toStatements trivial (fun _ => rfl) (by decide)
    · exact runNext_each settles_statements.toStatements trivial o.fuel
  intro hpend
  obtain ⟨p', hp', hst'⟩ := Option.map_eq_some_iff.mp hpend
  obtain ⟨q', hq', hqst', -⟩ := hrest id p' hp' hst'
  cases hq.symm.trans hq'
  cases hqst.symm.trans hqst'

/-- **An approval goes through exactly if the plan is stored as pending.** -/
theorem approvesPlan_iff : ApprovesPlan o orgId id autoEdit userId w ↔
    ∃ p, w.findByIdInOrg orgId id = some p ∧ p.status = .pendingApproval := by
  constructor
  · intro h
    by_contra hno
    obtain ⟨e, hrun⟩ := run_approve_refused o autoEdit userId fun p hp hst => hno ⟨p, hp, hst⟩
    unfold ApprovesPlan at h
    rw [hrun] at h
    rcases h with ⟨_, h⟩ | h
    · cases h
    · exact h rfl
  · rintro ⟨p, hfind, hst⟩
    refine Or.inr fun hsame => run_approve_taken hfind hst (hsame.trans ?_)
    rw [planStatus_of_row (World.findByIdInOrg_eq_some.mp hfind).1, hst]

end Approve

/-! ## Approvals of a request -/

def ApprovesRequest (id resolvedBy : String) (roles : Option (List String)) (w : World) :
    Prop :=
  ∃ request, ((repoApprove id resolvedBy roles).run w).1 = .ok (some request)

theorem approvesRequest_iff {id resolvedBy : String} {roles : Option (List String)} {w : World} :
    ApprovesRequest id resolvedBy roles w ↔
      ∃ a, w.approval id = some a ∧ a.status = .pending := by
  unfold ApprovesRequest repoApprove resolvePending Approvals.findById
  rw [run_bind, run_read]
  cases ha : w.approval id with
  | none => simp
  | some a =>
    by_cases hst : a.status = .pending
    · simp [hst, resolve, World.approval_resolveApproval ha]
    · simp [hst]

/-! ## The result -/

section Deadlines

variable {o : PlanExecutorOptions} {listening : Bool} {c₀ c c' c'' : Config World Op Unit}

theorem swept_stays_closed {now : String} {i : ℕ} (h₀ : c₀.threads = [])
    (hrun : Run (code o listening) (fun _ _ => True) c₀ c)
    (hsweep : c.threads[i]? = some ⟨.expireStale now, code o listening (.expireStale now)⟩)
    (hn : c.next (code o listening) (.step i) = some c')
    (hlater : Run (code o listening) (fun _ _ => True) c' c'') {id : String}
    {p : RemediationPlan} (hp : c''.st.findById id = some p) (hexp : p.expiresAt ≤ now) :
    p.status ≠ .pendingApproval := by
  have hnone : ∀ th ∈ c₀.threads, th.prog.Holds (fun _ _ => True) Settles (fun _ _ => True)
      c₀.st := by simp [h₀]
  have hcode : ∀ op t, (code o listening op).Holds (fun _ _ => True) Settles
      (fun _ _ => True) t := fun op _ => code_each settles_statements op
  obtain ⟨-, hall⟩ := Run.related Settles.refl Settles.trans hcode hnone
    (hrun.tail _ trivial hn)
  obtain ⟨hrel, -⟩ := Run.related Settles.refl Settles.trans hcode hall hlater
  have hst' : c'.st = c.st.expireStale now := by
    obtain ⟨op, f, k, hi, hst, -⟩ := Config.next_step hn
    cases hsweep.symm.trans hi
    exact hst
  intro hpend
  obtain ⟨q, hq, hqst, hqexp⟩ := hrel id p hp hpend
  rw [hst', World.findById_expireStale] at hq
  obtain ⟨r, -, hr⟩ := Option.map_eq_some_iff.mp hq
  by_cases hstale : r.status = .pendingApproval ∧ r.expiresAt ≤ now
  · rw [if_pos hstale] at hr
    subst hr
    cases hqst
  · rw [if_neg hstale] at hr
    subst hr
    exact hstale ⟨hqst, hqexp.trans_le hexp⟩

/-- **When a deadline counts.** In every state of every run, with sweeps anywhere or
nowhere, an approval goes through only before the deadline exactly if the plan, or the
request, is not overdue there. The sweep marks the overdue plans and touches nothing
else; a plan whose deadline a sweep has seen is not approved any more. -/
theorem approved_before_deadline_iff (o : PlanExecutorOptions) (listening : Bool)
    (c₀ c : Config World Op Unit) (h₀ : c₀.threads = [])
    (hrun : Run (code o listening) (fun _ _ => True) c₀ c) :
    (∀ orgId id autoEdit userId,
      (ApprovesPlan o orgId id autoEdit userId c.st →
        ∀ p, c.st.findByIdInOrg orgId id = some p → c.st.now < p.expiresAt) ↔
      ∀ p, c.st.findByIdInOrg orgId id = some p → ¬ p.Overdue c.st.now) ∧
    (∀ id resolvedBy roles,
      (ApprovesRequest id resolvedBy roles c.st →
        ∀ a, c.st.approval id = some a → c.st.now < a.expiresAt) ↔
      ∀ a, c.st.approval id = some a → ¬ a.Overdue c.st.now) ∧
    (∀ now, ((expireStale now).run c.st).2 =
      { c.st with
        plans := c.st.plans.map fun p =>
          if p.Overdue now then { p with status := .expired } else p }) ∧
    ∀ now i c' c'',
      c.threads[i]? = some ⟨.expireStale now, code o listening (.expireStale now)⟩ →
      c.next (code o listening) (.step i) = some c' →
      Run (code o listening) (fun _ _ => True) c' c'' →
      ∀ orgId id p autoEdit userId, c''.st.findByIdInOrg orgId id = some p →
        p.expiresAt ≤ now → ¬ ApprovesPlan o orgId id autoEdit userId c''.st := by
  refine ⟨fun orgId id autoEdit userId => ?_, fun id resolvedBy roles => ?_, fun now => rfl, ?_⟩
  · rw [approvesPlan_iff]
    constructor
    · rintro h p hp ⟨hst, hexp⟩
      exact String.not_lt.mpr hexp (h ⟨p, hp, hst⟩ p hp)
    · rintro h ⟨q, hq, hst⟩ p hp
      cases hq.symm.trans hp
      exact String.not_le.mp fun hexp => h q hp ⟨hst, hexp⟩
  · rw [approvesRequest_iff]
    constructor
    · rintro h a ha ⟨hst, hexp⟩
      exact String.not_lt.mpr hexp (h ⟨a, ha, hst⟩ a ha)
    · rintro h ⟨b, hb, hst⟩ a ha
      cases hb.symm.trans ha
      exact String.not_le.mp fun hexp => h b ha ⟨hst, hexp⟩
  · intro now i c' c'' hsweep hn hlater orgId id p autoEdit userId hfind hexp happ
    obtain ⟨q, hq, hst⟩ := approvesPlan_iff.mp happ
    cases hfind.symm.trans hq
    exact swept_stays_closed h₀ hrun hsweep hn hlater
      (World.findByIdInOrg_eq_some.mp hfind).1 hexp hst

end Deadlines

def overdueWorld : World :=
  let request := newRequest sampleOptions.runtime
    { action := { type := "ops.run_command", targetService := "k8s-prod", params := [] }
      context := { investigationId := none, requestedBy := "agent", reason := "scale web"
                   planId := none, stepOrdinal := none } }
    (sampleWorld scalePlan)
  { sampleWorld { scalePlan with expiresAt := "2026-05-01T00:00:00.000Z" } with
    approvals := [{ request with expiresAt := "2026-05-01T00:00:00.000Z" }]
    now := "2026-05-02T00:00:00.000Z" }

/-- Swept in time, the overdue plan is not approved. -/
theorem approved_before_deadline_swept :
    ∃ c, Config.exec (code sampleOptions true) ⟨overdueWorld, []⟩
        [.start (.expireStale "2026-05-02T00:00:00.000Z"), .step 0] = some c ∧
      ∀ userId, ¬ ApprovesPlan sampleOptions "org_main" "plan-1" false userId c.st := by
  refine ⟨_, rfl, fun userId => ?_⟩
  have hstart : Run (code sampleOptions true) (fun _ _ => True) ⟨overdueWorld, []⟩ _ :=
    Run.init.tail (.start (.expireStale "2026-05-02T00:00:00.000Z")) trivial rfl
  exact (approved_before_deadline_iff sampleOptions true ⟨overdueWorld, []⟩ _ rfl hstart).2.2.2
    "2026-05-02T00:00:00.000Z" 0 _ _ rfl rfl .init "org_main" "plan-1" _ false userId rfl
    (by decide)

/-- **Both are approved a day late**, in a run without a sweep. -/
theorem overdue_approved :
    (¬ ∀ (o : PlanExecutorOptions) (listening : Bool) (c₀ c : Config World Op Unit),
      c₀.threads = [] → Run (code o listening) (fun _ _ => True) c₀ c →
      ∀ orgId id autoEdit userId, ApprovesPlan o orgId id autoEdit userId c.st →
        ∀ p, c.st.findByIdInOrg orgId id = some p → c.st.now < p.expiresAt) ∧
    ¬ ∀ (o : PlanExecutorOptions) (listening : Bool) (c₀ c : Config World Op Unit),
      c₀.threads = [] → Run (code o listening) (fun _ _ => True) c₀ c →
      ∀ id resolvedBy roles, ApprovesRequest id resolvedBy roles c.st →
        ∀ a, c.st.approval id = some a → c.st.now < a.expiresAt := by
  constructor
  · intro h
    have happ : ApprovesPlan sampleOptions "org_main" "plan-1" false "ann" overdueWorld :=
      approvesPlan_iff.mpr ⟨_, rfl, rfl⟩
    exact absurd (h sampleOptions true ⟨overdueWorld, []⟩ _ rfl .init "org_main" "plan-1" false
      "ann" happ _ rfl) (by decide)
  · intro h
    have happ : ApprovesRequest "req-0" "bob" none overdueWorld :=
      approvesRequest_iff.mpr ⟨_, rfl, rfl⟩
    exact absurd (h sampleOptions true ⟨overdueWorld, []⟩ _ rfl .init "req-0" "bob" none happ _
      rfl) (by decide)

end OpenObs.Plans
