import OpenObs.Approvals.Access
import OpenObs.Foundation.Pool
import OpenObs.Plans.Execution

/-!
# Where a request is listed

`submit` names no org, so a new row takes the default of the column, and `list`
selects on that column. The file follows a request from its creation through
any later run: which org lists it is settled by the default, not by the plan
that waits for it.
-/

namespace OpenObs.Approvals

open OpenObs.Foundation OpenObs.Plans Prog

/-! ## Tasks and the list -/

/-- What runs beside each other: the operations on plans, and requests that
others submit, such as the approval of a plan as a whole. -/
inductive Task : Type where
  | plans (op : Op)
  | submit (params : SubmitParams)

def Task.code (o : PlanExecutorOptions) (listening : Bool) : Task → Prog World Unit
  | .plans op => Plans.code o listening op
  | .submit params => do let _ ← Approvals.submit o.runtime params

def Listed (w : World) (orgId id : String) : Prop :=
  ∃ row ∈ list w.approvals orgId (some .wildcard) none, row.id = id

def ListedOnlyIn (w : World) (orgId id : String) : Prop :=
  Listed w orgId id ∧ ∀ other, other ≠ orgId → ¬ Listed w other id

/-- The request in `w'` that gates step `k` of a stored plan and was created after
`w`. -/
structure StepRequest (w w' : World) (plan : RemediationPlan) (k : ℕ)
    (a : ApprovalRequest) : Prop where
  row : w'.findById plan.id = some plan
  stored : a ∈ w'.approvals
  created : ∀ b ∈ w.approvals, b.id ≠ a.id
  plan : a.context.planId = some plan.id
  step : a.context.stepOrdinal = some k

theorem listed_iff {w : World} {orgId id : String} :
    Listed w orgId id ↔ ∃ row ∈ w.approvals, row.orgId = orgId ∧ row.id = id := by
  unfold Listed list buildListWhere
  simp [List.mem_mergeSort, and_assoc]

/-! ## The org of a row -/

structure KeepsOrgs (s t : World) : Prop where
  kept : ∀ a ∈ s.approvals, ∃ b ∈ t.approvals, b.id = a.id ∧ b.orgId = a.orgId
  origin : ∀ b ∈ t.approvals, b.orgId = "org_main" ∨
    ∃ a ∈ s.approvals, a.id = b.id ∧ a.orgId = b.orgId

theorem KeepsOrgs.of_eq {s t : World} (h : t.approvals = s.approvals) : KeepsOrgs s t where
  kept a ha := ⟨a, h ▸ ha, rfl, rfl⟩
  origin b hb := Or.inr ⟨b, h ▸ hb, rfl, rfl⟩

theorem KeepsOrgs.refl (s : World) : KeepsOrgs s s := .of_eq rfl

theorem KeepsOrgs.trans {s t u : World} (h₁ : KeepsOrgs s t) (h₂ : KeepsOrgs t u) :
    KeepsOrgs s u := by
  constructor
  · intro a ha
    obtain ⟨b, hb, hid, horg⟩ := h₁.kept a ha
    obtain ⟨c, hc, hid', horg'⟩ := h₂.kept b hb
    exact ⟨c, hc, hid'.trans hid, horg'.trans horg⟩
  · intro c hc
    rcases h₂.origin c hc with hmain | ⟨b, hb, hid, horg⟩
    · exact Or.inl hmain
    rcases h₁.origin b hb with hmain | ⟨a, ha, hid', horg'⟩
    · exact Or.inl (horg.symm.trans hmain)
    · exact Or.inr ⟨a, ha, hid'.trans hid, horg'.trans horg⟩

theorem keepsOrgs_insert (rt : Runtime) (params : SubmitParams) (t : World) :
    KeepsOrgs t (t.insertApproval (newRequest rt params t)) := by
  constructor
  · intro a ha
    exact ⟨a, List.mem_append_left _ ha, rfl, rfl⟩
  · intro b hb
    rcases List.mem_append.mp hb with hb | hb
    · exact Or.inr ⟨b, hb, rfl, rfl⟩
    · -- the row that `submit` just inserted
      rw [List.mem_singleton.mp hb]
      exact Or.inl rfl

theorem keepsOrgs_resolve (t : World) (id : String) (status : ApprovalStatus)
    (resolvedBy : String) (roles : Option (List String)) :
    KeepsOrgs t (t.resolveApproval id status resolvedBy roles) := by
  have hrow : ∀ a : ApprovalRequest,
      (if a.id = id then a.resolve status resolvedBy t.now roles else a).id = a.id ∧
      (if a.id = id then a.resolve status resolvedBy t.now roles else a).orgId = a.orgId := by
    intro a
    split
    · exact ⟨rfl, rfl⟩
    · exact ⟨rfl, rfl⟩
  constructor
  · intro a ha
    exact ⟨_, List.mem_map_of_mem ha, hrow a⟩
  · intro b hb
    obtain ⟨a, ha, rfl⟩ := List.mem_map.mp hb
    obtain ⟨hid, horg⟩ := hrow a
    exact Or.inr ⟨a, ha, hid.symm, horg.symm⟩

theorem keepsOrgs_statements : SessionStatements KeepsOrgs where
  read := KeepsOrgs.refl
  writePlan _ _ _ _ _ _ _ := .of_eq rfl
  writeStep _ _ _ _ _ := .of_eq rfl
  recordCall _ _ _ _ _ := .of_eq rfl
  submit t rt _ _ _ _ := keepsOrgs_insert rt _ t
  resolve := keepsOrgs_resolve
  notify _ _ := .of_eq rfl
  expireStale _ _ := .of_eq rfl
  setClock _ _ := .of_eq rfl

theorem task_keepsOrgs {o : PlanExecutorOptions} {listening : Bool} (task : Task) (w : World) :
    (task.code o listening).Holds (fun _ _ => True) KeepsOrgs (fun _ _ => True) w := by
  cases task with
  | plans op => exact code_each keepsOrgs_statements op
  | submit params =>
    exact Holds.discard (submit_each KeepsOrgs.refl (keepsOrgs_insert o.runtime params))

/-! ## Who lists the request -/

section Runs

variable {o : PlanExecutorOptions} {listening : Bool} {w : World}
  {c c' : Config World Task Unit}

theorem listed_iff_default {a : ApprovalRequest} {orgId : String}
    (hrun : Run (Task.code o listening) (fun _ _ => True) ⟨w, []⟩ c)
    (hlater : Run (Task.code o listening) (fun _ _ => True) c c')
    (ha : a ∈ c.st.approvals) (hnew : ∀ b ∈ w.approvals, b.id ≠ a.id) :
    Listed c'.st orgId a.id ↔ orgId = "org_main" := by
  have hcreated : ∀ {s t : World}, KeepsOrgs s t → (∀ b ∈ s.approvals, b.id ≠ a.id) →
      ∀ b ∈ t.approvals, b.id = a.id → b.orgId = "org_main" := by
    intro s t hkeep hfresh b hb hid
    rcases hkeep.origin b hb with hmain | ⟨b', hb', hid', -⟩
    · exact hmain
    · exact absurd (hid'.trans hid) (hfresh b' hb')
  obtain ⟨hkeep, hthreads⟩ := hrun.related KeepsOrgs.refl (fun _ _ _ => KeepsOrgs.trans)
    task_keepsOrgs (by simp)
  obtain ⟨hkeep', -⟩ := hlater.related KeepsOrgs.refl (fun _ _ _ => KeepsOrgs.trans)
    task_keepsOrgs hthreads
  rw [listed_iff]
  constructor
  · rintro ⟨row, hrow, rfl, hid⟩
    exact hcreated (hkeep.trans hkeep') hnew row hrow hid
  · rintro rfl
    obtain ⟨row, hrow, hid, horg⟩ := hkeep'.kept a ha
    exact ⟨row, hrow, horg.trans (hcreated hkeep hnew a ha rfl), hid⟩

end Runs

/-- **Where the request of a step is listed.** Whatever runs beside each other, at
its creation and ever after, resolved or not: the org of the plan lists the
request, and no other does, exactly when the plan belongs to the default org. -/
theorem step_request_listed_iff (o : PlanExecutorOptions) (listening : Bool) (w : World)
    (c c' : Config World Task Unit) (plan : RemediationPlan) (k : ℕ) (a : ApprovalRequest)
    (hrun : Run (Task.code o listening) (fun _ _ => True) ⟨w, []⟩ c)
    (hlater : Run (Task.code o listening) (fun _ _ => True) c c')
    (ha : StepRequest w c.st plan k a) :
    ListedOnlyIn c'.st plan.orgId a.id ↔ plan.orgId = "org_main" := by
  have hlisted : ∀ orgId, Listed c'.st orgId a.id ↔ orgId = "org_main" :=
    fun orgId => listed_iff_default hrun hlater ha.stored ha.created
  constructor
  · rintro ⟨hhere, -⟩
    exact (hlisted plan.orgId).mp hhere
  · intro hmain
    refine ⟨(hlisted plan.orgId).mpr hmain, fun other hother hthere => ?_⟩
    exact hother (((hlisted other).mp hthere).trans hmain.symm)

/-! ## A pause of a one-step plan -/

/-- The approval of the plan up to its pause: the two updates, the read of `runNext`,
the request and its id on the step. -/
def pause (orgId : String) : List (Label Task) :=
  .start (.plans (.approve orgId "plan-1" false "ann")) :: List.replicate 8 (.step 0)

structure Pause where
  org : Option String
  request : Option (String × Option String × Option ℕ)
deriving DecidableEq

def atPause (c : Config World Task Unit) : Pause where
  org := (c.st.findById "plan-1").map (·.orgId)
  request := c.st.approvals.head?.map fun a =>
    (a.id, a.context.planId, a.context.stepOrdinal)

theorem stepRequest_atPause (plan : RemediationPlan) {orgId : String}
    {c : Config World Task Unit}
    (hc : atPause c = ⟨some orgId, some ("req-0", some "plan-1", some 0)⟩) :
    ∃ p a, p.orgId = orgId ∧ a.id = "req-0" ∧ StepRequest (sampleWorld plan) c.st p 0 a := by
  obtain ⟨hplan, hrequest⟩ := Pause.mk.inj hc
  obtain ⟨p, hp, horg⟩ := Option.map_eq_some_iff.mp hplan
  obtain ⟨a, ha, hfields⟩ := Option.map_eq_some_iff.mp hrequest
  obtain ⟨hid, hcontext⟩ := Prod.mk.inj hfields
  obtain ⟨hplanId, hstep⟩ := Prod.mk.inj hcontext
  have hpid : p.id = "plan-1" := World.findById_id hp
  refine ⟨p, a, horg, hid, ?_, List.mem_of_head? ha, by simp [sampleWorld], ?_, hstep⟩
  · rw [hpid]
    exact hp
  · rw [hpid]
    exact hplanId

/-- In the default org: the request is approved, and is still where it was. -/
theorem step_request_listed_iff_main :
    ∃ c c', Config.exec (Task.code sampleOptions true) ⟨sampleWorld scalePlan, []⟩
        (pause "org_main") = some c ∧
      c.exec (Task.code sampleOptions true)
        (.start (.plans (.resolve .approve "req-0" "bob" none)) :: List.replicate 2 (.step 1)) =
          some c' ∧
      c'.st.approvals.map (·.status) = [.approved] ∧
      ListedOnlyIn c'.st "org_main" "req-0" := by
  have hexec : (Config.exec (Task.code sampleOptions true) ⟨sampleWorld scalePlan, []⟩
      (pause "org_main")).map (fun c => (atPause c, (c.exec (Task.code sampleOptions true)
        (.start (.plans (.resolve .approve "req-0" "bob" none)) ::
          List.replicate 2 (.step 1))).map fun c' => c'.st.approvals.map (·.status))) =
      some (⟨some "org_main", some ("req-0", some "plan-1", some 0)⟩, some [.approved]) := by
    decide +kernel
  obtain ⟨c, hc, hpair⟩ := Option.map_eq_some_iff.mp hexec
  obtain ⟨hpause, hrest⟩ := Prod.mk.inj hpair
  obtain ⟨c', hc', hstatus⟩ := Option.map_eq_some_iff.mp hrest
  obtain ⟨p, a, horg, hid, hrequest⟩ := stepRequest_atPause scalePlan hpause
  refine ⟨c, c', hc, hc', hstatus, ?_⟩
  have hiff := step_request_listed_iff sampleOptions true (sampleWorld scalePlan) c c' p 0 a
    (Run.init.of_exec (allOk_of_forall (fun _ _ => trivial) _ _) hc)
    (Run.init.of_exec (allOk_of_forall (fun _ _ => trivial) _ _) hc') hrequest
  rw [horg, hid] at hiff
  exact hiff.mpr rfl

/-- **The request of another org is listed in the default org only.** The plan of
`org-b` waits for a request that `org-b` cannot see. -/
theorem request_of_other_org_hidden :
    ¬ ∀ (o : PlanExecutorOptions) (listening : Bool) (w : World)
      (c c' : Config World Task Unit) (plan : RemediationPlan) (k : ℕ) (a : ApprovalRequest),
      Run (Task.code o listening) (fun _ _ => True) ⟨w, []⟩ c →
      Run (Task.code o listening) (fun _ _ => True) c c' →
      StepRequest w c.st plan k a → ListedOnlyIn c'.st plan.orgId a.id := by
  intro h
  have hexec : (Config.exec (Task.code sampleOptions true)
      ⟨sampleWorld { scalePlan with orgId := "org-b" }, []⟩ (pause "org-b")).map
        (fun c => (atPause c, c.st.approvals.map fun a => (a.id, a.orgId))) =
      some (⟨some "org-b", some ("req-0", some "plan-1", some 0)⟩,
        [("req-0", "org_main")]) := by
    decide +kernel
  obtain ⟨c, hc, hpair⟩ := Option.map_eq_some_iff.mp hexec
  obtain ⟨hpause, hrows⟩ := Prod.mk.inj hpair
  obtain ⟨p, a, horg, hid, hrequest⟩ :=
    stepRequest_atPause { scalePlan with orgId := "org-b" } hpause
  have hlisted := h sampleOptions true _ c c p 0 a
    (Run.init.of_exec (allOk_of_forall (fun _ _ => trivial) _ _) hc) Run.init hrequest
  obtain ⟨row, hrow, hrowOrg, -⟩ := listed_iff.mp hlisted.1
  have hmem : (row.id, row.orgId) ∈ c.st.approvals.map fun a => (a.id, a.orgId) :=
    List.mem_map_of_mem hrow
  rw [hrows, List.mem_singleton] at hmem
  have hmain : row.orgId = "org_main" := (Prod.mk.inj hmem).2
  rw [hrowOrg, horg] at hmain
  exact absurd hmain (by decide)

end OpenObs.Approvals
