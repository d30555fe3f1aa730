import OpenObs.Agent.DashboardTools
import OpenObs.Rules.Tenancy

/-!
# Shared dashboards

What a session does to the dashboards it did not create. The tools that ask for it propose a pending
change and write nothing.
-/

namespace OpenObs.Agent

open OpenObs.Foundation OpenObs.Resources OpenObs.Rules OpenObs.Dashboards

/-! ## Calls -/

/-- The dashboard tools, the page that opens a dashboard, and the reading tools whose
results `dashboard_add_panels` looks for. -/
inductive DashboardCall : Type where
  | openPage (dashboardId : String)
  | create (drawn : DrawnCall) (args : Json.Record)
  | clone (drawn : DrawnCall) (args : Json.Record)
  | addPanels (drawn : DrawnCall) (args : Json.Record)
  | setTitle (drawn : DrawnCall) (args : Json.Record)
  | removePanels (drawn : DrawnCall) (args : Json.Record)
  | modifyPanel (drawn : DrawnCall) (args : Json.Record)
  | addVariable (drawn : DrawnCall) (args : Json.Record)
  | webSearched
  | metricsDiscovered
  | queryValidated (expr : String)

def activatePage (dashboardId : String) : Prog Session String := do
  match ← (DashboardRepository.findById dashboardId).zoom Session.db with
  | none => throw ("Dashboard " ++ dashboardId ++ " not found")
  | some dashboard => do
      Prog.write fun s => { s with activeDashboardId := some dashboard.id }
      return ""

def gather (evidence : BuildEvidence → BuildEvidence) : Prog Session String := do
  Prog.write fun s => { s with dashboardBuildEvidence := evidence s.dashboardBuildEvidence }
  return ""

def dispatched (action : String) (handler : Prog Session String) : Prog Session String :=
  tryCatch handler fun e => return "Action \"" ++ action ++ "\" failed: " ++ e ++
    ". Do NOT retry — end your turn with a plain-text reply that tells the user what went wrong."

def DashboardCall.code (ctx : ActionContext) : DashboardCall → Prog Session String
  | .openPage dashboardId => activatePage dashboardId
  | .create drawn args => dispatched "dashboard_create" (handleDashboardCreate ctx drawn args)
  | .clone drawn args => dispatched "dashboard_clone" (handleDashboardClone ctx drawn args)
  | .addPanels drawn args => dispatched "dashboard_add_panels" (handleDashboardAddPanels drawn args)
  | .setTitle drawn args => dispatched "dashboard_set_title" (handleDashboardSetTitle drawn args)
  | .removePanels drawn args =>
    dispatched "dashboard_remove_panels" (handleDashboardRemovePanels ctx drawn args)
  | .modifyPanel drawn args =>
    dispatched "dashboard_modify_panel" (handleDashboardModifyPanel ctx drawn args)
  | .addVariable drawn args =>
    dispatched "dashboard_add_variable" (handleDashboardAddVariable ctx drawn args)
  | .webSearched => gather fun e => { e with webSearchCount := e.webSearchCount + 1 }
  | .metricsDiscovered => gather fun e => { e with metricDiscoveryCount := e.metricDiscoveryCount + 1 }
  | .queryValidated expr => gather fun e => { e with validatedQueries := e.validatedQueries ++ [expr] }

/-! ## What a session leaves alone -/

/-- Every dashboard of the first state is what it was, none of them counts as created here,
and the pending changes have only grown. -/
structure Kept (s₀ s : Session) : Prop where
  found : ∀ d ∈ s₀.tables.dashboards, s.tables.findDashboardById d.id = some d
  fresh : ∀ id ∈ s.freshlyCreatedDashboards, id ∉ s₀.tables.dashboards.map (·.id)
  pending : s₀.pendingChanges <+: s.pendingChanges

section Frame

variable {s₀ s : Session} {drawn : DrawnCall} {ctx : ActionContext} {id : String}

theorem Kept.withTables (h : Kept s₀ s) {t : Tables}
    (hfound : ∀ d ∈ s₀.tables.dashboards, t.findDashboardById d.id = some d) :
    Kept s₀ (Session.db.set t s) where
  found := hfound
  fresh := h.fresh
  pending := h.pending

theorem Kept.withOther (h : Kept s₀ s) (hid : id ∉ s₀.tables.dashboards.map (·.id)) {t : Tables}
    (ht : ∀ other, other ≠ id → t.findDashboardById other = s.tables.findDashboardById other) :
    Kept s₀ (Session.db.set t s) := by
  apply h.withTables
  intro d hd
  rw [ht d.id fun heq => hid (heq ▸ List.mem_map_of_mem hd)]
  exact h.found d hd

theorem Kept.send (h : Kept s₀ s) (events : List DashboardSseEvent) :
    Kept s₀ { s with events } where
  found := h.found
  fresh := h.fresh
  pending := h.pending

theorem Kept.absent (h : Kept s₀ s) (hid : s.tables.findDashboardById id = none) :
    id ∉ s₀.tables.dashboards.map (·.id) := by
  intro hmem
  obtain ⟨d, hd, rfl⟩ := List.mem_map.mp hmem
  rw [h.found d hd] at hid
  cases hid

theorem run_findDashboard :
    ((DashboardRepository.findById id).zoom Session.db).run s =
      (.ok ((s.tables.findDashboardById id).map rowToDashboard), s) := rfl

theorem kept_modify (h : Kept s₀ s) (hid : id ∉ s₀.tables.dashboards.map (·.id))
    {edit : Dashboard → Dashboard → Dashboard} (hedit : ∀ existing d, (edit existing d).id = d.id) :
    Kept s₀ (((DashboardRepository.modify id edit).zoom Session.db).run s).2 := by
  apply Prog.keep_zoom
  exact h.withOther hid fun other hother => findDashboardById_modify hedit hother

theorem kept_tryUpdateDashboardStatus (h : Kept s₀ s)
    (hid : id ∉ s₀.tables.dashboards.map (·.id)) {status : String} {error : Option String} :
    Kept s₀ ((tryUpdateDashboardStatus drawn id status error).run s).2 := by
  rw [tryUpdateDashboardStatus]
  refine Prog.keep_tryCatch ?_ fun e s' _ h' => h'.send _
  rw [Prog.run_discard, DashboardRepository.updateStatus]
  apply kept_modify h hid
  exact fun _ _ => rfl

theorem kept_executeAction (h : Kept s₀ s) (hid : id ∉ s₀.tables.dashboards.map (·.id))
    {action : DashboardAction} : Kept s₀ ((executeAction drawn id action).run s).2 := by
  rw [executeAction]
  refine Prog.keep_bind ?_ fun events s' _ h' => h'.send _
  apply Prog.keep_zoom
  exact h.withOther hid fun other hother => ActionExecutor.findDashboardById_applyAction hother

theorem kept_executeAction_provisioned (h : Kept s₀ s) {row : Dashboard}
    (hrow : s.tables.findDashboardById id = some row) (hsource : isProvisioned row.source = true)
    {action : DashboardAction} : Kept s₀ ((executeAction drawn id action).run s).2 := by
  have hrun : (ActionExecutor.applyAction drawn.now id action).run s.tables =
      (.error (provisionedMessage "dashboard" row.id row.source), s.tables) := by
    rw [ActionExecutor.applyAction, DashboardRepository.findById, Prog.run_bind, Prog.run_read, hrow]
    dsimp only [Option.map_some, rowToDashboard]
    rw [if_pos hsource]
    rfl
  rw [executeAction]
  refine Prog.keep_bind ?_ fun events s' _ h' => h'.send _
  apply Prog.keep_zoom
  show Kept s₀ (Session.db.set ((ActionExecutor.applyAction drawn.now id action).run s.tables).2 s)
  rw [hrun]
  exact h

theorem kept_create (h : Kept s₀ s) (id now : String) (input : NewDashboard) :
    Kept s₀ (((DashboardRepository.create id now input).zoom Session.db).run s).2 ∧
      ∀ dashboard s', ((DashboardRepository.create id now input).zoom Session.db).run s =
          (.ok dashboard, s') →
        dashboard.id ∉ s₀.tables.dashboards.map (·.id) := by
  constructor
  · apply Prog.keep_zoom
    exact h.withTables fun d hd => findDashboardById_create (h.found d hd)
  · intro dashboard s' hrun
    rw [Prog.run_zoom] at hrun
    have hfst : ((DashboardRepository.create id now input).run s.tables).1 = .ok dashboard :=
      congrArg Prod.fst hrun
    rcases run_create s.tables id now input with ⟨e, herr⟩ | ⟨hid, hok⟩
    · rw [herr] at hfst
      cases hfst
    · rw [hok] at hfst
      cases hfst
      intro hmem
      obtain ⟨d, hd, hdid⟩ := List.mem_map.mp hmem
      have hfound : d ∈ s.tables.dashboards := List.mem_of_find?_eq_some (h.found d hd)
      exact hid (List.mem_map.mpr ⟨d, hfound, hdid⟩)

theorem kept_activate (h : Kept s₀ s) (hid : id ∉ s₀.tables.dashboards.map (·.id)) :
    Kept s₀ ((activate id).run s).2 where
  found := h.found
  fresh := by
    intro other hother
    rcases List.mem_append.mp hother with hold | hnew
    · exact h.fresh other hold
    · rw [List.mem_singleton.mp hnew]
      exact hid
  pending := h.pending

theorem kept_queuePending (h : Kept s₀ s) {k : ℕ} {summary : String}
    {op : PendingDashboardChangeOp} :
    Kept s₀ ((queuePending ctx drawn k id summary op).run s).2 := by
  rw [queuePending]
  split
  · exact ⟨h.found, h.fresh, h.pending.trans (List.prefix_append _ _)⟩
  · exact h.send _

theorem kept_queueRemovals {panelIds : List (String × ℕ)} :
    ∀ {s : Session}, Kept s₀ s → Kept s₀ ((queueRemovals ctx drawn id panelIds).run s).2 := by
  induction panelIds with
  | nil => exact fun h => h
  | cons p rest ih =>
    intro s h
    exact Prog.keep_bind (kept_queuePending h) fun _ _ _ h' => ih h'

/-! ## Handlers -/

theorem kept_dispatched {action : String} {handler : Prog Session String}
    (hhandler : Kept s₀ (handler.run s).2) : Kept s₀ ((dispatched action handler).run s).2 :=
  Prog.keep_tryCatch hhandler fun _ _ _ h => h

theorem kept_failingQuietly {handler : Prog Session String}
    (hhandler : Kept s₀ (handler.run s).2) : Kept s₀ ((failingQuietly handler).run s).2 :=
  Prog.keep_tryCatch hhandler fun _ _ _ h => h

theorem kept_onActiveDashboard (h : Kept s₀ s) {handler : String → Prog Session String}
    (hhandler : ∀ id, Folders.truthy s.activeDashboardId = some id →
      Kept s₀ ((handler id).run s).2) :
    Kept s₀ ((onActiveDashboard handler).run s).2 := by
  rw [onActiveDashboard, Prog.run_bind, Prog.run_read]
  dsimp only
  cases hactive : Folders.truthy s.activeDashboardId with
  | none => exact h
  | some id => exact hhandler id hactive

theorem kept_asking (h : Kept s₀ s) {apply propose : Prog Session String}
    (happly : id ∉ s₀.tables.dashboards.map (·.id) → Kept s₀ (apply.run s).2)
    (hpropose : Kept s₀ (propose.run s).2) :
    Kept s₀ ((Prog.read (isFreshlyCreated · id) >>= fun fresh =>
      if fresh = true then apply else propose).run s).2 := by
  rw [Prog.run_bind, Prog.run_read]
  dsimp only
  split
  · rename_i hfresh
    apply happly
    exact h.fresh id (of_decide_eq_true hfresh)
  · exact hpropose

theorem kept_handleDashboardCreate (h : Kept s₀ s) {args : Json.Record} :
    Kept s₀ ((handleDashboardCreate ctx drawn args).run s).2 := by
  rw [handleDashboardCreate]
  split
  · exact h
  · obtain ⟨hcreate, hnew⟩ := kept_create h drawn.dashboardId drawn.now
      (newDashboard ctx (stringOr args "title" "Untitled Dashboard")
        (stringOr args "description" "")
        (stringOf (orDefault (Json.field args "prompt")
          (orDefault (Json.field args "description") (.str ""))))
        (trimmed (Json.field args "datasourceId")))
    refine Prog.keep_bind hcreate fun dashboard s' hrun h' => ?_
    exact kept_activate h' (hnew dashboard s' hrun)

theorem kept_handleDashboardClone (h : Kept s₀ s) {args : Json.Record} :
    Kept s₀ ((handleDashboardClone ctx drawn args).run s).2 := by
  rw [handleDashboardClone]
  dsimp only
  split
  · exact h
  split
  · exact h
  rw [Prog.run_bind, run_findDashboard]
  dsimp only
  cases s.tables.findDashboardById (stringOr args "sourceDashboardId" "") with
  | none => exact h
  | some source =>
    dsimp only [Option.map_some]
    split
    · exact h
    · rename_i panels _
      refine Prog.keep_bind (kept_create h _ _ _).1 fun created s' hrun h' => ?_
      have hid := (kept_create h _ _ _).2 created s' hrun
      refine Prog.keep_bind (kept_modify h' hid fun _ _ => rfl) fun _ s'' _ h'' => ?_
      refine Prog.keep_bind (kept_modify h'' hid fun _ _ => rfl) fun _ s₃ _ h₃ => ?_
      refine Prog.keep_bind (kept_tryUpdateDashboardStatus h₃ hid) fun _ s₄ _ h₄ => ?_
      exact kept_activate h₄ hid

theorem kept_runAddPanels (h : Kept s₀ s) (hid : id ∉ s₀.tables.dashboards.map (·.id))
    {panels : List Json} : Kept s₀ ((runAddPanels drawn id panels).run s).2 := by
  rw [runAddPanels]
  split
  · exact h
  rw [Prog.run_bind, run_findDashboard]
  dsimp only
  split
  · exact h
  refine Prog.keep_bind (kept_executeAction h hid) fun _ s' _ h' => ?_
  refine Prog.keep_bind (kept_tryUpdateDashboardStatus h' hid) fun _ s'' _ h'' => ?_
  exact h''.send _

theorem kept_handleDashboardAddPanels (h : Kept s₀ s) {args : Json.Record}
    (hargs : ∀ id panels, Folders.truthy s.activeDashboardId = some id →
      panelsToAdd s.dashboardBuildEvidence args = .ok (.inr panels) →
      id ∉ s₀.tables.dashboards.map (·.id)) :
    Kept s₀ ((handleDashboardAddPanels drawn args).run s).2 := by
  refine kept_onActiveDashboard h fun id hactive => ?_
  rw [Prog.run_bind, Prog.run_read]
  dsimp only
  split
  · exact h
  · exact h
  · rename_i panels hpanels
    have hid := hargs id panels hactive hpanels
    refine Prog.keep_tryCatch (kept_runAddPanels h hid) fun e s' _ h' => ?_
    exact Prog.keep_bind (kept_tryUpdateDashboardStatus h' hid) fun _ _ _ h'' => h''

theorem kept_handleDashboardSetTitle (h : Kept s₀ s) {args : Json.Record}
    (hargs : ∀ id, Folders.truthy s.activeDashboardId = some id →
      stringOr args "title" "" ≠ "" →
      id ∉ s₀.tables.dashboards.map (·.id) ∨
      ∃ row, s.tables.findDashboardById id = some row ∧ isProvisioned row.source = true) :
    Kept s₀ ((handleDashboardSetTitle drawn args).run s).2 := by
  refine kept_onActiveDashboard h fun id hactive => ?_
  dsimp only
  split
  · exact h
  rename_i htitle
  rw [Prog.run_discard]
  rcases hargs id hactive htitle with hid | ⟨row, hrow, hsource⟩
  · exact kept_executeAction h hid
  · exact kept_executeAction_provisioned h hrow hsource

theorem kept_handleDashboardRemovePanels (h : Kept s₀ s) {args : Json.Record} :
    Kept s₀ ((handleDashboardRemovePanels ctx drawn args).run s).2 := by
  refine kept_onActiveDashboard h fun id _ => ?_
  dsimp only
  split
  · exact h
  apply kept_failingQuietly
  refine kept_asking h (fun hid => ?_) ?_
  · refine Prog.keep_bind (kept_executeAction h hid) fun _ s' _ h' => h'.send _
  · exact Prog.keep_bind (kept_queueRemovals h) fun _ _ _ h' => h'

theorem kept_handleDashboardModifyPanel (h : Kept s₀ s) {args : Json.Record} :
    Kept s₀ ((handleDashboardModifyPanel ctx drawn args).run s).2 := by
  refine kept_onActiveDashboard h fun id _ => ?_
  dsimp only
  split
  · exact h
  split
  · exact h
  split
  · exact h
  apply kept_failingQuietly
  refine kept_asking h (fun hid => ?_) ?_
  · refine Prog.keep_bind (kept_executeAction h hid) fun _ s' _ h' => h'.send _
  · exact Prog.keep_bind (kept_queuePending h) fun _ _ _ h' => h'

theorem kept_handleDashboardAddVariable (h : Kept s₀ s) {args : Json.Record} :
    Kept s₀ ((handleDashboardAddVariable ctx drawn args).run s).2 := by
  refine kept_onActiveDashboard h fun id _ => ?_
  dsimp only
  split
  · exact h
  apply kept_failingQuietly
  refine kept_asking h (fun hid => ?_) ?_
  · exact Prog.keep_bind (kept_executeAction h hid) fun _ _ _ h' => h'
  · exact Prog.keep_bind (kept_queuePending h) fun _ _ _ h' => h'

theorem kept_activatePage (h : Kept s₀ s) : Kept s₀ ((activatePage id).run s).2 := by
  rw [activatePage, Prog.run_bind, run_findDashboard]
  dsimp only
  cases s.tables.findDashboardById id with
  | none => exact h
  | some row => exact ⟨h.found, h.fresh, h.pending⟩

end Frame

/-! ## Sessions -/

/-- The call writes no dashboard that was there before the session: an `addPanels` whose
arguments are accepted, and a `setTitle` with a title, are on a dashboard the session created
or on none; a provisioned one refuses the title. -/
def DashboardCall.LeavesShared (s : Session) : DashboardCall → Prop
  | .addPanels _ args =>
    ∀ id panels, Folders.truthy s.activeDashboardId = some id →
      panelsToAdd s.dashboardBuildEvidence args = .ok (.inr panels) →
      id ∈ s.freshlyCreatedDashboards ∨ s.tables.findDashboardById id = none
  | .setTitle _ args =>
    ∀ id, Folders.truthy s.activeDashboardId = some id → stringOr args "title" "" ≠ "" →
      id ∈ s.freshlyCreatedDashboards ∨
      ∀ row, s.tables.findDashboardById id = some row → isProvisioned row.source = true
  | _ => True

theorem kept_code {ctx : ActionContext} {s₀ s : Session} (h : Kept s₀ s) {call : DashboardCall}
    (hcall : call.LeavesShared s) : Kept s₀ ((call.code ctx).run s).2 := by
  cases call with
  | openPage dashboardId => exact kept_activatePage h
  | create drawn args => exact kept_dispatched (kept_handleDashboardCreate h)
  | clone drawn args => exact kept_dispatched (kept_handleDashboardClone h)
  | addPanels drawn args =>
    refine kept_dispatched (kept_handleDashboardAddPanels h fun id panels hactive hpanels => ?_)
    rcases hcall id panels hactive hpanels with hfresh | habsent
    · exact h.fresh id hfresh
    · exact h.absent habsent
  | setTitle drawn args =>
    refine kept_dispatched (kept_handleDashboardSetTitle h fun id hactive htitle => ?_)
    rcases hcall id hactive htitle with hfresh | hprovisioned
    · exact Or.inl (h.fresh id hfresh)
    · cases hrow : s.tables.findDashboardById id with
      | none => exact Or.inl (h.absent hrow)
      | some row => exact Or.inr ⟨row, rfl, hprovisioned row hrow⟩
  | removePanels drawn args => exact kept_dispatched (kept_handleDashboardRemovePanels h)
  | modifyPanel drawn args => exact kept_dispatched (kept_handleDashboardModifyPanel h)
  | addVariable drawn args => exact kept_dispatched (kept_handleDashboardAddVariable h)
  | webSearched => exact ⟨h.found, h.fresh, h.pending⟩
  | metricsDiscovered => exact ⟨h.found, h.fresh, h.pending⟩
  | queryValidated expr => exact ⟨h.found, h.fresh, h.pending⟩

/-- **Shared dashboards.** Over any run of the dashboard tools, whatever dashboards become
active on the way, every row that was there when the session began is what it was, and the
pending changes have at most grown, as long as `dashboard_add_panels` and
`dashboard_set_title` are accepted for dashboards of the session only. -/
theorem shared_dashboards_kept (ctx : ActionContext) (s₀ : Session)
    (hkeys : (s₀.tables.dashboards.map (·.id)).Nodup) (hfresh : s₀.freshlyCreatedDashboards = [])
    {s : Session}
    (hrun : Serial (DashboardCall.code ctx) (fun call s => call.LeavesShared s) s₀ s) :
    (∀ d ∈ s₀.tables.dashboards, s.tables.findDashboardById d.id = some d) ∧
      s₀.pendingChanges <+: s.pendingChanges := by
  have h₀ : Kept s₀ s₀ :=
    { found := by
        intro d hd
        cases hfind : s₀.tables.findDashboardById d.id with
        | none =>
          have hnone := List.find?_eq_none.mp hfind d hd
          simp at hnone
        | some row =>
          have hid : row.id = d.id := by simpa using List.find?_some hfind
          rw [List.inj_on_of_nodup_map hkeys (List.mem_of_find?_eq_some hfind) hd hid]
      fresh := by
        intro id hid
        rw [hfresh] at hid
        cases hid
      pending := List.prefix_rfl }
  have hkept : Kept s₀ s :=
    Serial.invariant (I := Kept s₀) h₀ (fun call s h hcall => kept_code h hcall) hrun
  exact ⟨hkept.found, hkept.pending⟩

def teamDashboard : Dashboard where
  id := "d1"
  title := "Latency"
  description := ""
  prompt := ""
  userId := "ann"
  panels := [.obj [("id", .str "p1"), ("row", .num 0), ("height", .num 3)]]
  workspaceId := some "org_a"

def teamSession : Session := Session.opened { dashboards := [teamDashboard] } []

def teamContext : ActionContext :=
  { caller := ⟨"org_a", some "ann", fun _ _ => true⟩
    sessionId := "s1"
    platform := ⟨sqliteDriver, id, fun _ => none, fun _ => "", fun _ => "", .ok⟩
    queuesPending := true }

def drawnAt (dashboardId now : String) : DrawnCall :=
  ⟨dashboardId, fun k => "panel" ++ toString k, fun k => "change" ++ toString k, now⟩

/-- The shared dashboard is opened and a removal proposed; then a new one is made and filled. -/
def teamCalls : List DashboardCall :=
  [.openPage "d1",
    .removePanels (drawnAt "" "2026-01-01") [("panelIds", .arr [.str "p1"])],
    .create (drawnAt "d2" "2026-01-02") [("title", .str "Mine"), ("datasourceId", .str "prom")],
    .addPanels (drawnAt "" "2026-01-03") [("panels", .arr [.obj [("title", .str "Errors")]])],
    .setTitle (drawnAt "" "2026-01-04") [("title", .str "Errors of mine")]]

theorem shared_dashboards_kept_team :
    (∀ d ∈ [teamDashboard], (serveAll (DashboardCall.code teamContext) teamCalls
      teamSession).tables.findDashboardById d.id = some d) ∧
    teamSession.pendingChanges <+:
      (serveAll (DashboardCall.code teamContext) teamCalls teamSession).pendingChanges := by
  refine shared_dashboards_kept teamContext teamSession (by decide) rfl ?_
  refine Serial.of_allServed teamCalls .init ⟨trivial, trivial, trivial, ?_, ?_, trivial⟩
  · intro id panels hactive _
    cases hactive
    exact Or.inl (by decide +kernel)
  · intro id hactive _
    cases hactive
    exact Or.inl (by decide +kernel)

/-- The shared dashboard is opened, and a title goes into its row at once. -/
theorem set_title_edits_shared :
    ¬ ∀ (ctx : ActionContext) (s₀ : Session), (s₀.tables.dashboards.map (·.id)).Nodup →
      s₀.freshlyCreatedDashboards = [] → ∀ s,
      Serial (DashboardCall.code ctx) (fun _ _ => True) s₀ s →
      (∀ d ∈ s₀.tables.dashboards, s.tables.findDashboardById d.id = some d) ∧
        s₀.pendingChanges <+: s.pendingChanges := by
  intro hall
  have hopened : Serial (DashboardCall.code teamContext) (fun _ _ => True) teamSession _ :=
    .serve (.openPage "d1") .init trivial
  have hsame := (hall teamContext teamSession (by decide) rfl _
    (.serve (.setTitle (drawnAt "" "2026-01-01") [("title", .str "Taken over")]) hopened
      trivial)).1 teamDashboard (List.mem_singleton.mpr rfl)
  have htitle := congrArg (Option.map (·.title)) hsame
  exact absurd htitle (by decide +kernel)

end OpenObs.Agent
