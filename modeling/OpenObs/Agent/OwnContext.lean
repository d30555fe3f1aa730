import OpenObs.Agent.Isolation
import OpenObs.Agent.Prompt
import OpenObs.Agent.PermissionModes

/-!
# The context of a message

A session of an identity of one org.
-/

namespace OpenObs.Agent

open OpenObs.Foundation OpenObs.Resources OpenObs.Rules OpenObs.Dashboards

/-! ## Dashboards of other workspaces -/

def foreignDashboards (orgId : String) (t : Tables) : List Dashboard :=
  t.dashboards.filter fun d => !ownDashboard orgId d

structure Spares (orgId : String) (t t' : Tables) : Prop where
  foreign : foreignDashboards orgId t' = foreignDashboards orgId t
  own : ∀ id, OwnDashboardId orgId t id → OwnDashboardId orgId t' id

section Tables

variable {orgId now id : String} {t t' t'' : Tables}

theorem Spares.refl (t : Tables) : Spares orgId t t := ⟨rfl, fun _ h => h⟩

theorem Spares.trans (h : Spares orgId t t') (h' : Spares orgId t' t'') : Spares orgId t t'' :=
  ⟨h'.foreign.trans h.foreign, fun id hid => h'.own id (h.own id hid)⟩

theorem spares_modify (hid : OwnDashboardId orgId t id)
    {edit : Dashboard → Dashboard → Dashboard}
    (hedit : ∀ existing d, (edit existing d).id = d.id ∧
      (edit existing d).workspaceId = d.workspaceId) :
    Spares orgId t ((DashboardRepository.modify id edit).run t).2 := by
  rcases run_modify t id edit with ⟨-, hrun⟩ | ⟨row, -, hrun⟩
  · rw [hrun]
    exact Spares.refl t
  · rw [hrun]
    have hworkspace := fun d => (hedit (rowToDashboard row) d).2
    constructor
    · exact congrArg ForeignTables.dashboards (edited_parts hid hworkspace).2
    · intro other hother d hd hdid
      obtain ⟨d₀, hd₀, rfl⟩ := List.mem_map.mp hd
      split at hdid
      · rename_i hd₀id
        rw [if_pos hd₀id, ownDashboard, hworkspace]
        exact hother d₀ hd₀ ((hedit (rowToDashboard row) d₀).1.symm.trans hdid)
      · rename_i hne
        rw [if_neg hne]
        exact hother d₀ hd₀ hdid

theorem spares_create {input : NewDashboard} (hinput : input.workspaceId = some orgId) :
    Spares orgId t ((DashboardRepository.create id now input).run t).2 := by
  have hnew : ownDashboard orgId (DashboardRepository.newRow id now input) = true :=
    decide_eq_true hinput
  rcases run_create t id now input with ⟨e, hrun⟩ | ⟨-, hrun⟩
  · rw [hrun]
    exact Spares.refl t
  · rw [hrun]
    constructor
    · simp [foreignDashboards, List.filter_append, hnew]
    · intro other hother d hd hdid
      rcases List.mem_append.mp hd with hd | hd
      · exact hother d hd hdid
      · rw [List.mem_singleton.mp hd]
        exact hnew

theorem spares_updatePanelsWith (hid : OwnDashboardId orgId t id) {panels : List Json}
    {change : List Json → List Json} {events : List DashboardSseEvent} :
    Spares orgId t ((ActionExecutor.updatePanelsWith now id panels change events).run t).2 := by
  rw [ActionExecutor.updatePanelsWith]
  split
  · exact Spares.refl t
  · rw [Prog.run_discard, DashboardRepository.updatePanels]
    apply spares_modify hid
    exact fun _ _ => ⟨rfl, rfl⟩

theorem spares_applyAction (hid : OwnDashboardId orgId t id) {action : DashboardAction} :
    Spares orgId t ((ActionExecutor.applyAction now id action).run t).2 := by
  rw [ActionExecutor.applyAction, DashboardRepository.findById, Prog.run_bind, Prog.run_read]
  cases t.findDashboardById id with
  | none => exact Spares.refl t
  | some row =>
    dsimp only [Option.map_some]
    split
    · exact Spares.refl t
    · cases action with
      | addPanels panels =>
        rw [ActionExecutor.applyTo, Prog.run_discard, DashboardRepository.updatePanels]
        apply spares_modify hid
        exact fun _ _ => ⟨rfl, rfl⟩
      | removePanels panelIds => exact spares_updatePanelsWith hid
      | modifyPanel panelId patch => exact spares_updatePanelsWith hid
      | rearrange layout => exact spares_updatePanelsWith hid
      | addVariable v =>
        rw [ActionExecutor.applyTo, Prog.run_discard, DashboardRepository.updateVariables]
        apply spares_modify hid
        exact fun _ _ => ⟨rfl, rfl⟩
      | setTitle title description =>
        rw [ActionExecutor.applyTo, Prog.run_discard, DashboardRepository.update]
        apply spares_modify hid
        exact fun _ _ => ⟨rfl, rfl⟩
      | createAlertRule => exact Spares.refl t
      | modifyAlertRule => exact Spares.refl t
      | deleteAlertRule => exact Spares.refl t

end Tables

/-! ## The handlers -/

def ActiveOwn (orgId : String) (s : Session) : Prop :=
  ∀ id, s.activeDashboardId = some id → OwnDashboardId orgId s.tables id

/-- Since the first state no foreign dashboard has changed, and the active one is of the org. -/
structure AtHome (orgId : String) (s₀ s : Session) : Prop where
  spares : Spares orgId s₀.tables s.tables
  active : ActiveOwn orgId s

section Handlers

variable {orgId : String} {s₀ s : Session} {drawn : DrawnCall} {ctx : ActionContext}
  {id : String} {args : Json.Record}

theorem AtHome.refl (h : ActiveOwn orgId s) : AtHome orgId s s := ⟨Spares.refl _, h⟩

theorem AtHome.send (h : AtHome orgId s₀ s) (events : List DashboardSseEvent) :
    AtHome orgId s₀ { s with events } := ⟨h.spares, h.active⟩

theorem AtHome.withTables (h : AtHome orgId s₀ s) {t : Tables} (ht : Spares orgId s.tables t) :
    AtHome orgId s₀ (Session.db.set t s) where
  spares := h.spares.trans ht
  active id hid := ht.own id (h.active id hid)

theorem AtHome.modify (h : AtHome orgId s₀ s) (hid : OwnDashboardId orgId s₀.tables id)
    {edit : Dashboard → Dashboard → Dashboard}
    (hedit : ∀ existing d, (edit existing d).id = d.id ∧
      (edit existing d).workspaceId = d.workspaceId) :
    AtHome orgId s₀ (((DashboardRepository.modify id edit).zoom Session.db).run s).2 := by
  apply Prog.keep_zoom
  exact h.withTables (spares_modify (h.spares.own id hid) hedit)

theorem AtHome.status (h : AtHome orgId s₀ s) (hid : OwnDashboardId orgId s₀.tables id)
    {status : String} {error : Option String} :
    AtHome orgId s₀ ((tryUpdateDashboardStatus drawn id status error).run s).2 := by
  rw [tryUpdateDashboardStatus]
  refine Prog.keep_tryCatch ?_ fun e s' _ h' => h'.send _
  rw [Prog.run_discard, DashboardRepository.updateStatus]
  apply h.modify hid
  exact fun _ _ => ⟨rfl, rfl⟩

theorem AtHome.action (h : AtHome orgId s₀ s) (hid : OwnDashboardId orgId s₀.tables id)
    {action : DashboardAction} : AtHome orgId s₀ ((executeAction drawn id action).run s).2 := by
  rw [executeAction]
  refine Prog.keep_bind ?_ fun events s' _ h' => h'.send _
  apply Prog.keep_zoom
  exact h.withTables (spares_applyAction (h.spares.own id hid))

theorem AtHome.queue (h : AtHome orgId s₀ s) {k : ℕ} {summary : String}
    {op : PendingDashboardChangeOp} :
    AtHome orgId s₀ ((queuePending ctx drawn k id summary op).run s).2 := by
  rw [queuePending]
  split
  · exact ⟨h.spares, h.active⟩
  · exact h.send _

theorem AtHome.queueRemovals {panelIds : List (String × ℕ)} :
    ∀ {s : Session}, AtHome orgId s₀ s →
      AtHome orgId s₀ ((Agent.queueRemovals ctx drawn id panelIds).run s).2 := by
  induction panelIds with
  | nil => exact fun h => h
  | cons p rest ih =>
    intro s h
    exact Prog.keep_bind h.queue fun _ _ _ h' => ih h'

theorem AtHome.activate (h : AtHome orgId s₀ s) (hid : OwnDashboardId orgId s₀.tables id) :
    AtHome orgId s₀ ((Agent.activate id).run s).2 where
  spares := h.spares
  active := by
    intro other hother
    cases hother
    exact h.spares.own id hid

theorem atHome_create (h : ActiveOwn orgId s) {input : NewDashboard} {now : String}
    (hinput : input.workspaceId = some orgId) :
    AtHome orgId s (((DashboardRepository.create id now input).zoom Session.db).run s).2 ∧
      ∀ dashboard s', ((DashboardRepository.create id now input).zoom Session.db).run s =
        (.ok dashboard, s') → OwnDashboardId orgId s.tables dashboard.id := by
  constructor
  · apply Prog.keep_zoom
    exact (AtHome.refl h).withTables (spares_create hinput)
  · intro dashboard s' hrun d hd hdid
    have hcreated := tables_zoom hrun
    rcases run_create s.tables id now input with ⟨e, herr⟩ | ⟨hfree, hok⟩
    · rw [herr] at hcreated
      cases hcreated
    · rw [created_id hcreated] at hdid
      exact absurd (List.mem_map.mpr ⟨d, hd, hdid⟩) hfree

theorem atHome_onActiveDashboard (h : ActiveOwn orgId s) {handler : String → Prog Session String}
    (hhandler : ∀ id, OwnDashboardId orgId s.tables id →
      AtHome orgId s ((handler id).run s).2) :
    AtHome orgId s ((onActiveDashboard handler).run s).2 := by
  rw [onActiveDashboard, Prog.run_bind, Prog.run_read]
  dsimp only
  cases hactive : Folders.truthy s.activeDashboardId with
  | none => exact AtHome.refl h
  | some id => exact hhandler id (h id (Folders.truthy_eq_some.mp hactive).1)

theorem atHome_asking {apply propose : Prog Session String}
    (happly : AtHome orgId s₀ (apply.run s).2) (hpropose : AtHome orgId s₀ (propose.run s).2) :
    AtHome orgId s₀ ((failingQuietly (Prog.read (isFreshlyCreated · id) >>= fun fresh =>
      if fresh = true then apply else propose)).run s).2 := by
  refine Prog.keep_tryCatch ?_ fun _ _ _ h => h
  rw [Prog.run_bind, Prog.run_read]
  dsimp only
  split
  · exact happly
  · exact hpropose

theorem atHome_handleDashboardCreate (h : ActiveOwn ctx.caller.orgId s) :
    AtHome ctx.caller.orgId s ((handleDashboardCreate ctx drawn args).run s).2 := by
  rw [handleDashboardCreate]
  split
  · exact AtHome.refl h
  · obtain ⟨hcreate, hnew⟩ := @atHome_create _ _ drawn.dashboardId h
      (newDashboard ctx (stringOr args "title" "Untitled Dashboard")
        (stringOr args "description" "")
        (stringOf (orDefault (Json.field args "prompt")
          (orDefault (Json.field args "description") (.str ""))))
        (trimmed (Json.field args "datasourceId"))) drawn.now rfl
    refine Prog.keep_bind hcreate fun dashboard s' hrun h' => ?_
    exact h'.activate (hnew dashboard s' hrun)

theorem atHome_handleDashboardClone (h : ActiveOwn ctx.caller.orgId s) :
    AtHome ctx.caller.orgId s ((handleDashboardClone ctx drawn args).run s).2 := by
  rw [handleDashboardClone]
  dsimp only
  split
  · exact AtHome.refl h
  split
  · exact AtHome.refl h
  rw [Prog.run_bind, run_findDashboard]
  dsimp only
  cases s.tables.findDashboardById (stringOr args "sourceDashboardId" "") with
  | none => exact AtHome.refl h
  | some source =>
    dsimp only [Option.map_some]
    split
    · exact AtHome.refl h
    · refine Prog.keep_bind (atHome_create h rfl).1 fun created s' hrun h' => ?_
      have hid := (atHome_create h rfl).2 created s' hrun
      refine Prog.keep_bind (h'.modify hid fun _ _ => ⟨rfl, rfl⟩) fun _ s₂ _ h₂ => ?_
      refine Prog.keep_bind (h₂.modify hid fun _ _ => ⟨rfl, rfl⟩) fun _ s₃ _ h₃ => ?_
      refine Prog.keep_bind (h₃.status hid) fun _ s₄ _ h₄ => ?_
      exact h₄.activate hid

theorem atHome_handleDashboardAddPanels (h : ActiveOwn orgId s) :
    AtHome orgId s ((handleDashboardAddPanels drawn args).run s).2 := by
  refine atHome_onActiveDashboard h fun id hid => ?_
  have hrefl : AtHome orgId s s := AtHome.refl h
  rw [Prog.run_bind, Prog.run_read]
  dsimp only
  split
  · exact hrefl
  · exact hrefl
  · rename_i panels _
    refine Prog.keep_tryCatch ?_ fun e s' _ h' =>
      Prog.keep_bind (h'.status hid) fun _ _ _ h'' => h''
    rw [runAddPanels]
    split
    · exact hrefl
    rw [Prog.run_bind, run_findDashboard]
    dsimp only
    split
    · exact hrefl
    refine Prog.keep_bind (hrefl.action hid) fun _ s' _ h' => ?_
    refine Prog.keep_bind (h'.status hid) fun _ s'' _ h'' => ?_
    exact h''.send _

theorem atHome_handleDashboardSetTitle (h : ActiveOwn orgId s) :
    AtHome orgId s ((handleDashboardSetTitle drawn args).run s).2 := by
  refine atHome_onActiveDashboard h fun id hid => ?_
  dsimp only
  split
  · exact AtHome.refl h
  · rw [Prog.run_discard]
    exact (AtHome.refl h).action hid

theorem atHome_handleDashboardRemovePanels (h : ActiveOwn orgId s) :
    AtHome orgId s ((handleDashboardRemovePanels ctx drawn args).run s).2 := by
  refine atHome_onActiveDashboard h fun id hid => ?_
  have hrefl : AtHome orgId s s := AtHome.refl h
  dsimp only
  split
  · exact hrefl
  apply atHome_asking
  · exact Prog.keep_bind (hrefl.action hid) fun _ s' _ h' => h'.send _
  · exact Prog.keep_bind hrefl.queueRemovals fun _ _ _ h' => h'

theorem atHome_handleDashboardModifyPanel (h : ActiveOwn orgId s) :
    AtHome orgId s ((handleDashboardModifyPanel ctx drawn args).run s).2 := by
  refine atHome_onActiveDashboard h fun id hid => ?_
  have hrefl : AtHome orgId s s := AtHome.refl h
  dsimp only
  split
  · exact hrefl
  split
  · exact hrefl
  split
  · exact hrefl
  apply atHome_asking
  · exact Prog.keep_bind (hrefl.action hid) fun _ s' _ h' => h'.send _
  · exact Prog.keep_bind hrefl.queue fun _ _ _ h' => h'

theorem atHome_handleDashboardAddVariable (h : ActiveOwn orgId s) :
    AtHome orgId s ((handleDashboardAddVariable ctx drawn args).run s).2 := by
  refine atHome_onActiveDashboard h fun id hid => ?_
  have hrefl : AtHome orgId s s := AtHome.refl h
  dsimp only
  split
  · exact hrefl
  apply atHome_asking
  · exact Prog.keep_bind (hrefl.action hid) fun _ _ _ h' => h'
  · exact Prog.keep_bind hrefl.queue fun _ _ _ h' => h'

end Handlers

/-! ## The runner -/

section Runner

variable {κ δ : Type} {orgId : String} {s : AgentState κ δ}

theorem session_onSession {handler : Prog Session String} :
    ((onSession handler).run s).2.session = (handler.run s.session).2 := by
  have hrun : ((onSession handler).run s).2 = ((handler.zoom AgentState.sessionPart).run s).2 :=
    Prog.run_discard
  rw [hrun, Prog.run_zoom]
  rfl

theorem atHome_leaves {α : Type} {s₀ : Session} {p : Prog (AgentState κ δ) α}
    (hp : p.Leaves AgentState.session) (h : AtHome orgId s₀ s.session) :
    AtHome orgId s₀ (p.run s).2.session := by
  rw [hp.run]
  exact h

theorem leaves_emit {e : RunnerEvent} :
    (emit e : Prog (AgentState κ δ) Unit).Leaves AgentState.session :=
  Prog.leaves_write fun _ => rfl

variable {ctx : ToolContext κ δ} {drawn : DrawnTool} {action : String} {args : Json.Record}

theorem atHome_dispatchAction (h : ActiveOwn ctx.caller.orgId s.session)
    (htool : AgentTool.ofName action ∈ dashboardTools) :
    AtHome ctx.caller.orgId s.session
      ((dispatchAction ctx drawn action args).run s).2.session := by
  unfold dispatchAction
  dsimp only
  generalize AgentTool.ofName action = tool at htool
  have hrefl : AtHome ctx.caller.orgId s.session s.session := AtHome.refl h
  cases tool with
  | dashboardCreate =>
    rw [session_onSession]
    exact atHome_handleDashboardCreate h
  | dashboardList => exact hrefl
  | dashboardClone =>
    rw [session_onSession]
    exact atHome_handleDashboardClone h
  | dashboardAddPanels =>
    rw [session_onSession]
    exact atHome_handleDashboardAddPanels h
  | dashboardRemovePanels =>
    rw [session_onSession]
    exact atHome_handleDashboardRemovePanels h
  | dashboardModifyPanel =>
    rw [session_onSession]
    exact atHome_handleDashboardModifyPanel h
  | dashboardSetTitle =>
    rw [session_onSession]
    exact atHome_handleDashboardSetTitle h
  | dashboardAddVariable =>
    rw [session_onSession]
    exact atHome_handleDashboardAddVariable h
  | dashboardRearrange => exact hrefl
  | _ => simp [dashboardTools] at htool

theorem atHome_dispatch {call : ToolCall} (h : ActiveOwn ctx.caller.orgId s.session)
    (htool : AgentTool.ofName call.action ∈ dashboardTools) :
    AtHome ctx.caller.orgId s.session ((dispatch ctx call).run s).2.session := by
  have hrefl : AtHome ctx.caller.orgId s.session s.session := AtHome.refl h
  rw [dispatch, Prog.run_bind]
  -- the event that is sent first is no part of the session
  change AtHome _ _ ((tryCatch (dispatchAction ctx call.drawn call.action call.args) _).run
    { s with emitted := s.emitted ++ [.toolCalled call.action] }).2.session
  refine Prog.keep_tryCatch
    (P := fun s' : AgentState κ δ => AtHome ctx.caller.orgId s.session s'.session) ?_ ?_
  · exact @atHome_dispatchAction κ δ { s with emitted := s.emitted ++ [.toolCalled call.action] }
      ctx call.drawn call.action call.args h htool
  · intro e s' _ h'
    refine atHome_leaves ?_ h'
    exact leaves_emit.bind fun _ => leaves_emit.bind fun _ => Prog.leaves_pure

/-- **A call of a dashboard tool stays at home**, whatever the grants of the caller. -/
theorem atHome_execute {agentDef : AgentDefinition} {call : ToolCall}
    (h : ActiveOwn ctx.caller.orgId s.session)
    (htool : AgentTool.ofName call.action ∈ dashboardTools) :
    AtHome ctx.caller.orgId s.session ((execute ctx agentDef call).run s).2.session := by
  have hrefl : AtHome ctx.caller.orgId s.session s.session := AtHome.refl h
  let gate : Prog (AgentState κ δ) (Option PermissionDenial) :=
    (PermissionGate.check ctx.toActionContext agentDef call.action call.args).zoom
      AgentState.sessionPart
  have hgate : ∀ s, (gate.run s).2 = s := (Prog.Leaves.zoom_id _ check_leaves).run
  rw [execute]
  refine Prog.keep_bind
    (P := fun s' : AgentState κ δ => AtHome ctx.caller.orgId s.session s'.session) ?_ ?_
  · change AtHome _ _ (gate.run s).2.session
    rw [hgate]
    exact hrefl
  · intro gateResult s' hrun h'
    obtain rfl : s' = s := by
      rw [← hgate s, show gate.run s = (.ok gateResult, s') from hrun]
    cases gateResult with
    | some denial =>
      refine atHome_leaves ?_ h'
      exact leaves_emit.bind fun _ => leaves_emit.bind fun _ => Prog.leaves_pure
    | none =>
      dsimp only
      split
      · refine atHome_leaves ?_ h'
        exact leaves_emit.bind fun _ => leaves_emit.bind fun _ => Prog.leaves_pure
      split
      · refine atHome_leaves ?_ h'
        exact leaves_emit.bind fun _ => Prog.leaves_pure
      · exact atHome_dispatch h htool

end Runner

/-! ## A message -/

section Message

variable {κ δ : Type} {deps : OrchestratorDeps κ δ} {orgId : String} {s : Session}
  {conversation conversation' : ConversationStore} {m : MessageInput}

def Opens (m : MessageInput) (t : Tables) : Prop :=
  ∀ id, Folders.truthy m.dashboardId = some id → (t.findDashboardById id).isSome = true

structure OwnMessage (orgId : String) (m : MessageInput) (t : Tables) : Prop where
  page : ∀ id, Folders.truthy m.dashboardId = some id → OwnDashboardId orgId t id
  rules : Opens m t → ∀ r ∈ t.alertRules, ownRule orgId r = true

theorem run_resolveDashboard {id : String} (hid : Folders.truthy m.dashboardId = some id) :
    (resolveDashboard m.dashboardId).run s =
      match s.tables.findDashboardById id with
      | none => (.error ("Dashboard " ++ id ++ " not found"), s)
      | some row =>
        (.ok (some (rowToDashboard row)), { s with activeDashboardId := some row.id }) := by
  rw [resolveDashboard, hid]
  simp only
  rw [Prog.run_bind, run_findDashboard]
  cases s.tables.findDashboardById id <;> rfl

theorem opens_of_resolved {dashboard : Option Dashboard} {s' : Session}
    (hrun : (resolveDashboard m.dashboardId).run s = (.ok dashboard, s')) :
    Opens m s.tables ∧ s'.tables = s.tables := by
  cases hid : Folders.truthy m.dashboardId with
  | none =>
    rw [resolveDashboard, hid] at hrun
    cases hrun
    refine ⟨fun id h => ?_, rfl⟩
    rw [hid] at h
    cases h
  | some id =>
    rw [run_resolveDashboard hid] at hrun
    cases hfind : s.tables.findDashboardById id with
    | none =>
      rw [hfind] at hrun
      cases hrun
    | some row =>
      rw [hfind] at hrun
      cases hrun
      refine ⟨fun id' h => ?_, rfl⟩
      cases hid.symm.trans h
      rw [hfind]
      rfl

theorem local_resolveDashboard (h : OwnMessage orgId m s.tables) :
    Local (ownPart orgId) (foreignRows orgId) (resolveDashboard m.dashboardId) s := by
  unfold resolveDashboard
  cases hid : Folders.truthy m.dashboardId with
  | none => exact Local.pure
  | some id =>
    have hfind : Local (ownPart orgId) (foreignRows orgId)
        ((DashboardRepository.findById id).zoom Session.db) s :=
      local_zoom (Local.read
        (congrArg (Option.map rowToDashboard) (findDashboardById_own (h.page id hid))))
    refine hfind.bind fun found s' _ => ?_
    cases found with
    | none => exact Local.throw
    | some dashboard =>
      refine (Local.write ?_ ?_).bind fun _ _ _ => Local.pure
      · rfl
      · rfl

theorem newestRules_own {t : Tables} (h : ∀ r ∈ t.alertRules, ownRule orgId r = true) :
    newestRules (ownTables orgId t) = newestRules t := by
  change (t.alertRules.filter (ownRule orgId)).mergeSort _ = t.alertRules.mergeSort _
  rw [List.filter_eq_self.mpr h]

/-- **A message of the org sees the rows of the org only.** -/
theorem local_handleMessage (h : OwnMessage orgId m s.tables) :
    Local (ownPart orgId) (foreignRows orgId) (handleMessage deps conversation m) s := by
  refine (local_resolveDashboard h).bind fun dashboard s' hrun => ?_
  obtain ⟨hopens, htables⟩ := opens_of_resolved hrun
  have hrules : newestRules (ownTables orgId s'.tables) = newestRules s'.tables := by
    rw [htables]
    exact newestRules_own (h.rules hopens)
  refine (local_zoom (Local.read hrules)).bind fun alertRules _ _ => Local.pure

theorem handleMessage_congr
    (h : conversation' deps.tools.sessionId = conversation deps.tools.sessionId) :
    handleMessage deps conversation' m = handleMessage deps conversation m := by
  unfold handleMessage
  rw [h]

theorem activeOwn_handleMessage (h : OwnMessage orgId m s.tables) (hactive : ActiveOwn orgId s) :
    ActiveOwn orgId ((handleMessage deps conversation m).run s).2 := by
  rw [handleMessage]
  refine Prog.keep_bind ?_ fun dashboard s' _ h' => h'
  cases hid : Folders.truthy m.dashboardId with
  | none =>
    rw [resolveDashboard, hid]
    exact hactive
  | some id =>
    rw [run_resolveDashboard hid]
    cases hfind : s.tables.findDashboardById id with
    | none => exact hactive
    | some row =>
      have hrow : row.id = id := by simpa using List.find?_some hfind
      intro other hother
      cases hother
      rw [hrow]
      exact h.page id hid

end Message

/-! ## Sessions of the org -/

namespace AgentStep

variable {κ δ : Type} (deps : OrchestratorDeps κ δ)

/-- The pages and the rules are the org's own, and whatever happens elsewhere, the active dashboard
is not handed to another workspace. -/
def Confined : AgentStep κ δ → AgentState κ δ → Prop
  | .message _ m, s => OwnMessage deps.identity.orgId m s.session.tables
  | .tool _, _ => True
  | .elsewhere s', _ => ActiveOwn deps.identity.orgId s'.session

structure MessageKept (conversation : ConversationStore) (m : MessageInput) (s : Session) :
    Prop where
  /-- The prompt, the history and the active dashboard are the same. -/
  alike : ∀ (conversation' : ConversationStore) (s₂ : Session),
    ownPart deps.identity.orgId s₂ = ownPart deps.identity.orgId s →
    conversation' deps.tools.sessionId = conversation deps.tools.sessionId →
    OwnMessage deps.identity.orgId m s₂.tables →
    ((handleMessage deps conversation' m).run s₂).1 =
        ((handleMessage deps conversation m).run s).1 ∧
      ((handleMessage deps conversation' m).run s₂).2.activeDashboardId =
        ((handleMessage deps conversation m).run s).2.activeDashboardId
  active : ActiveOwn deps.identity.orgId ((handleMessage deps conversation m).run s).2

def Kept : AgentStep κ δ → AgentState κ δ → Prop
  | .message conversation m, s => MessageKept deps conversation m s.session
  | .tool c, s =>
    foreignDashboards deps.identity.orgId
        ((execute deps.context deps.agentDef c.call).run s).2.session.tables =
      foreignDashboards deps.identity.orgId s.session.tables
  | .elsewhere _, _ => True

variable {deps} {s : AgentState κ δ}

theorem kept_message {conversation : ConversationStore} {m : MessageInput} {s : Session}
    (h : OwnMessage deps.identity.orgId m s.tables) (hactive : ActiveOwn deps.identity.orgId s) :
    MessageKept deps conversation m s where
  alike := by
    intro conversation' s₂ hrows hconversation h₂
    rw [handleMessage_congr hconversation]
    obtain ⟨hresult, hview⟩ := (local_handleMessage h₂).agree (local_handleMessage h) hrows
    refine ⟨hresult, ?_⟩
    -- which dashboard is active is part of the view, as it is
    have hsame := congrArg Session.activeDashboardId hview
    exact hsame
  active := activeOwn_handleMessage h hactive

theorem confined_step {step : AgentStep κ δ} (hactive : ActiveOwn deps.identity.orgId s.session)
    (hstep : step.Confined deps s) :
    step.Kept deps s ∧ ActiveOwn deps.identity.orgId ((step.code deps).run s).2.session := by
  cases step with
  | message conversation m =>
    refine ⟨kept_message hstep hactive, ?_⟩
    rw [code, Prog.run_discard, Prog.run_zoom]
    exact activeOwn_handleMessage hstep hactive
  | tool c =>
    have hhome := @atHome_execute κ δ s deps.context deps.agentDef c.call hactive c.tool
    refine ⟨hhome.spares.foreign, ?_⟩
    rw [code, Prog.run_discard]
    exact hhome.active
  | elsewhere s' => exact ⟨trivial, hstep⟩

end AgentStep

/-- **A session whose pages and rules are the org's own stays at home.** Each message has one
prompt, whatever the rows of the others, and no dashboard tool writes a dashboard of another
workspace, whatever the grants. -/
theorem session_stays_home {κ δ : Type} (deps : OrchestratorDeps κ δ) (s₀ : AgentState κ δ)
    (hfresh : s₀.session.activeDashboardId = none) (steps : List (AgentStep κ δ))
    (hsteps : AllServed (AgentStep.code deps) (AgentStep.Confined deps) steps s₀) :
    AllServed (AgentStep.code deps) (AgentStep.Kept deps) steps s₀ := by
  have hactive : ActiveOwn deps.identity.orgId s₀.session := by
    intro id hid
    rw [hfresh] at hid
    cases hid
  have hstep : ∀ (step : AgentStep κ δ) (s : AgentState κ δ),
      ActiveOwn deps.identity.orgId s.session → step.Confined deps s →
        step.Kept deps s ∧ ActiveOwn deps.identity.orgId ((step.code deps).run s).2.session :=
    fun _ _ => AgentStep.confined_step
  exact allServed_of_invariant hstep steps hactive hsteps

/-! ## A page of another workspace -/

def payroll : Dashboard :=
  { teamDashboard with id := "d9", title := "Payroll", workspaceId := some "org_b" }

def sharedStore : AgentState Unit Unit :=
  ⟨Session.opened { dashboards := [teamDashboard, payroll] } [], emptyWorld, ⟨(), ()⟩, [], none, []⟩

def annDeps : OrchestratorDeps Unit Unit where
  texts := ⟨"", "", "", "", "", "", ""⟩
  identity := ⟨"ann", "org_a", .editor, false, none⟩
  tools := { teamContext with }
  agentDef := ⟨"orchestrator", [⟨"dashboard_set_title", by decide⟩], .artifactMutation⟩
  evaluate _ _ := true

def onPage (dashboardId : String) : MessageInput where
  message := "call it Mine"
  dashboardId := some dashboardId
  now := "2026-01-01"

def setTitle : DashboardToolCall where
  call := ⟨"dashboard_set_title", [("title", .str "Mine")], drawnTool⟩
  tool := by decide

def retitling (dashboardId : String) : List (AgentStep Unit Unit) :=
  [.message (fun _ => []) (onPage dashboardId), .tool setTitle]

theorem session_stays_home_retitling :
    AllServed (AgentStep.code annDeps) (AgentStep.Kept annDeps) (retitling "d1") sharedStore := by
  refine session_stays_home annDeps sharedStore rfl (retitling "d1") ⟨?_, trivial, trivial⟩
  constructor
  · rintro id ⟨⟩
    change ∀ d ∈ [teamDashboard, payroll], d.id = "d1" → ownDashboard "org_a" d = true
    decide
  · intro _ r hr
    cases hr

/-- The page of the other workspace opens, and its dashboard is renamed. Without its row the same
message is an error. -/
theorem foreign_page_renamed :
    ownPart "org_a" { sharedStore.session with tables := { dashboards := [teamDashboard] } } =
        ownPart "org_a" sharedStore.session ∧
      ((handleMessage annDeps (fun _ => []) (onPage "d9")).run
          { sharedStore.session with tables := { dashboards := [teamDashboard] } }).1 ≠
        ((handleMessage annDeps (fun _ => []) (onPage "d9")).run sharedStore.session).1 ∧
      ((handleMessage annDeps (fun _ => []) (onPage "d9")).run
          sharedStore.session).2.activeDashboardId = some "d9" ∧
      (foreignDashboards "org_a" sharedStore.session.tables).map (·.title) = ["Payroll"] ∧
      (foreignDashboards "org_a" (serveAll (AgentStep.code annDeps) (retitling "d9")
          sharedStore).session.tables).map (·.title) = ["Mine"] := by
  refine ⟨rfl, ?_, rfl, rfl, by decide +kernel⟩
  intro hsame
  cases hsame

end OpenObs.Agent
