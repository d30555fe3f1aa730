import Mathlib
import OpenObs.Foundation.Parts
import OpenObs.Foundation.Json
import OpenObs.Foundation.Pool
import OpenObs.Foundation.Text
import OpenObs.Notifications.Dispatch
import OpenObs.Notifications.Routing

/-!
# The notification consumer

`services/notification-consumer.ts` over `repository/sqlite/notification-dispatch.ts`.
An event is routed by the policy tree; for each contact point the last dispatch is
looked up, the senders are called, and the dispatch is recorded, each after an `await`.
-/

namespace OpenObs.Notifications

open OpenObs.Foundation

/-! ## Events and the tables -/

structure AlertFiredEventPayload where
  ruleId : String
  ruleName : String
  orgId : String
  severity : String
  value : ℚ
  threshold : ℚ
  operator : String
  labels : Labels
  firedAt : String
  fingerprint : String

structure ApprovalCreatedEventPayload where
  approvalId : String
  orgId : String
  summary : String
  severity : Option String := none
  opsConnectorId : Option String := none
  targetNamespace : Option String := none
  requesterTeamId : Option String := none
  createdAt : String

structure ApprovalRow where
  id : String
  opsConnectorId : Option String
  targetNamespace : Option String
  requesterTeamId : Option String

inductive SendResult : Type where
  | ok
  | failed (message : String)
  | threw (err : String)
deriving DecidableEq

structure Send where
  key : DispatchKey
  integrationId : String
  sentAt : ℤ
  result : SendResult
deriving DecidableEq

structure Delivery where
  key : DispatchKey
  sentAt : ℤ
deriving DecidableEq

/-- The tables the consumer works on, the clock, and what it has done: the contact points it has
turned to, the calls of senders, the dispatches that went through and those of them that were
recorded. -/
structure World where
  clock : ℤ := 0
  policyTree : Option NotificationPolicyNode := none
  contactPoints : List ContactPoint := []
  dispatch : DispatchTable := {}
  findApprovers : String → ApprovalRow → List String := fun _ _ => []
  teamsOf : String → String → List String := fun _ _ => []
  network : ℕ → SendResult := fun _ => .ok
  tried : List DispatchKey := []
  sends : List Send := []
  delivered : List Delivery := []
  recorded : List Delivery := []

/-! ## Repositories -/

def World.getPolicyTree (w : World) : NotificationPolicyNode :=
  w.policyTree.getD (defaultPolicyTree w.clock)

def findContactPoint (key : DispatchKey) : Prog World (Option ContactPoint) :=
  Prog.atomic fun w =>
    (w.contactPoints.find? (·.id = key.contactPointId), { w with tried := w.tried ++ [key] })

def insertSent (key : DispatchKey) (sentAt : ℤ) : Prog World Unit :=
  Prog.attempt fun w =>
    match w.dispatch.insert key sentAt with
    | .ok t => (.ok (), { w with dispatch := t, recorded := w.recorded ++ [⟨key, sentAt⟩] })
    | .error e => (.error e, w)

def updateSent (row : DispatchRow) (sentAt : ℤ) : Prog World Unit :=
  Prog.write fun w => { w with
    dispatch := w.dispatch.update row.id sentAt (row.sentCount + 1)
    recorded := w.recorded ++ [⟨row.key, sentAt⟩] }

def upsertSent (key : DispatchKey) (sentAt : ℤ) : Prog World Unit := do
  let existing ← Prog.read (·.dispatch.findByKey key)
  match existing with
  | some row => updateSent row sentAt
  | none => insertSent key sentAt

/-! ## Dispatch -/

inductive DispatchDecision : Type where
  | sendNow
  | skipGroupWindow
deriving DecidableEq

def decideDispatch (existing : Option DispatchRow) (route : MatchedRoute) (now : ℤ) :
    DispatchDecision :=
  match existing with
  | none => .sendNow
  | some row =>
    let elapsedMs : ℚ := (now - row.lastSentAt : ℤ)
    if 0 < row.sentCount ∧ route.repeatIntervalSec * 1000 ≤ elapsedMs then .sendNow
    else if elapsedMs < route.groupIntervalSec * 1000 then .skipGroupWindow
    else .sendNow

theorem decideDispatch_eq_skip_iff {existing : Option DispatchRow} {route : MatchedRoute}
    {now : ℤ} : decideDispatch existing route now = .skipGroupWindow ↔
      ∃ row, existing = some row ∧
        ((now - row.lastSentAt : ℤ) : ℚ) < route.groupIntervalSec * 1000 ∧
        ¬ (0 < row.sentCount ∧
          route.repeatIntervalSec * 1000 ≤ ((now - row.lastSentAt : ℤ) : ℚ)) := by
  cases existing with
  | none => simp [decideDispatch]
  | some row =>
    simp only [decideDispatch, Option.some.injEq, exists_eq_left']
    split
    · rename_i hrepeat
      exact iff_of_false DispatchDecision.noConfusion fun h => h.2 hrepeat
    · rename_i hrepeat
      split
      · rename_i hgroup
        exact iff_of_true rfl ⟨hgroup, hrepeat⟩
      · rename_i hgroup
        exact iff_of_false DispatchDecision.noConfusion fun h => hgroup h.1

/-- What `join` writes for `labels[name] ?? ''`: a label that is missing is looked up in
`Object.prototype` first. -/
def Labels.shown (labels : Labels) (name : String) : String :=
  match property labels name with
  | some (.own value) => value
  | some (.inherited i) => i.text
  | none => ""

def computeGroupKey (groupBy : List String) (labels : Labels) : String :=
  if groupBy = [] then "" else Text.join (groupBy.map labels.shown) '|'

structure NotificationConsumer where
  regExp : RegExpTest
  /-- Whether there is a sender for the type. -/
  senders : IntegrationType → Bool

def senderFor : IntegrationType → Bool
  | .slack => true
  | .webhook => true
  | .discord => true
  | .teams => true
  | _ => false

namespace NotificationConsumer

variable (o : NotificationConsumer)

def callSender (key : DispatchKey) (integrationId : String) : Prog World SendResult :=
  Prog.atomic fun w =>
    let result := w.network w.sends.length
    (result, { w with sends := w.sends ++ [⟨key, integrationId, w.clock, result⟩] })

def noteSent (key : DispatchKey) : Prog World ℤ :=
  Prog.atomic fun w => (w.clock, { w with delivered := w.delivered ++ [⟨key, w.clock⟩] })

def sendAll (key : DispatchKey) : List ContactPointIntegration → Bool → Prog World Bool
  | [], anySent => pure anySent
  | integration :: rest, anySent =>
    if o.senders integration.type then do
      let result ← callSender key integration.id
      sendAll key rest (anySent || result = .ok)
    else sendAll key rest anySent

def sendAndRecord (key : DispatchKey) : Prog World Unit := do
  let cp ← findContactPoint key
  match cp with
  | none => pure ()
  | some cp =>
    let anySent ← o.sendAll key cp.integrations false
    if anySent then do
      let sentAt ← noteSent key
      tryCatch (upsertSent key sentAt) fun _ => pure ()
    else pure ()

def routeKey (payload : AlertFiredEventPayload) (route : MatchedRoute) : DispatchKey :=
  ⟨payload.orgId, payload.fingerprint, route.contactPointId,
    computeGroupKey route.groupBy payload.labels⟩

def dispatchToContactPoint (payload : AlertFiredEventPayload) (route : MatchedRoute) :
    Prog World Unit := do
  let now ← Prog.read (·.clock)
  let existing ← Prog.read (·.dispatch.findByKey (routeKey payload route))
  match decideDispatch existing route now with
  | .skipGroupWindow => pure ()
  | .sendNow => o.sendAndRecord (routeKey payload route)

def dispatchAll (payload : AlertFiredEventPayload) : List MatchedRoute → Prog World Unit
  | [] => pure ()
  | route :: rest => do
      o.dispatchToContactPoint payload route
      dispatchAll payload rest

def handle (payload : AlertFiredEventPayload) : Prog World Unit := do
  let tree ← Prog.read World.getPolicyTree
  o.dispatchAll payload (uniqueRoutes [] (collectMatchingRoutes o.regExp tree payload.labels))

/-! ## Approvals -/

def adapted (payload : ApprovalCreatedEventPayload) : AlertFiredEventPayload where
  ruleId := payload.approvalId
  ruleName := "Approval pending: " ++ payload.summary
  orgId := payload.orgId
  severity := payload.severity.getD "medium"
  value := 0
  threshold := 0
  operator := "pending"
  labels := ("approvalId", payload.approvalId) ::
    ((payload.opsConnectorId.filter (· ≠ "")).toList.map (("connector", ·)) ++
      (payload.targetNamespace.filter (· ≠ "")).toList.map (("namespace", ·)) ++
      (payload.requesterTeamId.filter (· ≠ "")).toList.map (("team", ·)))
  firedAt := payload.createdAt
  fingerprint := payload.approvalId

def teamRoutes (tree : NotificationPolicyNode) (teams : List String) : List MatchedRoute :=
  teams.flatMap fun teamId => collectMatchingRoutes o.regExp tree [("team", teamId)]

def userRoutes (tree : NotificationPolicyNode) (orgId : String) :
    List String → List MatchedRoute → Prog World (List MatchedRoute)
  | [], routes => pure routes
  | userId :: rest, routes => do
      let memberships ← Prog.read fun w => w.teamsOf userId orgId
      userRoutes tree orgId rest
        (routes ++ uniqueRoutes (routes.map (·.contactPointId)) (o.teamRoutes tree memberships))

def handleApprovalCreated (payload : ApprovalCreatedEventPayload) : Prog World Unit := do
  let row : ApprovalRow := ⟨payload.approvalId, payload.opsConnectorId, payload.targetNamespace,
    payload.requesterTeamId⟩
  let userIds ← Prog.read fun w => w.findApprovers payload.orgId row
  if userIds = [] then pure ()
  else do
    let tree ← Prog.read World.getPolicyTree
    let routes ← o.userRoutes tree payload.orgId userIds []
    o.dispatchAll (adapted payload) routes

/-! ## A dispatch nobody interferes with -/

variable {o : NotificationConsumer} {w : World} {key : DispatchKey}

def Reaches (o : NotificationConsumer) (w : World) (contactPointId : String) : Prop :=
  ∃ cp, w.contactPoints.find? (·.id = contactPointId) = some cp ∧
    ∃ integration ∈ cp.integrations, o.senders integration.type = true

theorem sendAll_run (is : List ContactPointIntegration) :
    ∀ (w : World) (anySent : Bool), ∃ sent more, (o.sendAll key is anySent).run w =
        (.ok sent, { w with sends := w.sends ++ more }) ∧
      (more = [] ↔ ∀ integration ∈ is, o.senders integration.type = false) ∧
      (more = [] → sent = anySent) := by
  induction is with
  | nil =>
    intro w anySent
    exact ⟨anySent, [], by simp [sendAll], by simp, fun _ => rfl⟩
  | cons integration rest ih =>
    intro w anySent
    cases hs : o.senders integration.type with
    | false =>
      obtain ⟨sent, more, hrun, hmore, hsent⟩ := ih w anySent
      refine ⟨sent, more, ?_, ?_, hsent⟩
      · rw [sendAll, hs, if_neg Bool.false_ne_true, hrun]
      · rw [hmore]
        simp [hs]
    | true =>
      let send : Send := ⟨key, integration.id, w.clock, w.network w.sends.length⟩
      obtain ⟨sent, more, hrun, -⟩ := ih { w with sends := w.sends ++ [send] }
        (anySent || w.network w.sends.length = .ok)
      refine ⟨sent, send :: more, ?_, by simp [hs], by simp⟩
      rw [sendAll, hs, if_pos rfl, Prog.run_bind, callSender, Prog.run_atomic]
      simpa using hrun

theorem upsertSent_run (sentAt : ℤ) : ∃ r t log,
    (upsertSent key sentAt).run w = (r, { w with dispatch := t, recorded := log }) ∧
      ∀ key', key' ≠ key → t.findByKey key' = w.dispatch.findByKey key' := by
  rw [upsertSent, Prog.run_bind, Prog.run_read]
  cases hfind : w.dispatch.findByKey key with
  | some row =>
    refine ⟨.ok (), _, _, rfl, fun key' hne => ?_⟩
    rw [DispatchTable.findByKey_update hfind, if_neg hne]
  | none =>
    simp only [insertSent, Prog.run_attempt]
    cases hinsert : w.dispatch.insert key sentAt with
    | error e => exact ⟨.error e, w.dispatch, w.recorded, rfl, fun _ _ => rfl⟩
    | ok t =>
      refine ⟨.ok (), t, _, rfl, fun key' hne => ?_⟩
      rw [DispatchTable.findByKey_insert hinsert, if_neg hne]

theorem sendAndRecord_run (w : World) (key : DispatchKey) : ∃ t more through log,
    (o.sendAndRecord key).run w = (.ok (), { w with
      dispatch := t, tried := w.tried ++ [key], sends := w.sends ++ more,
      delivered := w.delivered ++ through, recorded := log }) ∧
    (∀ key', key' ≠ key → t.findByKey key' = w.dispatch.findByKey key') ∧
    (more = [] ↔ ¬ o.Reaches w key.contactPointId) ∧
    (through = [] ∨ o.Reaches w key.contactPointId ∧ through = [⟨key, w.clock⟩]) := by
  rw [sendAndRecord, Prog.run_bind, findContactPoint, Prog.run_atomic]
  cases hcp : w.contactPoints.find? (·.id = key.contactPointId) with
  | none =>
    refine ⟨w.dispatch, [], [], w.recorded, by simp, fun _ _ => rfl, iff_of_true rfl ?_,
      Or.inl rfl⟩
    rintro ⟨cp, hfind, -⟩
    rw [hcp] at hfind
    cases hfind
  | some cp =>
    obtain ⟨sent, more, hrun, hmore, hsent⟩ := @sendAll_run o key cp.integrations
      { w with tried := w.tried ++ [key] } false
    have hreach : more = [] ↔ ¬ o.Reaches w key.contactPointId := by
      rw [hmore]
      constructor
      · rintro hnone ⟨cp', hfind, integration, hmem, hsender⟩
        obtain rfl : cp = cp' := Option.some.inj (hcp.symm.trans hfind)
        rw [hnone integration hmem] at hsender
        cases hsender
      · intro hnot integration hmem
        by_contra hsender
        exact hnot ⟨cp, hcp, integration, hmem, by simpa using hsender⟩
    dsimp only
    rw [Prog.run_bind, hrun]
    cases sent with
    | false =>
      exact ⟨w.dispatch, more, [], w.recorded, by simp, fun _ _ => rfl, hreach, Or.inl rfl⟩
    | true =>
      dsimp only
      rw [if_pos rfl, Prog.run_bind, noteSent, Prog.run_atomic]
      dsimp only
      obtain ⟨r, t, log, hup, hother⟩ := @upsertSent_run
        { w with
          tried := w.tried ++ [key], sends := w.sends ++ more,
          delivered := w.delivered ++ [⟨key, w.clock⟩] } key w.clock
      refine ⟨t, more, [⟨key, w.clock⟩], log, ?_, hother, hreach, Or.inr ⟨?_, rfl⟩⟩
      · rw [Prog.run_tryCatch, hup]
        cases r <;> rfl
      · -- some sender was called
        by_contra hnot
        exact absurd (hsent (hreach.mpr hnot)) Bool.noConfusion

def decides (payload : AlertFiredEventPayload) (route : MatchedRoute) (w : World) :
    DispatchDecision :=
  decideDispatch (w.dispatch.findByKey (routeKey payload route)) route w.clock

def Sends (o : NotificationConsumer) (payload : AlertFiredEventPayload) (route : MatchedRoute)
    (w : World) : Prop :=
  decides payload route w = .sendNow ∧ o.Reaches w route.contactPointId

theorem dispatchToContactPoint_run (payload : AlertFiredEventPayload) (route : MatchedRoute)
    (w : World) : ∃ t more through log,
    (o.dispatchToContactPoint payload route).run w = (.ok (), { w with
      dispatch := t
      tried := w.tried ++
        (if decides payload route w = .sendNow then [routeKey payload route] else [])
      sends := w.sends ++ more
      delivered := w.delivered ++ through
      recorded := log }) ∧
    (∀ key', key' ≠ routeKey payload route →
      t.findByKey key' = w.dispatch.findByKey key') ∧
    (more = [] ↔ ¬ o.Sends payload route w) ∧
    (through = [] ∨ o.Sends payload route w ∧ through = [⟨routeKey payload route, w.clock⟩]) := by
  rw [dispatchToContactPoint, Prog.run_bind, Prog.run_read]
  dsimp only
  rw [Prog.run_bind, Prog.run_read]
  dsimp only
  cases hdec : decides payload route w with
  | skipGroupWindow =>
    rw [show decideDispatch _ _ _ = _ from hdec]
    refine ⟨w.dispatch, [], [], w.recorded, by simp, fun _ _ => rfl, ?_, Or.inl rfl⟩
    simp [Sends, hdec]
  | sendNow =>
    rw [show decideDispatch _ _ _ = _ from hdec]
    obtain ⟨t, more, through, log, hrun, hother, hmore, hthrough⟩ := sendAndRecord_run (o := o) w
      (routeKey payload route)
    refine ⟨t, more, through, log, by rw [if_pos rfl]; exact hrun, hother, ?_, ?_⟩
    · simpa [Sends, hdec, routeKey] using hmore
    · exact hthrough.imp_right fun h => ⟨⟨hdec, h.1⟩, h.2⟩

theorem dispatchAll_run (payload : AlertFiredEventPayload) (routes : List MatchedRoute) :
    ∀ w : World, (routes.map (·.contactPointId)).Nodup → ∃ t more through log,
      (o.dispatchAll payload routes).run w = (.ok (), { w with
        dispatch := t
        tried := w.tried ++ (routes.filter fun route =>
          decides payload route w = .sendNow).map (routeKey payload)
        sends := w.sends ++ more
        delivered := w.delivered ++ through
        recorded := log }) ∧
      (more = [] ↔ ∀ route ∈ routes, ¬ o.Sends payload route w) ∧
      (∀ e ∈ through, ∃ route ∈ routes, e.key = routeKey payload route ∧ o.Sends payload route w) ∧
      (through.map (·.key.contactPointId)).Nodup := by
  induction routes with
  | nil =>
    intro w _
    exact ⟨w.dispatch, [], [], w.recorded, by simp [dispatchAll], by simp, by simp, by simp⟩
  | cons route rest ih =>
    intro w hnodup
    rw [List.map_cons, List.nodup_cons] at hnodup
    obtain ⟨t, more, through, log, hrun, hother, hmore, hthrough⟩ :=
      dispatchToContactPoint_run (o := o) payload route w
    obtain ⟨t', more', through', log', hrun', hmore', hthrough', hdistinct⟩ := ih { w with
      dispatch := t
      tried := w.tried ++
        (if decides payload route w = .sendNow then [routeKey payload route] else [])
      sends := w.sends ++ more
      delivered := w.delivered ++ through
      recorded := log } hnodup.2
    have hne : ∀ r ∈ rest, routeKey payload r ≠ routeKey payload route := by
      intro r hr heq
      refine hnodup.1 (List.mem_map.mpr ⟨r, hr, ?_⟩)
      exact congrArg DispatchKey.contactPointId heq
    -- the rows of the other contact points are as they were
    have hsame : ∀ r ∈ rest, decides payload r { w with
        dispatch := t
        tried := w.tried ++
          (if decides payload route w = .sendNow then [routeKey payload route] else [])
        sends := w.sends ++ more
        delivered := w.delivered ++ through
        recorded := log } = decides payload r w := by
      intro r hr
      simp only [decides, hother _ (hne r hr)]
    refine ⟨t', more ++ more', through ++ through', log', ?_, ?_, ?_, ?_⟩
    · rw [dispatchAll, Prog.run_bind, hrun]
      dsimp only
      rw [hrun', List.filter_congr fun r hr => by rw [hsame r hr], List.filter_cons]
      by_cases hdec : decides payload route w = .sendNow <;> simp [hdec]
    · rw [List.append_eq_nil_iff, hmore, hmore', List.forall_mem_cons]
      refine and_congr Iff.rfl (forall₂_congr fun r hr => ?_)
      rw [Sends, hsame r hr]
      rfl
    · intro e he
      rcases List.mem_append.mp he with he | he
      · rcases hthrough with rfl | ⟨hsends, rfl⟩
        · cases he
        · rw [List.mem_singleton.mp he]
          exact ⟨route, List.mem_cons_self, rfl, hsends⟩
      · obtain ⟨r, hr, hkey, hsends⟩ := hthrough' e he
        rw [Sends, hsame r hr] at hsends
        exact ⟨r, List.mem_cons_of_mem _ hr, hkey, hsends⟩
    · rw [List.map_append, List.nodup_append]
      refine ⟨?_, hdistinct, ?_⟩
      · rcases hthrough with rfl | ⟨-, rfl⟩
        · exact List.nodup_nil
        · exact List.nodup_singleton _
      · rintro cp hcp cp' hcp' rfl
        obtain ⟨e, he, rfl⟩ := List.mem_map.mp hcp'
        obtain ⟨r, hr, her, -⟩ := hthrough' e he
        rcases hthrough with rfl | ⟨-, rfl⟩
        · cases hcp
        · refine hnodup.1 (List.mem_map.mpr ⟨r, hr, ?_⟩)
          rw [her] at hcp
          exact List.mem_singleton.mp hcp

theorem mem_uniqueRoutes (routes : List MatchedRoute) : ∀ (seen : List String) (cp : String),
    cp ∈ (uniqueRoutes seen routes).map (·.contactPointId) ↔
      cp ≠ "" ∧ cp ∉ seen ∧ ∃ r ∈ routes, r.contactPointId = cp := by
  induction routes with
  | nil => simp [uniqueRoutes]
  | cons route rest ih =>
    intro seen cp
    rw [uniqueRoutes]
    by_cases hskip : route.contactPointId = "" ∨ route.contactPointId ∈ seen
    · rw [if_pos hskip, ih]
      refine and_congr_right fun hne => and_congr_right fun hseen => ?_
      rw [List.exists_mem_cons_iff]
      refine ⟨Or.inr, fun h => h.resolve_left ?_⟩
      rintro rfl
      exact hskip.elim hne hseen
    · rw [not_or] at hskip
      rw [if_neg (not_or.mpr hskip), List.map_cons, List.mem_cons, ih, List.exists_mem_cons_iff]
      constructor
      · rintro (rfl | ⟨hne, hseen, hrest⟩)
        · exact ⟨hskip.1, hskip.2, Or.inl rfl⟩
        · exact ⟨hne, fun h => hseen (List.mem_cons_of_mem _ h), Or.inr hrest⟩
      · rintro ⟨hne, hseen, hroute⟩
        by_cases heq : cp = route.contactPointId
        · exact Or.inl heq
        · refine Or.inr ⟨hne, by simp [heq, hseen], hroute.resolve_left (Ne.symm heq)⟩

theorem mem_of_mem_uniqueRoutes {routes : List MatchedRoute} {route : MatchedRoute} :
    ∀ {seen : List String}, route ∈ uniqueRoutes seen routes → route ∈ routes := by
  induction routes with
  | nil => exact fun h => h
  | cons r rest ih =>
    intro seen h
    rw [uniqueRoutes] at h
    split at h
    · exact List.mem_cons_of_mem _ (ih h)
    · rcases List.mem_cons.mp h with rfl | h
      · exact List.mem_cons_self
      · exact List.mem_cons_of_mem _ (ih h)

theorem uniqueRoutes_nodup (routes : List MatchedRoute) : ∀ seen : List String,
    ((uniqueRoutes seen routes).map (·.contactPointId)).Nodup := by
  induction routes with
  | nil => exact fun _ => List.nodup_nil
  | cons route rest ih =>
    intro seen
    rw [uniqueRoutes]
    split
    · exact ih seen
    · rw [List.map_cons, List.nodup_cons]
      refine ⟨fun hmem => ?_, ih _⟩
      exact ((mem_uniqueRoutes _ _ _).mp hmem).2.1 List.mem_cons_self

def routesOf (o : NotificationConsumer) (payload : AlertFiredEventPayload) (w : World) :
    List MatchedRoute :=
  uniqueRoutes [] (collectMatchingRoutes o.regExp w.getPolicyTree payload.labels)

theorem handle_run (o : NotificationConsumer) (payload : AlertFiredEventPayload) (w : World) :
    ∃ t more through log, (o.handle payload).run w = (.ok (), { w with
        dispatch := t
        tried := w.tried ++ ((o.routesOf payload w).filter fun route =>
          decides payload route w = .sendNow).map (routeKey payload)
        sends := w.sends ++ more
        delivered := w.delivered ++ through
        recorded := log }) ∧
      (more = [] ↔ ∀ route ∈ o.routesOf payload w, ¬ o.Sends payload route w) := by
  rw [handle, Prog.run_bind, Prog.run_read]
  obtain ⟨t, more, through, log, hrun, hmore, -⟩ :=
    dispatchAll_run payload (o.routesOf payload w) w (uniqueRoutes_nodup _ [])
  exact ⟨t, more, through, log, hrun, hmore⟩

end NotificationConsumer

end OpenObs.Notifications
