import Mathlib
import OpenObs.Notifications.Agreement

/-!
# Deliveries of one approval

`handleApprovalCreated` in `services/notification-consumer.ts`. The approval id is the
fingerprint of its dispatches, so a delivery that comes again is stopped by the group
window of the last dispatch, and by nothing else.
-/

namespace OpenObs.Notifications

open OpenObs.Foundation NotificationConsumer

/-! ## One delivery -/

/-- What a delivery finds: the time, the policies, the contact points, the approvers and their
teams. -/
structure Circumstances where
  clock : ℤ
  policyTree : Option NotificationPolicyNode
  contactPoints : List ContactPoint
  findApprovers : String → ApprovalRow → List String
  teamsOf : String → String → List String

def World.under (w : World) (e : Circumstances) : World :=
  { w with
    clock := e.clock, policyTree := e.policyTree, contactPoints := e.contactPoints,
    findApprovers := e.findApprovers, teamsOf := e.teamsOf }

def delivery (o : NotificationConsumer) (payload : ApprovalCreatedEventPayload)
    (e : Circumstances) : Prog World Unit := do
  Prog.write (·.under e)
  o.handleApprovalCreated payload

def routesOfUsers (o : NotificationConsumer) (w : World) (tree : NotificationPolicyNode)
    (orgId : String) : List String → List MatchedRoute → List MatchedRoute
  | [], routes => routes
  | userId :: rest, routes =>
    routesOfUsers o w tree orgId rest (routes ++ uniqueRoutes (routes.map (·.contactPointId))
      (o.teamRoutes tree (w.teamsOf userId orgId)))

def approvalRoutes (o : NotificationConsumer) (payload : ApprovalCreatedEventPayload) (w : World) :
    List MatchedRoute :=
  routesOfUsers o w w.getPolicyTree payload.orgId
    (w.findApprovers payload.orgId ⟨payload.approvalId, payload.opsConnectorId,
      payload.targetNamespace, payload.requesterTeamId⟩) []

section Delivery

variable {o : NotificationConsumer} {payload : ApprovalCreatedEventPayload}

theorem userRoutes_run (tree : NotificationPolicyNode) (orgId : String) (users : List String)
    (w : World) : ∀ routes, (o.userRoutes tree orgId users routes).run w =
      (.ok (routesOfUsers o w tree orgId users routes), w) := by
  induction users with
  | nil => exact fun _ => rfl
  | cons userId rest ih =>
    intro routes
    rw [userRoutes, Prog.run_bind, Prog.run_read]
    exact ih _

theorem routesOfUsers_nodup (w : World) (tree : NotificationPolicyNode) (orgId : String)
    (users : List String) : ∀ routes, (routes.map (·.contactPointId)).Nodup →
      ((routesOfUsers o w tree orgId users routes).map (·.contactPointId)).Nodup := by
  induction users with
  | nil => exact fun _ h => h
  | cons userId rest ih =>
    intro routes h
    refine ih _ ?_
    rw [List.map_append, List.nodup_append]
    refine ⟨h, uniqueRoutes_nodup _ _, ?_⟩
    rintro cp hcp cp' hcp' rfl
    exact ((mem_uniqueRoutes _ _ _).mp hcp').2.1 hcp

theorem delivery_run (o : NotificationConsumer) (payload : ApprovalCreatedEventPayload)
    (e : Circumstances) (w : World) : ∃ w' more through,
    (delivery o payload e).run w = (.ok (), w') ∧
      w'.sends = w.sends ++ more ∧ w'.delivered = w.delivered ++ through ∧
      (more = [] ↔ ∀ route ∈ approvalRoutes o payload (w.under e),
        ¬ o.Sends (adapted payload) route (w.under e)) ∧
      (∀ d ∈ through, ∃ route ∈ approvalRoutes o payload (w.under e),
        d.key = routeKey (adapted payload) route ∧
          o.Sends (adapted payload) route (w.under e)) ∧
      (through.map (·.key.contactPointId)).Nodup := by
  obtain ⟨t, more, through, log, hrun, hmore, hthrough, hnodup⟩ :=
    dispatchAll_run (o := o) (adapted payload) (approvalRoutes o payload (w.under e)) (w.under e)
      (routesOfUsers_nodup _ _ _ _ _ List.nodup_nil)
  show ∃ w' more through, (o.handleApprovalCreated payload).run (w.under e) = _ ∧ _
  rw [handleApprovalCreated, Prog.run_bind, Prog.run_read]
  dsimp only
  split
  · rename_i hnobody
    have hnone : approvalRoutes o payload (w.under e) = [] := by
      rw [approvalRoutes, hnobody]
      rfl
    exact ⟨w.under e, [], [], rfl, (List.append_nil _).symm, (List.append_nil _).symm,
      by simp [hnone], by simp, List.nodup_nil⟩
  · rw [Prog.run_bind, Prog.run_read]
    dsimp only
    rw [Prog.run_bind, userRoutes_run]
    exact ⟨_, more, through, hrun, rfl, rfl, hmore, hthrough, hnodup⟩

end Delivery

/-! ## Deliveries one after another -/

def sentTo (payload : ApprovalCreatedEventPayload) (w : World) : List String :=
  (w.delivered.filter (·.key.fingerprint = payload.approvalId)).map (·.key.contactPointId)

def FullySent (o : NotificationConsumer) (payload : ApprovalCreatedEventPayload)
    (e : Circumstances) (w : World) : Prop :=
  approvalRoutes o payload (w.under e) ≠ [] ∧
    ∀ route ∈ approvalRoutes o payload (w.under e),
      ∃ d ∈ ((delivery o payload e).run w).2.delivered.drop w.delivered.length,
        d.key = routeKey (adapted payload) route

/-- Each contact point is sent to at most once, and once a delivery has gone through everywhere,
the later ones call no sender. -/
structure Idempotent (o : NotificationConsumer) (payload : ApprovalCreatedEventPayload)
    (w₀ : World) (es : List Circumstances) : Prop where
  once : (sentTo payload (serveAll (delivery o payload) es w₀)).Nodup
  silent : ∀ pre e mid e' post, es = pre ++ e :: (mid ++ e' :: post) →
    FullySent o payload e (serveAll (delivery o payload) pre w₀) →
    (serveAll (delivery o payload) (pre ++ e :: (mid ++ [e'])) w₀).sends =
      (serveAll (delivery o payload) (pre ++ e :: mid) w₀).sends

/-- The last dispatch with the key of the route is inside its group window, and it is not time
to repeat it; or there is nobody to send to. -/
def HeldBack (o : NotificationConsumer) (payload : ApprovalCreatedEventPayload)
    (route : MatchedRoute) (w : World) : Prop :=
  (∃ row, w.dispatch.findByKey (routeKey (adapted payload) route) = some row ∧
    ((w.clock - row.lastSentAt : ℤ) : ℚ) < route.groupIntervalSec * 1000 ∧
    ¬ (0 < row.sentCount ∧
      route.repeatIntervalSec * 1000 ≤ ((w.clock - row.lastSentAt : ℤ) : ℚ))) ∨
  ¬ o.Reaches w route.contactPointId

/-- Every delivery finds the routes to contact points it has been sent to held back, and all its
routes once one has gone through everywhere. -/
structure Windowed (o : NotificationConsumer) (payload : ApprovalCreatedEventPayload)
    (w₀ : World) (es : List Circumstances) : Prop where
  again : ∀ pre e post, es = pre ++ e :: post →
    ∀ route ∈ approvalRoutes o payload ((serveAll (delivery o payload) pre w₀).under e),
      route.contactPointId ∈ sentTo payload (serveAll (delivery o payload) pre w₀) →
      HeldBack o payload route ((serveAll (delivery o payload) pre w₀).under e)
  done : ∀ pre e mid e' post, es = pre ++ e :: (mid ++ e' :: post) →
    FullySent o payload e (serveAll (delivery o payload) pre w₀) →
    ∀ route ∈ approvalRoutes o payload
        ((serveAll (delivery o payload) (pre ++ e :: mid) w₀).under e'),
      HeldBack o payload route ((serveAll (delivery o payload) (pre ++ e :: mid) w₀).under e')

section Sequence

variable {o : NotificationConsumer} {payload : ApprovalCreatedEventPayload} {w₀ : World}

theorem heldBack_iff {route : MatchedRoute} {w : World} :
    HeldBack o payload route w ↔ ¬ o.Sends (adapted payload) route w := by
  rw [Sends, not_and_or, HeldBack, ← decideDispatch_eq_skip_iff]
  refine or_congr ?_ Iff.rfl
  rw [decides]
  cases decideDispatch _ route w.clock <;> simp

theorem sentTo_nodup_step {e : Circumstances} {w : World} (h : (sentTo payload w).Nodup)
    (hagain : ∀ route ∈ approvalRoutes o payload (w.under e),
      route.contactPointId ∈ sentTo payload w → HeldBack o payload route (w.under e)) :
    (sentTo payload ((delivery o payload e).run w).2).Nodup := by
  obtain ⟨w', more, through, hrun, -, hdelivered, -, hthrough, hnodup⟩ :=
    delivery_run o payload e w
  rw [hrun, sentTo, hdelivered, List.filter_append, List.map_append, List.nodup_append]
  refine ⟨h, hnodup.sublist (List.filter_sublist.map _), ?_⟩
  rintro cp hcp cp' hcp' rfl
  obtain ⟨d, hd, rfl⟩ := List.mem_map.mp hcp'
  obtain ⟨route, hroute, hkey, hsends⟩ := hthrough d (List.mem_filter.mp hd).1
  refine heldBack_iff.mp (hagain route hroute ?_) hsends
  rw [hkey] at hcp
  exact hcp

/-- As long as every delivery comes inside the windows of what has been sent, the event is
handled once. -/
theorem approval_created_once (o : NotificationConsumer) (payload : ApprovalCreatedEventPayload)
    (w₀ : World) (es : List Circumstances)
    (hfresh : ∀ d ∈ w₀.delivered, d.key.fingerprint ≠ payload.approvalId)
    (h : Windowed o payload w₀ es) : Idempotent o payload w₀ es := by
  constructor
  case once =>
    have hprefix : ∀ pre post, es = pre ++ post →
        (sentTo payload (serveAll (delivery o payload) pre w₀)).Nodup := by
      intro pre
      induction pre using List.reverseRecOn with
      | nil =>
        intro post _
        have hnone : sentTo payload w₀ = [] := by
          rw [sentTo, List.map_eq_nil_iff, List.filter_eq_nil_iff]
          exact fun d hd => by simpa using hfresh d hd
        show (sentTo payload w₀).Nodup
        rw [hnone]
        exact List.nodup_nil
      | append_singleton pre e ih =>
        intro post heq
        rw [List.append_assoc, List.singleton_append] at heq
        rw [serveAll_append]
        exact sentTo_nodup_step (ih _ heq) (h.again pre e post heq)
    exact hprefix es [] (List.append_nil _).symm
  case silent =>
    intro pre e mid e' post heq hfull
    have hheld := h.done pre e mid e' post heq hfull
    rw [← List.cons_append, ← List.append_assoc, serveAll_append]
    obtain ⟨w', more, through, hrun, hsends, -, hmore, -⟩ := delivery_run o payload e'
      (serveAll (delivery o payload) (pre ++ e :: mid) w₀)
    show ((delivery o payload e').run _).2.sends = _
    rw [hrun, hsends, hmore.mpr fun route hroute => heldBack_iff.mp (hheld route hroute),
      List.append_nil]

end Sequence

/-! ## An approval for one team -/

def restart : ApprovalCreatedEventPayload where
  approvalId := "ap_1"
  orgId := "org_main"
  summary := "Restart the web tier"
  createdAt := "2026-05-03T00:00:00Z"

/-- The approver is in the team `web`, which is on Slack; its policy has the default windows. -/
def webTeamAt (clock : ℤ) : Circumstances where
  clock := clock
  policyTree := some (rootPolicy "" [webPolicy []])
  contactPoints := [⟨"cp_web", "Web", [⟨"int_1", .slack, "Slack", [], none⟩]⟩]
  findApprovers := fun _ _ => ["user_1"]
  teamsOf := fun _ _ => ["web"]

/-- A second delivery after a second is held back. -/
theorem approval_created_once_again :
    Idempotent plainConsumer restart {} [webTeamAt 0, webTeamAt 1000] ∧
      sentTo restart (serveAll (delivery plainConsumer restart) [webTeamAt 0, webTeamAt 1000] {}) =
        ["cp_web"] := by
  have hheld : ∀ route ∈ approvalRoutes plainConsumer restart
      ((serveAll (delivery plainConsumer restart) [webTeamAt 0] {}).under (webTeamAt 1000)),
      HeldBack plainConsumer restart route
        ((serveAll (delivery plainConsumer restart) [webTeamAt 0] {}).under (webTeamAt 1000)) := by
    intro route hroute
    refine heldBack_iff.mpr fun hsends => ?_
    have hskips : ∀ route ∈ approvalRoutes plainConsumer restart
        ((serveAll (delivery plainConsumer restart) [webTeamAt 0] {}).under (webTeamAt 1000)),
        NotificationConsumer.decides (adapted restart) route
          ((serveAll (delivery plainConsumer restart) [webTeamAt 0] {}).under (webTeamAt 1000)) =
          .skipGroupWindow := by decide +kernel
    exact absurd ((hskips route hroute).symm.trans hsends.1) (by decide)
  refine ⟨approval_created_once plainConsumer restart {} _ (fun d hd => by cases hd) ⟨?_, ?_⟩,
    by decide +kernel⟩
  · intro pre e post heq route hroute hsent
    match pre, heq with
    | [], _ => cases hsent
    | [_], rfl => exact hheld route hroute
    | _ :: _ :: pre, heq =>
      have hlen := congrArg List.length heq
      simp at hlen
  · rintro pre e mid e' post heq - route hroute
    match pre, mid with
    | [], [] =>
      cases heq
      exact hheld route hroute
    | [], _ :: mid =>
      have hlen := congrArg List.length heq
      simp at hlen
    | _ :: pre, mid =>
      have hlen := congrArg List.length heq
      simp at hlen
      omega

/-- After five minutes it is sent again. -/
theorem approval_created_sent_twice :
    ¬ ∀ (o : NotificationConsumer) (payload : ApprovalCreatedEventPayload) (w₀ : World)
        (es : List Circumstances),
      (∀ d ∈ w₀.delivered, d.key.fingerprint ≠ payload.approvalId) →
      (es.map (·.clock)).Pairwise (· ≤ ·) → Idempotent o payload w₀ es := by
  intro hall
  have honce := (hall plainConsumer restart {} [webTeamAt 0, webTeamAt 300000]
    (fun d hd => by cases hd) (by decide)).once
  exact absurd honce (by decide +kernel)

end OpenObs.Notifications
