import OpenObs.Webhooks.Subscriptions

/-!
# What subscribers get

Seen from outside, the subscriptions are what the answered requests make of them one after the
other, and an event is delivered to those that are active and list it.
-/

namespace OpenObs.Webhooks

open OpenObs.Foundation OpenObs.Rules

/-! ## Requests one after the other -/

def answeredBy (id : String) (current : Option WebhookSubscription) :
    Happening → Option WebhookSubscription
  | .created sub => if sub.id = id then some sub else current
  | .updated id' body => if id' = id then current.map (updatedBy body) else current
  | .deleted id' => if id' = id then none else current
  | _ => current

def replay (trace : List Happening) (id : String) : Option WebhookSubscription :=
  trace.foldl (answeredBy id) none

theorem replay_concat (trace : List Happening) (h : Happening) (id : String) :
    replay (trace ++ [h]) id = answeredBy id (replay trace id) h := by
  rw [replay, List.foldl_concat, replay]

def listens (topic : String) (sub : WebhookSubscription) : Bool :=
  truthyJson (some sub.active) &&
    match sub.events with
    | .arr xs => xs.any (isText topic) || xs.any (isText "*")
    | _ => false

def SilentAfter (a b : Happening) : Prop :=
  ∀ id, a = .deleted id → ∀ topic present delivered, b = .published topic present delivered →
    id ∉ delivered

structure FollowsSubscriptions (w : WebhookRouter) : Prop where
  kept : ∀ id, w.subscriptions.get id = replay w.trace id
  once : ∀ topic present delivered, .published topic present delivered ∈ w.trace →
    (present.map (·.id)).Nodup ∧ delivered = (present.filter (listens topic)).map (·.id)
  silent : w.trace.Pairwise SilentAfter

/-! ## Conditions -/

def Heard (topic : String) (w : WebhookRouter) : Prop :=
  topic ∈ ALL_EVENT_TYPES ∨ ∀ sub ∈ w.subscriptions.values, listens topic sub = false

def Listed (w : WebhookRouter) : Prop :=
  ∀ sub ∈ w.subscriptions.values, truthyJson (some sub.active) = true →
    ∃ xs, sub.events = .arr xs

/-- The subscription is there still, and the fields that the update leaves alone are what they were
when it was read. -/
def Unchanged (sub : WebhookSubscription) (body : Json.Record) (w : WebhookRouter) : Prop :=
  ∃ stored, w.subscriptions.get sub.id = some stored ∧ updatedBy body sub = updatedBy body stored

def Unused (id : String) (w : WebhookRouter) : Prop := .deleted id ∉ w.trace

def WebhookLabel.Kept (w : WebhookRouter) : WebhookLabel → Prop
  | .publish topic => Heard topic w ∧ Listed w
  | .urlPasses k drawn =>
    Unused drawn.id w ∧
      ∀ sub body, w.waiting[k]? = some (some (.update sub body)) → Unchanged sub body w
  | _ => True

/-! ## One event -/

section FanOut

variable {topic : String} {subs : List WebhookSubscription}

theorem fanOut_listed : ∀ {subs : List WebhookSubscription},
    (∀ sub ∈ subs, truthyJson (some sub.active) = true → ∃ xs, sub.events = .arr xs) →
      fanOut topic subs = (subs.filter (listens topic)).map (·.id)
  | [], _ => rfl
  | sub :: rest, h => by
    have hrest := fanOut_listed fun s hs => h s (List.mem_cons_of_mem sub hs)
    rw [fanOut]
    cases hactive : truthyJson (some sub.active) with
    | false =>
      have hnot : ¬ listens topic sub = true := by simp [listens, hactive]
      rw [if_pos rfl, hrest, List.filter_cons, if_neg hnot]
    | true =>
      obtain ⟨xs, hxs⟩ := h sub List.mem_cons_self hactive
      have hlistens : listens topic sub = (xs.any (isText topic) || xs.any (isText "*")) := by
        rw [listens, hactive, hxs, Bool.true_and]
      rw [if_neg (by decide), hxs, includes, includes, List.filter_cons, hlistens, hrest]
      cases xs.any (isText topic) <;> cases xs.any (isText "*") <;> rfl

theorem nodup_allEventTypes : ALL_EVENT_TYPES.Nodup := by decide

theorem deliveries_eq (subs : List WebhookSubscription) :
    deliveries topic subs = if topic ∈ ALL_EVENT_TYPES then fanOut topic subs else [] := by
  have htypes : ALL_EVENT_TYPES.filter (· = topic) =
      List.replicate (ALL_EVENT_TYPES.count topic) topic := List.filter_eq topic
  rw [deliveries, htypes]
  split
  · rename_i hmem
    rw [nodup_allEventTypes.count, if_pos hmem]
    simp
  · rename_i hmem
    rw [List.count_eq_zero_of_not_mem hmem]
    rfl

theorem deliveries_listed {w : WebhookRouter} (hheard : Heard topic w) (hlisted : Listed w) :
    deliveries topic w.subscriptions.values =
      (w.subscriptions.values.filter (listens topic)).map (·.id) := by
  rw [deliveries_eq]
  split
  · exact fanOut_listed hlisted
  · rename_i htopic
    have hnone := hheard.resolve_left htopic
    rw [List.filter_eq_nil_iff.mpr fun sub hsub => by rw [hnone sub hsub]; decide]
    rfl

end FanOut

/-! ## Requests -/

structure Inv (w : WebhookRouter) : Prop extends FollowsSubscriptions w where
  ids : ∀ id sub, w.subscriptions.get id = some sub → sub.id = id
  gone : ∀ id, .deleted id ∈ w.trace → w.subscriptions.get id = none

section Steps

variable {w : WebhookRouter} {sub stored : WebhookSubscription} {body : Json.Record}

theorem inv_empty : Inv {} where
  kept := fun _ => rfl
  once := nofun
  silent := List.Pairwise.nil
  ids := nofun
  gone := nofun

theorem mem_concat {trace : List Happening} {h h' : Happening} :
    h' ∈ trace ++ [h] ↔ h' ∈ trace ∨ h' = h := by
  simp

theorem Inv.record (h : Inv w) {subscriptions : OrderedMap String WebhookSubscription}
    {waiting : List (Option Waiting)} {happening : Happening}
    (hevent : ∀ topic present delivered, happening ≠ .published topic present delivered)
    (hkept : ∀ id, subscriptions.get id = answeredBy id (w.subscriptions.get id) happening)
    (hids : ∀ id sub, subscriptions.get id = some sub → sub.id = id)
    (hgone : ∀ id, .deleted id ∈ w.trace ++ [happening] → subscriptions.get id = none) :
    Inv ⟨subscriptions, waiting, w.trace ++ [happening]⟩ where
  kept := by
    intro id
    rw [replay_concat, ← h.kept]
    exact hkept id
  once := by
    intro topic present delivered hmem
    rcases mem_concat.mp hmem with hmem | heq
    · exact h.once topic present delivered hmem
    · exact absurd heq.symm (hevent topic present delivered)
  silent := by
    refine List.pairwise_append.mpr ⟨h.silent, List.pairwise_singleton _ _, ?_⟩
    intro a _ b hb id _ topic present delivered heq
    rw [List.mem_singleton.mp hb] at heq
    exact absurd heq (hevent topic present delivered)
  ids := hids
  gone := hgone

theorem Inv.refuse (h : Inv w) (waiting : List (Option Waiting)) (status : ℕ) (code : String) :
    Inv ⟨w.subscriptions, waiting, w.trace ++ [.refused status code]⟩ := by
  refine h.record nofun (fun _ => rfl) h.ids fun id hmem => ?_
  rcases mem_concat.mp hmem with hmem | heq
  · exact h.gone id hmem
  · cases heq

theorem Inv.create (h : Inv w) (waiting : List (Option Waiting)) (hnew : Unused sub.id w) :
    Inv ⟨w.subscriptions.set sub.id sub, waiting, w.trace ++ [.created sub]⟩ := by
  refine h.record nofun (fun id => ?_) (fun id found hget => ?_) fun id hmem => ?_
  · rw [OrderedMap.get_set, answeredBy]
    by_cases hid : id = sub.id
    · rw [if_pos hid, if_pos hid.symm]
    · rw [if_neg hid, if_neg (Ne.symm hid)]
  · rw [OrderedMap.get_set] at hget
    split at hget
    · rename_i hid
      rw [← Option.some.inj hget, hid]
    · exact h.ids id found hget
  · rcases mem_concat.mp hmem with hmem | heq
    · have hne : id ≠ sub.id := by
        rintro rfl
        exact hnew hmem
      rw [OrderedMap.get_set, if_neg hne]
      exact h.gone id hmem
    · cases heq

theorem Inv.merge (h : Inv w) (waiting : List (Option Waiting))
    (hstored : w.subscriptions.get sub.id = some stored)
    (hsame : updatedBy body sub = updatedBy body stored) :
    Inv ⟨w.subscriptions.set sub.id (updatedBy body sub), waiting,
      w.trace ++ [.updated sub.id body]⟩ := by
  refine h.record nofun (fun id => ?_) (fun id found hget => ?_) fun id hmem => ?_
  · rw [OrderedMap.get_set, answeredBy]
    by_cases hid : id = sub.id
    · rw [if_pos hid, if_pos hid.symm, hid, hstored, Option.map_some, hsame]
    · rw [if_neg hid, if_neg (Ne.symm hid)]
  · rw [OrderedMap.get_set] at hget
    split at hget
    · rename_i hid
      rw [← Option.some.inj hget, hid, updatedBy_id]
    · exact h.ids id found hget
  · rcases mem_concat.mp hmem with hmem | heq
    · have hne : id ≠ sub.id := by
        rintro rfl
        rw [h.gone _ hmem] at hstored
        cases hstored
      rw [OrderedMap.get_set, if_neg hne]
      exact h.gone id hmem
    · cases heq

theorem Inv.delete (h : Inv w) (waiting : List (Option Waiting)) (id : String) :
    Inv ⟨w.subscriptions.delete id, waiting, w.trace ++ [.deleted id]⟩ := by
  refine h.record nofun (fun id' => ?_) (fun id' found hget => ?_) fun id' hmem => ?_
  · rw [OrderedMap.get_delete, answeredBy]
    by_cases hid : id' = id
    · rw [if_pos hid, if_pos hid.symm]
    · rw [if_neg hid, if_neg (Ne.symm hid)]
  · rw [OrderedMap.get_delete] at hget
    split at hget
    · cases hget
    · exact h.ids id' found hget
  · rw [OrderedMap.get_delete]
    split
    · rfl
    · rename_i hne
      rcases mem_concat.mp hmem with hmem | heq
      · exact h.gone id' hmem
      · cases heq
        exact absurd rfl hne

theorem Inv.map_id (h : Inv w) : w.subscriptions.values.map (·.id) = w.subscriptions.keys := by
  rw [OrderedMap.values, List.map_map, OrderedMap.keys]
  refine List.map_congr_left fun e he => ?_
  exact h.ids e.1 e.2 (OrderedMap.get_eq_some_iff.mpr he)

theorem Inv.publish (h : Inv w) {topic : String} (hheard : Heard topic w) (hlisted : Listed w) :
    Inv (w.publish topic) where
  kept := by
    intro id
    rw [WebhookRouter.publish, WebhookRouter.record, replay_concat]
    exact h.kept id
  once := by
    intro topic' present delivered hmem
    rcases mem_concat.mp hmem with hmem | heq
    · exact h.once topic' present delivered hmem
    · cases heq
      refine ⟨?_, deliveries_listed hheard hlisted⟩
      rw [h.map_id]
      exact w.subscriptions.keys_nodup
  silent := by
    refine List.pairwise_append.mpr ⟨h.silent, List.pairwise_singleton _ _, ?_⟩
    rintro a ha b hb id rfl topic' present delivered heq
    rw [List.mem_singleton.mp hb] at heq
    cases heq
    rw [deliveries_listed hheard hlisted]
    intro hmem
    -- a delivery is to a subscription that is there, and a deleted one is not
    obtain ⟨sub, hsub, hid⟩ := List.mem_map.mp hmem
    have hkey : id ∈ w.subscriptions.keys := by
      rw [← h.map_id, ← hid]
      exact List.mem_map_of_mem (List.mem_filter.mp hsub).1
    exact OrderedMap.get_eq_none_iff.mp (h.gone id ha) hkey
  ids := h.ids
  gone := by
    intro id hmem
    rcases mem_concat.mp hmem with hmem | heq
    · exact h.gone id hmem
    · cases heq

theorem Inv.step (h : Inv w) {label : WebhookLabel} (hkept : label.Kept w) {w' : WebhookRouter}
    (hstep : w.step label = some w') : Inv w' := by
  cases label with
  | post body =>
    obtain rfl := Option.some.inj hstep
    unfold WebhookRouter.post
    split
    · exact h.refuse _ _ _
    · exact { h with }
  | put id body =>
    obtain rfl := Option.some.inj hstep
    unfold WebhookRouter.put
    split
    · exact h.refuse _ _ _
    · rename_i sub hsub
      split
      · exact { h with }
      · have hself : w.subscriptions.get sub.id = some sub := by
          rw [h.ids id sub hsub]
          exact hsub
        exact h.merge _ hself rfl
  | delete id =>
    obtain rfl := Option.some.inj hstep
    unfold WebhookRouter.delete
    split
    · exact h.refuse _ _ _
    · exact h.delete _ id
  | urlPasses k drawn =>
    simp only [WebhookRouter.step] at hstep
    split at hstep
    · obtain rfl := Option.some.inj hstep
      exact h.create _ hkept.1
    · rename_i sub body hwaiting
      obtain rfl := Option.some.inj hstep
      obtain ⟨stored, hstored, hsame⟩ := hkept.2 sub body hwaiting
      exact h.merge _ hstored hsame
    · cases hstep
  | urlFails k =>
    simp only [WebhookRouter.step] at hstep
    split at hstep
    · obtain rfl := Option.some.inj hstep
      exact h.refuse _ _ _
    · cases hstep
  | publish topic =>
    obtain rfl := Option.some.inj hstep
    exact h.publish hkept.1 hkept.2

end Steps

/-- **Webhooks.** In a run whose steps all meet the condition, the fan-out follows the
subscriptions, as the answered requests have made them, in every state. -/
theorem follows_of_reaches {w : WebhookRouter}
    (hrun : Reaches WebhookRouter.step WebhookLabel.Kept {} w) : FollowsSubscriptions w :=
  (Reaches.invariant (I := Inv) inv_empty (fun _ _ _ h hkept hstep => h.step hkept hstep)
    hrun).toFollowsSubscriptions

/-! ## Two runs -/

def drawnHook : DrawnSubscription := ⟨"s1", "a2c9", "2026-01-01T00:00:00.000Z"⟩

def hookBody (eventType : String) : Json.Record :=
  [("url", .str "https://hooks.example.com/a"), ("events", .arr [.str eventType])]

def withHook (eventType : String) : WebhookRouter where
  subscriptions := OrderedMap.set {} "s1" (newSubscription drawnHook (hookBody eventType))
  waiting := [none]
  trace := [.created (newSubscription drawnHook (hookBody eventType))]

theorem reaches_withHook {Ok : WebhookRouter → WebhookLabel → Prop} {eventType : String}
    (hpost : Ok {} (.post (hookBody eventType)))
    (hpasses : Ok ⟨{}, [some (.create (hookBody eventType))], []⟩ (.urlPasses 0 drawnHook)) :
    Reaches WebhookRouter.step Ok {} (withHook eventType) :=
  (Reaches.init.tail _ hpost rfl).tail _ hpasses rfl

theorem listed_withHook (eventType : String) : Listed (withHook eventType) := by
  intro sub hsub _
  have hsub : sub ∈ [newSubscription drawnHook (hookBody eventType)] := hsub
  rw [List.mem_singleton.mp hsub]
  exact ⟨[.str eventType], rfl⟩

theorem follows_of_reaches_incident :
    FollowsSubscriptions ((withHook "incident.created").publish "incident.created") := by
  refine follows_of_reaches ((reaches_withHook trivial ⟨List.not_mem_nil, ?_⟩).tail
    (.publish "incident.created") ⟨Or.inl (by decide), listed_withHook _⟩ rfl)
  intro sub body hwaiting
  cases hwaiting

def WebhookLabel.Proper (w : WebhookRouter) : WebhookLabel → Prop
  | .publish topic => topic ∈ EventTypes ∧ Listed w
  | .urlPasses _ drawn => Unused drawn.id w
  | _ => True

/-- An alert fires, and the subscription that lists this gets nothing. -/
theorem alert_not_delivered : ¬ ∀ w : WebhookRouter,
    Reaches WebhookRouter.step WebhookLabel.Proper {} w → FollowsSubscriptions w := by
  intro hall
  have hreached : Reaches WebhookRouter.step WebhookLabel.Proper {}
      ((withHook "alert.fired").publish "alert.fired") :=
    (reaches_withHook trivial List.not_mem_nil).tail (.publish "alert.fired")
      ⟨by decide, listed_withHook _⟩ rfl
  have honce := ((hall _ hreached).once "alert.fired" (withHook "alert.fired").subscriptions.values
    _ (List.mem_append_right _ List.mem_cons_self)).2
  exact absurd honce (by decide +kernel)

end OpenObs.Webhooks
