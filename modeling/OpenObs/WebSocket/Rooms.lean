import OpenObs.WebSocket.Gateway

/-!
# Who is in a room

Whoever is in a room was found entitled to the resource that the room stands for, as its join saw
the stores and the grants.
-/

namespace OpenObs.WebSocket

open OpenObs.Foundation

/-! ## Entitlement -/

namespace Directory

variable (dir : Directory)

def investigationOf : Resource → Option String
  | .investigation id => some id
  | .incident _ => none
  | .approval id => dir.approvalInvestigation id
  | .feedItem id => dir.itemInvestigation id
  | .finding id => dir.findingInvestigation id

def orgOf : Resource → Option String
  | .incident id => dir.incidentOrg id
  | x => (dir.investigationOf x).bind dir.investigationOrg

def reads : Resource → List Rbac.Evaluator
  | .incident _ => [readsInvestigations]
  | .approval id =>
    readsApproval id :: ((dir.approvalInvestigation id).map readsInvestigation).toList
  | x => ((dir.investigationOf x).map readsInvestigation).toList

end Directory

/-- The resource is of the identity's org, and among the readings are some that permit each thing
that reading it takes. -/
structure Entitled (dir : Directory) (identity : Rbac.Identity) (seen : List Readings)
    (x : Resource) : Prop where
  org : dir.orgOf x = some identity.orgId
  read : ∀ e ∈ dir.reads x, ∃ r ∈ seen, r.permits identity e = .ok true

def Decides (dir : Directory) (identity : Rbac.Identity) (x : Resource) :
    Prog Readings Bool → List Readings → Prop :=
  Prog.Sees fun seen answer => answer = true → Entitled dir identity seen x

section Checks

variable {gw : Gateway} {identity : Rbac.Identity} {seen : List Readings}

theorem decides_no {x : Resource} : Decides gw.dir identity x (pure false) seen := nofun

theorem sees_columnOf {x : Resource} {column : Option String} :
    (columnOf x column).Sees (fun seen' c => seen ⊆ seen' ∧ (c = none ∨ c = column)) seen := by
  refine Prog.sees_attempt.mpr fun r c hc => ⟨List.subset_append_left _ _, ?_⟩
  cases hfind : r.finds x with
  | error e => simp [hfind, Except.map] at hc
  | ok found =>
    cases found with
    | true => exact Or.inr (by simpa [hfind, Except.map] using hc.symm)
    | false => exact Or.inl (by simpa [hfind, Except.map] using hc.symm)

theorem sees_evaluate {e : Rbac.Evaluator} :
    (evaluate identity e).Sees (fun seen' answer => seen ⊆ seen' ∧
      (answer = true → ∃ r ∈ seen', r.permits identity e = .ok true)) seen := by
  refine Prog.sees_attempt.mpr fun r answer hanswer => ⟨List.subset_append_left _ _, fun hyes => ?_⟩
  refine ⟨r, List.mem_append_right _ List.mem_cons_self, ?_⟩
  rw [← hyes]
  exact hanswer

theorem sees_authorizeRow {x : Resource} {workspaceId : Option String} {e : Rbac.Evaluator} :
    (authorizeRow gw identity x workspaceId e).Sees (fun seen' answer => seen ⊆ seen' ∧
      (answer = true → workspaceId = some identity.orgId ∧
        ∃ r ∈ seen', r.permits identity e = .ok true)) seen := by
  unfold authorizeRow
  split
  · refine Prog.Sees.bind (sees_columnOf.mono fun seen' column ⟨hsub, hcolumn⟩ => ?_)
    split
    · exact ⟨hsub, nofun⟩
    · rename_i hsame
      have hcol : column = some identity.orgId := not_not.mp fun h => hsame (Or.inr h)
      have horg : workspaceId = some identity.orgId := by
        rcases hcolumn with hnone | hcolumn
        · cases hnone.symm.trans hcol
        · exact hcolumn.symm.trans hcol
      refine sees_evaluate.mono fun seen'' answer ⟨hsub', hread⟩ => ?_
      exact ⟨fun r hr => hsub' (hsub hr), fun hyes => ⟨horg, hread hyes⟩⟩
  · exact ⟨List.Subset.refl _, nofun⟩

theorem decides_investigation (id : String) :
    Decides gw.dir identity (.investigation id) (authorizeInvestigation gw identity id) seen := by
  refine sees_authorizeRow.mono fun seen' answer h hyes => ?_
  obtain ⟨horg, hread⟩ := h.2 hyes
  refine ⟨horg, fun e he => ?_⟩
  simp only [Directory.reads, Directory.investigationOf, Option.map_some, Option.toList_some,
    List.mem_singleton] at he
  rw [he]
  exact hread

theorem decides_incident (id : String) :
    Decides gw.dir identity (.incident id) (authorizeIncident gw identity id) seen := by
  refine sees_authorizeRow.mono fun seen' answer h hyes => ?_
  obtain ⟨horg, hread⟩ := h.2 hyes
  refine ⟨horg, fun e he => ?_⟩
  simp only [Directory.reads, List.mem_singleton] at he
  rw [he]
  exact hread

theorem Entitled.through {x : Resource} {id : String}
    (h : Entitled gw.dir identity seen (.investigation id))
    (horg : gw.dir.orgOf x = gw.dir.investigationOrg id)
    (hreads : gw.dir.reads x = [readsInvestigation id]) : Entitled gw.dir identity seen x := by
  refine ⟨horg.trans h.org, ?_⟩
  rw [hreads]
  exact h.read

theorem decides_approval (id : String) :
    Decides gw.dir identity (.approval id) (authorizeApproval gw identity id) seen := by
  unfold authorizeApproval
  split
  · refine Prog.Sees.bind (sees_columnOf.mono fun seen₁ column ⟨_, hcolumn⟩ => ?_)
    cases column with
    | none => exact decides_no
    | some investigationId =>
      have hinv : gw.dir.approvalInvestigation id = some investigationId :=
        (hcolumn.resolve_left nofun).symm
      dsimp only
      split
      · exact decides_no
      · refine Prog.Sees.bind (sees_evaluate.mono fun seen₂ answer ⟨_, hread⟩ => ?_)
        split
        · rename_i hyes
          -- what the first evaluation has seen is still among what the second one has
          refine sees_authorizeRow.mono fun seen₃ answer' ⟨hsub, h⟩ hyes' => ?_
          obtain ⟨horg, r, hr, hpermit⟩ := h hyes'
          refine ⟨?_, fun e he => ?_⟩
          · rw [Directory.orgOf, Directory.investigationOf, hinv]
            · exact horg
            · exact nofun
          · rw [Directory.reads, hinv] at he
            simp only [Option.map_some, Option.toList_some, List.mem_cons, List.not_mem_nil,
              or_false] at he
            rcases he with rfl | rfl
            · obtain ⟨r', hr', hpermit'⟩ := hread hyes
              exact ⟨r', hsub hr', hpermit'⟩
            · exact ⟨r, hr, hpermit⟩
        · exact decides_no
  · exact decides_no

theorem decides_through {x : Resource} {id : String}
    (horg : gw.dir.orgOf x = gw.dir.investigationOrg id)
    (hreads : gw.dir.reads x = [readsInvestigation id]) :
    Decides gw.dir identity x (authorizeInvestigation gw identity id) seen :=
  (decides_investigation id).mono fun _ _ h hyes => (h hyes).through horg hreads

theorem decides_feedItem (id : String) :
    Decides gw.dir identity (.feedItem id) (authorizeFeedItem gw identity id) seen := by
  unfold authorizeFeedItem
  split
  · refine Prog.Sees.bind (sees_columnOf.mono fun seen₁ column ⟨_, hcolumn⟩ => ?_)
    cases column with
    | none => exact decides_no
    | some investigationId =>
      have hinv : gw.dir.itemInvestigation id = some investigationId :=
        (hcolumn.resolve_left nofun).symm
      dsimp only
      split
      · exact decides_no
      · apply decides_through
        · simp [Directory.orgOf, Directory.investigationOf, hinv]
        · simp [Directory.reads, Directory.investigationOf, hinv]
  · exact decides_no

theorem decides_finding {findingId investigationId : String}
    (hown : gw.dir.investigationOrg investigationId = some identity.orgId →
      gw.dir.findingInvestigation findingId = some investigationId) :
    Decides gw.dir identity (.finding findingId)
      (authorizeFinding gw identity investigationId) seen := by
  unfold authorizeFinding
  split
  · exact decides_no
  · refine (decides_investigation investigationId).mono fun seen' answer h hyes => ?_
    have hinv := hown (h hyes).org
    apply (h hyes).through
    · simp [Directory.orgOf, Directory.investigationOf, hinv]
    · simp [Directory.reads, Directory.investigationOf, hinv]

theorem decides_join (space : Space) (id : String) :
    Decides gw.dir identity (space.resource id) (authorizeJoin gw identity space id) seen := by
  cases space with
  | investigations => exact decides_investigation id
  | incidents => exact decides_incident id
  | approvals => exact decides_approval id
  | feed => exact decides_feedItem id

end Checks

/-! ## Rooms -/

theorem room_inj {x y : Resource} (hspace : x.space = y.space) (hroom : x.room = y.room) :
    x = y := by
  cases x <;> cases y <;> simp_all [Resource.space, Resource.room]
  -- a feed item and a finding: the names differ in their second letter
  all_goals
    have hchars := congrArg String.toList hroom
    simp at hchars

/-- The room is that of a resource, and a yes of the check finds the identity entitled to it. -/
def Vouched (gw : Gateway) (client : Client) (room : String) (check : Prog Readings Bool)
    (seen : List Readings) : Prop :=
  ∃ (identity : Rbac.Identity) (x : Resource), client.identity = some identity ∧
    x.space = client.space ∧ x.room = room ∧ Decides gw.dir identity x check seen

structure Sound (gw : Gateway) (w : GatewayWorld) : Prop where
  rooms : ∀ (i : ℕ) (client : Client), w.sockets[i]? = some client →
    ∀ m ∈ client.rooms, Vouched gw client m.room (.ret true) m.seen
  joins : ∀ p ∈ w.joins, ∃ client, w.sockets[p.socket]? = some client ∧
    Vouched gw client p.room p.check p.seen

/-- A join of a finding that names an investigation of the sender's org names the one that the
finding belongs to, and so does an event that names an item and a finding. -/
def Truthful (gw : Gateway) (w : GatewayWorld) : GatewayLabel → Prop
  | .message i (.joinFinding payload) =>
    ∀ client identity, w.sockets[i]? = some client → client.identity = some identity →
      gw.dir.investigationOrg (idOf (optionalField payload "investigationId")) =
        some identity.orgId →
      gw.dir.findingInvestigation (idOf (optionalField payload "findingId")) =
        some (idOf (optionalField payload "investigationId"))
  | .publish topic event => topic.space = .feed → ∀ itemId findingId,
      named gw event "itemId" = some itemId → named gw event "findingId" = some findingId →
      gw.dir.findingInvestigation findingId = gw.dir.itemInvestigation itemId
  | _ => True

section Sound

variable {gw : Gateway} {w w' : GatewayWorld} {i : ℕ} {client : Client}

theorem Vouched.of_same {client' : Client} {room : String} {check : Prog Readings Bool}
    {seen : List Readings} (hidentity : client'.identity = client.identity)
    (hspace : client'.space = client.space) (h : Vouched gw client room check seen) :
    Vouched gw client' room check seen := by
  obtain ⟨identity, x, hid, hx, hroom, hdecides⟩ := h
  exact ⟨identity, x, hidentity.trans hid, hx.trans hspace.symm, hroom, hdecides⟩

theorem Sound.of_joins (hw : Sound gw w) (hsockets : w'.sockets = w.sockets)
    (hjoins : ∀ p ∈ w'.joins, p ∈ w.joins ∨ ∃ client, w.sockets[p.socket]? = some client ∧
      Vouched gw client p.room p.check p.seen) : Sound gw w' := by
  refine ⟨?_, fun p hp => ?_⟩
  · rw [hsockets]
    exact hw.rooms
  · rw [hsockets]
    rcases hjoins p hp with hold | hnew
    · exact hw.joins p hold
    · exact hnew

theorem Sound.of_set (hw : Sound gw w) {client' : Client} (hi : w.sockets[i]? = some client)
    (hsockets : w'.sockets = w.sockets.set i client') (hidentity : client'.identity = client.identity)
    (hspace : client'.space = client.space)
    (hrooms : ∀ m ∈ client'.rooms, m ∈ client.rooms ∨ Vouched gw client m.room (.ret true) m.seen)
    (hjoins : ∀ p ∈ w'.joins, p ∈ w.joins) : Sound gw w' := by
  have hself : w'.sockets[i]? = some client' := by
    rw [hsockets, List.getElem?_set_self (List.getElem?_eq_some_iff.mp hi).1]
  have hother : ∀ j, i ≠ j → w'.sockets[j]? = w.sockets[j]? := by
    intro j hij
    rw [hsockets, List.getElem?_set_ne hij]
  refine ⟨fun j c hj m hm => ?_, fun p hp => ?_⟩
  · by_cases hij : i = j
    · subst hij
      cases hself.symm.trans hj
      refine Vouched.of_same hidentity hspace ?_
      rcases hrooms m hm with hold | hnew
      · exact hw.rooms i client hi m hold
      · exact hnew
    · exact hw.rooms j c ((hother j hij).symm.trans hj) m hm
  · obtain ⟨c, hc, hvouched⟩ := hw.joins p (hjoins p hp)
    by_cases hij : i = p.socket
    · subst hij
      cases hi.symm.trans hc
      exact ⟨client', hself, hvouched.of_same hidentity hspace⟩
    · exact ⟨c, (hother _ hij).trans hc, hvouched⟩

theorem Sound.joinIfAuthorized (hw : Sound gw w) (hi : w.sockets[i]? = some client) {x : Resource}
    {isAllowed : Rbac.Identity → Prog Readings Bool} (hspace : x.space = client.space)
    (hdecides : ∀ identity, client.identity = some identity →
      Decides gw.dir identity x (isAllowed identity) []) :
    Sound gw (w.joinIfAuthorized i client x.room isAllowed) := by
  unfold GatewayWorld.joinIfAuthorized
  split
  · exact hw.of_joins rfl fun p hp => Or.inl hp
  · rename_i identity hid
    refine hw.of_joins rfl fun p hp => ?_
    rcases List.mem_append.mp hp with hold | hnew
    · exact Or.inl hold
    · rw [List.mem_singleton.mp hnew]
      exact Or.inr ⟨client, hi, identity, x, hid, hspace, rfl, hdecides identity hid⟩

theorem Sound.leave (hw : Sound gw w) (hi : w.sockets[i]? = some client) (room : String) :
    Sound gw (w.leave i client room) :=
  hw.of_set hi rfl rfl rfl (fun _ hm => Or.inl (List.mem_of_mem_filter hm)) fun _ hp => hp

theorem resource_space (space : Space) (id : String) : (space.resource id).space = space := by
  cases space <;> rfl

theorem Sound.onMessage (hw : Sound gw w) (hi : w.sockets[i]? = some client)
    {message : ClientMessage} (hok : Truthful gw w (.message i message)) :
    Sound gw (w.onMessage gw i client message) := by
  cases message with
  | join payload =>
    simp only [GatewayWorld.onMessage]
    split
    · exact hw.of_joins rfl fun p hp => Or.inl hp
    · exact hw.joinIfAuthorized hi (resource_space _ _) fun _ _ => decides_join _ _
  | joinFinding payload =>
    simp only [GatewayWorld.onMessage]
    split
    · rename_i hfeed
      split
      · exact hw.of_joins rfl fun p hp => Or.inl hp
      · exact hw.joinIfAuthorized hi hfeed.symm fun identity hid =>
          decides_finding (hok client identity hi hid)
    · exact hw
  | leave payload => exact hw.leave hi _
  | leaveFinding payload =>
    simp only [GatewayWorld.onMessage]
    split
    · exact hw.leave hi _
    · exact hw

theorem Sound.advanceJoin (hw : Sound gw w) {j : ℕ} {p : Joining} (hj : w.joins[j]? = some p) :
    Sound gw (w.advanceJoin j p) := by
  have hmem : p ∈ w.joins := List.mem_of_getElem? hj
  obtain ⟨client, hi, hvouched⟩ := hw.joins p hmem
  have herase : ∀ q ∈ w.joins.eraseIdx j, q ∈ w.joins := fun q hq => List.mem_of_mem_eraseIdx hq
  unfold GatewayWorld.advanceJoin
  split
  · rename_i f k hcheck
    refine hw.of_joins rfl fun q hq => ?_
    rcases List.mem_or_eq_of_mem_set hq with hold | rfl
    · exact Or.inl hold
    · obtain ⟨identity, x, hid, hspace, hroom, hdecides⟩ := hvouched
      rw [hcheck] at hdecides
      exact Or.inr ⟨client, hi, identity, x, hid, hspace, hroom, hdecides w.readings⟩
  · rename_i hcheck
    rw [hi]
    refine hw.of_set hi rfl rfl rfl (fun m hm => ?_) herase
    rcases List.mem_append.mp hm with hold | hnew
    · exact Or.inl hold
    · rw [List.mem_singleton.mp hnew]
      exact Or.inr (hcheck ▸ hvouched)
  · exact hw.of_joins rfl fun q hq => Or.inl (herase q hq)
  · exact hw.of_joins rfl fun q hq => Or.inl (herase q hq)

theorem Sound.next (hw : Sound gw w) {l : GatewayLabel} (hok : Truthful gw w l)
    (h : w.next gw l = some w') : Sound gw w' := by
  cases l with
  | connect space identity =>
    cases h
    refine ⟨fun j c hj m hm => ?_, fun p hp => ?_⟩
    · rw [List.getElem?_append] at hj
      split at hj
      · exact hw.rooms j c hj m hm
      · rw [List.mem_singleton.mp (List.mem_of_getElem? hj)] at hm
        cases hm
    · obtain ⟨c, hc, hvouched⟩ := hw.joins p hp
      have hlen := (List.getElem?_eq_some_iff.mp hc).1
      exact ⟨c, (List.getElem?_append_left hlen).trans hc, hvouched⟩
  | disconnect i =>
    obtain ⟨client, hi, rfl⟩ := Option.map_eq_some_iff.mp h
    exact hw.of_set hi rfl rfl rfl nofun fun _ hp => hp
  | message i message =>
    simp only [GatewayWorld.next] at h
    split at h
    · rename_i client hi
      split at h
      · cases h
        exact hw.onMessage hi hok
      · cases h
    · cases h
  | advance j =>
    obtain ⟨p, hj, rfl⟩ := Option.map_eq_some_iff.mp h
    exact hw.advanceJoin hj
  | publish topic event =>
    cases h
    unfold GatewayWorld.bridge
    split
    · exact hw.of_joins rfl fun p hp => Or.inl hp
    · exact hw
  | change readings =>
    cases h
    exact hw.of_joins rfl fun p hp => Or.inl hp

end Sound

/-! ## Events -/

def about (gw : Gateway) (topic : EventType) (event : EventEnvelope) : List Resource :=
  match topic.space with
  | .investigations => ((named gw event "investigationId").map .investigation).toList
  | .incidents => ((named gw event "incidentId").map .incident).toList
  | .approvals => ((named gw event "actionId").map .approval).toList
  | .feed => ((named gw event "itemId").map .feedItem).toList ++
      ((named gw event "findingId").map .finding).toList

/-- The socket is in a room by a join that has found it entitled to all that the event is about. -/
def Cleared (gw : Gateway) (w : GatewayWorld) (topic : EventType) (event : EventEnvelope)
    (i : ℕ) : Prop :=
  ∃ client identity m, w.sockets[i]? = some client ∧ client.identity = some identity ∧
    m ∈ client.rooms ∧ ∀ x ∈ about gw topic event, Entitled gw.dir identity m.seen x

section Events

variable {gw : Gateway} {w : GatewayWorld} {topic : EventType} {event : EventEnvelope}

theorem Sound.recipient (hw : Sound gw w) {x : Resource} {i : ℕ} (hi : i ∈ recipients w x) :
    ∃ client identity m, w.sockets[i]? = some client ∧ client.identity = some identity ∧
      m ∈ client.rooms ∧ Entitled gw.dir identity m.seen x := by
  obtain ⟨-, hclient⟩ := List.mem_filter.mp hi
  obtain ⟨client, hget, hclient⟩ := (Option.any_eq_true _ _).mp hclient
  simp only [Bool.and_eq_true, decide_eq_true_eq, List.any_eq_true] at hclient
  obtain ⟨⟨-, hspace⟩, m, hm, hroom⟩ := hclient
  obtain ⟨identity, y, hid, hy, hyroom, hdecides⟩ := hw.rooms i client hget m hm
  cases room_inj (hy.trans hspace) (hyroom.trans hroom)
  exact ⟨client, identity, m, hget, hid, hm, hdecides rfl⟩

theorem entitled_about {identity : Rbac.Identity} {seen : List Readings} {x y : Resource}
    (hok : Truthful gw w (.publish topic event)) (hx : target gw topic event = some x)
    (hentitled : Entitled gw.dir identity seen x) (hy : y ∈ about gw topic event) :
    Entitled gw.dir identity seen y := by
  unfold target at hx
  unfold about at hy
  cases hspace : topic.space with
  | feed =>
    rw [hspace] at hx hy
    cases hitem : named gw event "itemId" with
    | none =>
      simp only [hitem, Option.map_none, Option.toList_none, List.nil_append] at hx hy
      rw [Option.mem_toList.mp hy] at hx
      cases hx
      exact hentitled
    | some itemId =>
      simp only [hitem] at hx hy
      cases hx
      rcases List.mem_append.mp hy with hy | hy
      · rw [List.mem_singleton.mp hy]
        exact hentitled
      · obtain ⟨findingId, hfinding, rfl⟩ := Option.map_eq_some_iff.mp (Option.mem_toList.mp hy)
        have hsame := hok hspace itemId findingId hitem hfinding
        refine ⟨?_, ?_⟩
        · have horg := hentitled.org
          simp only [Directory.orgOf, Directory.investigationOf] at horg ⊢
          rw [hsame]
          exact horg
        · have hread := hentitled.read
          simp only [Directory.reads, Directory.investigationOf] at hread ⊢
          rw [hsame]
          exact hread
  | _ =>
    rw [hspace] at hx hy
    rw [Option.mem_toList.mp hy] at hx
    cases hx
    exact hentitled

/-- **Rooms respect authorisation.** Whatever sockets join and leave and whatever is published,
while stores and grants change: where messages and events are truthful about findings, an event is
sent only to sockets whose join has found them entitled to all that it is about. -/
theorem rooms_respect_authorisation (gw : Gateway) (readings : Readings) (w : GatewayWorld)
    (h : Reaches (GatewayWorld.next gw) (Truthful gw) ⟨readings, [], [], []⟩ w)
    (topic : EventType) (event : EventEnvelope) (hok : Truthful gw w (.publish topic event))
    (x : Resource) (hx : target gw topic event = some x) (i : ℕ) (hi : i ∈ recipients w x) :
    Cleared gw w topic event i := by
  have hsound : Sound gw w :=
    h.invariant ⟨fun _ _ hi => by simp at hi, fun _ hp => absurd hp List.not_mem_nil⟩
      fun _ _ _ hw hl hn => hw.next hl hn
  obtain ⟨client, identity, m, hget, hid, hm, hentitled⟩ := hsound.recipient hi
  exact ⟨client, identity, m, hget, hid, hm, fun y hy => entitled_about hok hx hentitled hy⟩

end Events

/-! ### A finding -/

def ada : Rbac.Identity := { userId := "ada", orgId := "A", orgRole := .viewer, isServerAdmin := false }

/-- Investigation `a` is of org `A`, and `b` of org `B`; the finding belongs to `owner`. -/
def sampleGateway (owner : String) : Gateway where
  authorization := true
  dir :=
    { investigationOrg := fun id => if id = "a" then some "A" else if id = "b" then some "B" else none
      incidentOrg := fun _ => none
      approvalInvestigation := fun _ => none
      itemInvestigation := fun _ => none
      findingInvestigation := fun _ => some owner }
  interpolate := fun _ => ""

def openReadings : Readings := ⟨fun _ => .ok true, fun _ _ => .ok true⟩

def joinLabels : List GatewayLabel :=
  [.connect .feed (some ada), .message 0 (.joinFinding (some (.obj [("findingId", .str "f"),
    ("investigationId", .str "a")]))), .advance 0, .advance 0, .advance 0]

def findingUpdated : EventEnvelope := ⟨"finding.updated", [("findingId", .str "f")]⟩

theorem rooms_respect_authorisation_finding : ∃ w, recipients w (.finding "f") = [0] ∧
    Cleared (sampleGateway "a") w .findingUpdated findingUpdated 0 := by
  obtain ⟨w, hw⟩ : ∃ w, follow (GatewayWorld.next (sampleGateway "a")) ⟨openReadings, [], [], []⟩
      joinLabels = some w := ⟨_, rfl⟩
  have hrecipients : recipients w (.finding "f") = [0] := by
    cases hw
    decide +kernel
  have hok : FollowsOk (GatewayWorld.next (sampleGateway "a")) (Truthful (sampleGateway "a"))
      ⟨openReadings, [], [], []⟩ joinLabels :=
    ⟨trivial, fun _ _ => ⟨fun _ _ _ _ _ => rfl, fun _ _ => ⟨trivial, fun _ _ => ⟨trivial, fun _ _ =>
      ⟨trivial, fun _ _ => trivial⟩⟩⟩⟩⟩
  refine ⟨w, hrecipients, rooms_respect_authorisation (sampleGateway "a") openReadings w
    (.of_follow .init hok hw) .findingUpdated findingUpdated ?_ (.finding "f") rfl 0 ?_⟩
  · intro _ itemId findingId hitem
    cases hitem
  · rw [hrecipients]
    exact List.mem_cons_self

/-- A finding of another org, joined by naming an investigation of one's own. -/
theorem join_finding_crosses_orgs : ¬ ∀ (gw : Gateway) (readings : Readings) (w : GatewayWorld),
    Reaches (GatewayWorld.next gw) (fun _ _ => True) ⟨readings, [], [], []⟩ w →
    ∀ (topic : EventType) (event : EventEnvelope) (x : Resource),
      target gw topic event = some x → ∀ i ∈ recipients w x, Cleared gw w topic event i := by
  intro hall
  obtain ⟨w, hw⟩ : ∃ w, follow (GatewayWorld.next (sampleGateway "b")) ⟨openReadings, [], [], []⟩
      joinLabels = some w := ⟨_, rfl⟩
  have hi : 0 ∈ recipients w (.finding "f") := by
    cases hw
    decide +kernel
  obtain ⟨client, identity, m, hget, hid, -, hentitled⟩ := hall (sampleGateway "b") openReadings w
    (.of_follow .init (followsOk_of_forall (fun _ _ => trivial) _ _) hw) .findingUpdated
    findingUpdated (.finding "f") rfl 0 hi
  have horg := (hentitled (.finding "f") List.mem_cons_self).org
  have hada : identity.orgId = "A" := by
    cases hw
    cases hget
    cases hid
    rfl
  rw [hada] at horg
  revert horg
  decide +kernel

end OpenObs.WebSocket
