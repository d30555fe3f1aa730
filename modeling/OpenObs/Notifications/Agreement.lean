import Mathlib
import OpenObs.Notifications.Consumer

/-!
# Dispatch and routing

Which contact points the two walks over the policy tree come to, in terms of the
policies below the root that are chosen level by level.
-/

namespace OpenObs.Notifications

open OpenObs.Foundation

section Walks

variable {regExp : RegExpTest} {labels : Labels} {t : NotificationPolicyNode}
  {cs : List NotificationPolicyNode}

theorem matchersMatch_eq (ms : List Matcher) : matchersMatch regExp labels ms =
    ms.all fun m => matchesLabel regExp (labels.get m.label) m.operator m.value := by
  induction ms with
  | nil => rfl
  | cons m ms ih =>
    rw [matchersMatch, List.all_cons, ← ih]
    cases hop : m.operator <;> simp only [matchesLabel]
    · by_cases h : labels.get m.label = m.value <;> simp [h]
    · by_cases h : labels.get m.label = m.value <;> simp [h]
    · cases regExp m.value (labels.get m.label) <;> rfl
    · cases regExp m.value (labels.get m.label) <;> rfl

theorem matchersMatch_node (node : NotificationPolicyNode) :
    matchersMatch regExp labels node.value.matchers = nodeMatchesLabels regExp node labels :=
  matchersMatch_eq _

abbrev Matched (regExp : RegExpTest) (labels : Labels) :
    NotificationPolicyNode → NotificationPolicyNode → Prop :=
  Rose.Below (nodeMatchesLabels regExp · labels) continues

abbrev Admitted (regExp : RegExpTest) (labels : Labels) :
    NotificationPolicyNode → NotificationPolicyNode → Prop :=
  Rose.Below (admits regExp labels) continues

/-! ## The walk of the consumer -/

theorem walkChildren_spec :
    ((walkChildren regExp labels cs).2 = true ↔
      Rose.chosen (nodeMatchesLabels regExp · labels) continues cs ≠ []) ∧
    ∀ r, r ∈ (walkChildren regExp labels cs).1 ↔
      ∃ c ∈ Rose.chosen (nodeMatchesLabels regExp · labels) continues cs,
        r = toRoute c ∨ r ∈ walk regExp labels c := by
  induction cs with
  | nil => simp [walkChildren, Rose.chosen]
  | cons c rest ih =>
    rw [walkChildren, Rose.chosen, matchersMatch_node]
    cases nodeMatchesLabels regExp c labels with
    | false => simpa using ih
    | true =>
      cases continues c with
      | false => simp
      | true =>
        simp only [Bool.not_true, Bool.false_eq_true, if_false, if_true, ne_eq,
          List.cons_ne_nil, not_false_eq_true, true_and, List.cons_append]
        intro r
        rw [List.mem_cons, List.mem_append, ih.2 r, List.exists_mem_cons_iff, or_assoc]

theorem mem_walk (r : MatchedRoute) : ∀ t : NotificationPolicyNode,
    r ∈ walk regExp labels t ↔
      (∃ n, Matched regExp labels t n ∧ r = toRoute n) ∨
      ((¬ ∃ n, Matched regExp labels t n) ∧ t.value.isDefault = some true ∧
        t.value.contactPointId ≠ "" ∧ r = toRoute t) := by
  refine Rose.ind fun policy children ih => ?_
  have hnone : (¬ ∃ n, Matched regExp labels (.node policy children) n) ↔
      (walkChildren regExp labels children).2 = false := by
    rw [Rose.exists_below_iff, ← Bool.not_eq_true, walkChildren_spec.1]
    rfl
  have hchildren : r ∈ (walkChildren regExp labels children).1 ↔
      ∃ n, Matched regExp labels (.node policy children) n ∧ r = toRoute n := by
    rw [walkChildren_spec.2]
    constructor
    · rintro ⟨c, hc, rfl | hr⟩
      · exact ⟨c, Rose.below_iff.mpr ⟨c, hc, Or.inl rfl⟩, rfl⟩
      · rcases (ih c (Rose.mem_of_mem_chosen hc).1).mp hr with ⟨n, hn, rfl⟩ | ⟨-, -, -, rfl⟩
        · exact ⟨n, Rose.below_iff.mpr ⟨c, hc, Or.inr hn⟩, rfl⟩
        · exact ⟨c, Rose.below_iff.mpr ⟨c, hc, Or.inl rfl⟩, rfl⟩
    · rintro ⟨n, hn, rfl⟩
      obtain ⟨c, hc, rfl | hbelow⟩ := Rose.below_iff.mp hn
      · exact ⟨c, hc, Or.inl rfl⟩
      · exact ⟨c, hc, Or.inr ((ih c (Rose.mem_of_mem_chosen hc).1).mpr (Or.inl ⟨n, hbelow, rfl⟩))⟩
  rw [walk, List.mem_append, hchildren, hnone]
  refine or_congr Iff.rfl ?_
  simp only [Rose.value]
  split
  · rename_i h
    simp only [Bool.not_eq_true'] at h
    simp [h]
  · rename_i h
    simp only [Bool.not_eq_true'] at h
    refine iff_of_false (by simp) ?_
    rintro ⟨h₁, h₂, h₃, -⟩
    exact h ⟨h₁, h₂, h₃⟩

/-! ## The walk of the preview -/

theorem routeIntoTree_hit : (routeIntoTree regExp labels t).2 = admits regExp labels t := by
  obtain ⟨policy, children⟩ := t
  rw [routeIntoTree]
  cases admits regExp labels (.node policy children) <;> rfl

theorem routeIntoTree_of_not (h : admits regExp labels t = false) :
    (routeIntoTree regExp labels t).1 = [] := by
  obtain ⟨policy, children⟩ := t
  rw [routeIntoTree, h]
  rfl

theorem routeChildren_spec :
    ((routeChildren regExp labels cs).2 = true ↔
      Rose.chosen (admits regExp labels) continues cs ≠ []) ∧
    ∀ e, e ∈ (routeChildren regExp labels cs).1 ↔
      ∃ c ∈ Rose.chosen (admits regExp labels) continues cs, e ∈ (routeIntoTree regExp labels c).1 := by
  induction cs with
  | nil => simp [routeChildren, Rose.chosen]
  | cons c rest ih =>
    rw [routeChildren, Rose.chosen]
    simp only [routeIntoTree_hit]
    cases hc : admits regExp labels c with
    | false => simpa [routeIntoTree_of_not hc] using ih
    | true =>
      cases continues c with
      | false => simp
      | true =>
        simp only [Bool.not_true, Bool.false_eq_true, and_false, if_false, if_true, ne_eq,
          List.cons_ne_nil, not_false_eq_true, Bool.true_or, true_and, List.mem_append,
          List.exists_mem_cons_iff]
        intro e
        rw [ih.2 e]

theorem mem_routeIntoTree (e : Collected) : ∀ t : NotificationPolicyNode,
    e ∈ (routeIntoTree regExp labels t).1 ↔
      admits regExp labels t = true ∧ ∃ n, (n = t ∨ Admitted regExp labels t n) ∧
        (n.value.isDefault = some true ∨ ¬ ∃ c, Admitted regExp labels n c) ∧
        n.value.contactPointId ≠ "" ∧ e = toCollected n := by
  refine Rose.ind fun policy children ih => ?_
  have hnone : (¬ ∃ n, Admitted regExp labels (.node policy children) n) ↔
      (routeChildren regExp labels children).2 = false := by
    rw [Rose.exists_below_iff, ← Bool.not_eq_true, routeChildren_spec.1]
    rfl
  have hchildren : e ∈ (routeChildren regExp labels children).1 ↔
      ∃ n, Admitted regExp labels (.node policy children) n ∧
        (n.value.isDefault = some true ∨ ¬ ∃ c, Admitted regExp labels n c) ∧
        n.value.contactPointId ≠ "" ∧ e = toCollected n := by
    rw [routeChildren_spec.2]
    constructor
    · rintro ⟨c, hc, he⟩
      obtain ⟨-, n, hn, hrest⟩ := (ih c (Rose.mem_of_mem_chosen hc).1).mp he
      exact ⟨n, Rose.below_iff.mpr ⟨c, hc, hn.imp_left Eq.symm⟩, hrest⟩
    · rintro ⟨n, hn, hrest⟩
      obtain ⟨c, hc, hcn⟩ := Rose.below_iff.mp hn
      obtain ⟨hmem, hadmits⟩ := Rose.mem_of_mem_chosen hc
      exact ⟨c, hc, (ih c hmem).mpr ⟨hadmits, n, hcn.imp_left Eq.symm, hrest⟩⟩
  rw [routeIntoTree]
  cases hadmits : admits regExp labels (.node policy children) with
  | false => simp
  | true =>
    simp only [Bool.not_true, Bool.false_eq_true, if_false, List.mem_append, hchildren, true_and]
    constructor
    · rintro (⟨n, hn, hrest⟩ | he)
      · exact ⟨n, Or.inr hn, hrest⟩
      · split at he
        · rename_i h
          refine ⟨_, Or.inl rfl, ?_, h.2, List.mem_singleton.mp he⟩
          rcases h.1 with h | h
          · exact Or.inr (hnone.mpr (by simpa using h))
          · exact Or.inl h
        · cases he
    · rintro ⟨n, rfl | hn, htaken, hcp, he⟩
      · refine Or.inr ?_
        rw [if_pos, he]
        · exact List.mem_singleton_self _
        · refine ⟨?_, hcp⟩
          rcases htaken with h | h
          · exact Or.inr h
          · exact Or.inl (by simpa using hnone.mp h)
      · exact Or.inl ⟨n, hn, htaken, hcp, he⟩

theorem matched_iff_admitted
    (hdefault : ∀ n, Admitted regExp labels t n → n.value.isDefault ≠ some true)
    (n : NotificationPolicyNode) : Matched regExp labels t n ↔ Admitted regExp labels t n := by
  have hplain : ∀ n, n.value.isDefault ≠ some true →
      admits regExp labels n = nodeMatchesLabels regExp n labels := by
    intro n hn
    rw [admits, if_neg hn]
  refine Rose.below_congr (fun c hc => ?_) (fun n hn => ?_) n
  · unfold admits
    split
    · rfl
    · exact hc
  · obtain ⟨p, -, hchild⟩ := Relation.TransGen.tail'_iff.mp hn
    rw [← hplain n (hdefault n hn)]
    exact (Rose.mem_of_mem_chosen hchild).2

end Walks

/-! ## What is tried and what is answered -/

def triedBy (o : NotificationConsumer) (payload : AlertFiredEventPayload) (w : World) :
    List String :=
  (((o.handle payload).run w).2.tried.drop w.tried.length).map (·.contactPointId)

section Sets

variable {o : NotificationConsumer} {payload : AlertFiredEventPayload} {w : World}

theorem triedBy_eq (hnew : ∀ row ∈ w.dispatch.rows, row.key.orgId = payload.orgId →
      row.key.fingerprint ≠ payload.fingerprint) :
    triedBy o payload w = (o.routesOf payload w).map (·.contactPointId) := by
  obtain ⟨t, more, through, log, hrun, -⟩ := o.handle_run payload w
  have hsend : ∀ route ∈ o.routesOf payload w,
      decide (NotificationConsumer.decides payload route w = .sendNow) = true := by
    intro route _
    have hnone : w.dispatch.findByKey (NotificationConsumer.routeKey payload route) = none := by
      refine DispatchTable.findByKey_eq_none_iff.mpr fun row hrow hkey => ?_
      exact hnew row hrow (congrArg DispatchKey.orgId hkey) (congrArg DispatchKey.fingerprint hkey)
    rw [NotificationConsumer.decides, hnone]
    rfl
  rw [triedBy, hrun, List.filter_eq_self.mpr hsend]
  dsimp only
  rw [List.drop_left, List.map_map]
  rfl

theorem mem_triedBy (hnew : ∀ row ∈ w.dispatch.rows, row.key.orgId = payload.orgId →
      row.key.fingerprint ≠ payload.fingerprint) (cp : String) :
    cp ∈ triedBy o payload w ↔ cp ≠ "" ∧
      ((∃ n, Matched o.regExp payload.labels w.getPolicyTree n ∧ n.value.contactPointId = cp) ∨
        (¬ ∃ n, Matched o.regExp payload.labels w.getPolicyTree n) ∧
          w.getPolicyTree.value.isDefault = some true ∧
          w.getPolicyTree.value.contactPointId = cp) := by
  rw [triedBy_eq hnew, NotificationConsumer.routesOf, NotificationConsumer.mem_uniqueRoutes]
  refine and_congr_right fun hne => ?_
  simp only [List.not_mem_nil, not_false_eq_true, true_and, collectMatchingRoutes]
  constructor
  · rintro ⟨r, hr, rfl⟩
    rcases (mem_walk r _).mp hr with ⟨n, hn, rfl⟩ | ⟨hnone, hdefault, -, rfl⟩
    · exact Or.inl ⟨n, hn, rfl⟩
    · exact Or.inr ⟨hnone, hdefault, rfl⟩
  · rintro (⟨n, hn, rfl⟩ | ⟨hnone, hdefault, rfl⟩)
    · exact ⟨toRoute n, (mem_walk _ _).mpr (Or.inl ⟨n, hn, rfl⟩), rfl⟩
    · exact ⟨_, (mem_walk _ _).mpr (Or.inr ⟨hnone, hdefault, hne, rfl⟩), rfl⟩

def Muted (calendar : Calendar) (timings : List MuteTiming) (now : ℤ)
    (n : NotificationPolicyNode) : Prop :=
  isMutedByTimings calendar (n.value.muteTimingIds.getD []) timings now = true

theorem mem_routeAlert {regExp : RegExpTest} {calendar : Calendar} {timings : List MuteTiming}
    {labels : Labels} {now : ℤ} {tree : NotificationPolicyNode} (cp : String) :
    (∃ r ∈ routeAlert regExp calendar tree timings labels now,
      r.contactPointId = cp ∧ r.isMuted = false) ↔
    cp ≠ "" ∧ admits regExp labels tree = true ∧
      ∃ n, (n = tree ∨ Admitted regExp labels tree n) ∧
        (n.value.isDefault = some true ∨ ¬ ∃ c, Admitted regExp labels n c) ∧
        n.value.contactPointId = cp ∧ ¬ Muted calendar timings now n := by
  constructor
  · rintro ⟨r, hr, rfl, hmuted⟩
    obtain ⟨e, he, rfl⟩ := List.mem_map.mp hr
    obtain ⟨hadmits, n, hn, htaken, hne, rfl⟩ := (mem_routeIntoTree e tree).mp he
    exact ⟨hne, hadmits, n, hn, htaken, rfl, Bool.eq_false_iff.mp hmuted⟩
  · rintro ⟨hne, hadmits, n, hn, htaken, rfl, hmuted⟩
    refine ⟨_, List.mem_map.mpr ⟨toCollected n, ?_, rfl⟩, rfl, Bool.eq_false_iff.mpr hmuted⟩
    exact (mem_routeIntoTree _ tree).mpr ⟨hadmits, n, hn, htaken, hne, rfl⟩

/-- **Dispatch and routing.** An event without a history is tried at the contact points of all
policies below the root that match, or at the root's where none does; the preview answers
with the unmuted contact points of the root and of the policies with nothing below them
that matches. They agree where these are the same policies and none is muted. -/
theorem dispatch_and_routing (o : NotificationConsumer) (calendar : Calendar)
    (timings : List MuteTiming) (payload : AlertFiredEventPayload) (now : ℤ) (w : World)
    (hnew : ∀ row ∈ w.dispatch.rows, row.key.orgId = payload.orgId →
      row.key.fingerprint ≠ payload.fingerprint) :
    let tree := w.getPolicyTree
    let matched := Matched o.regExp payload.labels
    let admitted := Admitted o.regExp payload.labels
    let unmuted := fun cp => ∃ r ∈ routeAlert o.regExp calendar tree timings payload.labels now,
      r.contactPointId = cp ∧ r.isMuted = false
    (∀ cp, cp ∈ triedBy o payload w ↔ cp ≠ "" ∧
      ((∃ n, matched tree n ∧ n.value.contactPointId = cp) ∨
        (¬ ∃ n, matched tree n) ∧ tree.value.isDefault = some true ∧
          tree.value.contactPointId = cp)) ∧
    (∀ cp, unmuted cp ↔ cp ≠ "" ∧ admits o.regExp payload.labels tree = true ∧
      ∃ n, (n = tree ∨ admitted tree n) ∧
        (n.value.isDefault = some true ∨ ¬ ∃ c, admitted n c) ∧
        n.value.contactPointId = cp ∧ ¬ Muted calendar timings now n) ∧
    (tree.value.isDefault = some true → (∀ n, admitted tree n → n.value.isDefault ≠ some true) →
      (∀ n, n = tree ∨ matched tree n → ¬ Muted calendar timings now n) →
      (∀ n, matched tree n → n.value.contactPointId ≠ "" → ¬ ∃ c, matched n c) →
      (tree.value.contactPointId = "" ∨ ¬ ∃ n, matched tree n) →
      ∀ cp, cp ∈ triedBy o payload w ↔ unmuted cp) := by
  intro tree matched admitted unmuted
  refine ⟨mem_triedBy hnew, mem_routeAlert, ?_⟩
  intro hroot hdefault hmuted hleaf hempty cp
  have hsame := matched_iff_admitted hdefault
  have hbelow : ∀ n, admitted tree n → ∀ c, matched n c ↔ admitted n c := by
    intro n hn
    exact matched_iff_admitted fun c hc => hdefault c (hn.trans hc)
  have hadmits : admits o.regExp payload.labels tree = true := by
    rw [admits, if_pos hroot]
  rw [mem_triedBy hnew, show unmuted cp ↔ _ from mem_routeAlert cp]
  refine and_congr_right fun hne => ?_
  constructor
  · rintro (⟨n, hn, rfl⟩ | ⟨hnone, -, rfl⟩)
    · have hn' := (hsame n).mp hn
      refine ⟨hadmits, n, Or.inr hn', Or.inr ?_, rfl, hmuted n (Or.inr hn)⟩
      rintro ⟨c, hc⟩
      exact hleaf n hn hne ⟨c, (hbelow n hn' c).mpr hc⟩
    · exact ⟨hadmits, tree, Or.inl rfl, Or.inl hroot, rfl, hmuted tree (Or.inl rfl)⟩
  · rintro ⟨-, n, rfl | hn, -, rfl, -⟩
    · exact Or.inr ⟨hempty.resolve_left hne, hroot, rfl⟩
    · exact Or.inl ⟨n, (hsame n).mpr hn, rfl⟩

end Sets

/-! ## A team and its on-call -/

def plainConsumer : NotificationConsumer := { regExp := fun p s => p = s, senders := senderFor }

/-- An alert of the team `web`. -/
def webAlert : AlertFiredEventPayload where
  ruleId := "rule_1"
  ruleName := "Error rate"
  orgId := "org_main"
  severity := "high"
  value := 3
  threshold := 2
  operator := ">"
  labels := [("team", "web")]
  firedAt := "2026-05-03T00:00:00Z"
  fingerprint := "fp_1"

/-- The policy of the team `web`, with the given children. -/
def webPolicy (children : List NotificationPolicyNode) : NotificationPolicyNode :=
  .node { id := "p_web", matchers := [⟨"team", .eq, "web"⟩], contactPointId := "cp_web" } children

def rootPolicy (contactPointId : String) (children : List NotificationPolicyNode) :
    NotificationPolicyNode :=
  .node { id := "root", contactPointId := contactPointId, isDefault := some true } children

def nestedWorld : World :=
  { policyTree := some (rootPolicy "cp_root"
      [webPolicy [.node { id := "p_oncall", contactPointId := "cp_oncall" } []]]) }

/-- The on-call of the team `web` is on Slack. -/
def slackWorld : World :=
  { clock := 50
    policyTree := some (rootPolicy "" [webPolicy []])
    contactPoints := [⟨"cp_web", "Web", [⟨"int_1", .slack, "Slack", [], none⟩]⟩] }

def noCalendar : Calendar := fun _ _ => ⟨0, 1, 1, 2026, 0, 0⟩

/-- The team itself is notified along with its on-call, but the preview leaves it out. -/
theorem nested_policies_disagree :
    ¬ ∀ (o : NotificationConsumer) (calendar : Calendar) (timings : List MuteTiming)
        (payload : AlertFiredEventPayload) (now : ℤ) (w : World),
      (∀ row ∈ w.dispatch.rows, row.key.orgId = payload.orgId →
        row.key.fingerprint ≠ payload.fingerprint) →
      ∀ cp, cp ∈ triedBy o payload w ↔
        ∃ r ∈ routeAlert o.regExp calendar w.getPolicyTree timings payload.labels now,
          r.contactPointId = cp ∧ r.isMuted = false := by
  intro hagree
  have htried : "cp_web" ∈ triedBy plainConsumer webAlert nestedWorld := by decide +kernel
  obtain ⟨r, hr, hcp, -⟩ := (hagree plainConsumer noCalendar [] webAlert 0 nestedWorld
    (fun row hrow => (by cases hrow)) "cp_web").mp htried
  have hanswers : (routeAlert plainConsumer.regExp noCalendar nestedWorld.getPolicyTree []
      webAlert.labels 0).map (·.contactPointId) = ["cp_oncall", "cp_root"] := by decide +kernel
  have hmem := List.mem_map_of_mem (f := (·.contactPointId)) hr
  rw [hanswers, hcp] at hmem
  exact absurd hmem (by decide)

/-- A team without children under a root without a contact point is where both agree. -/
theorem dispatch_and_routing_flat :
    triedBy plainConsumer webAlert { policyTree := some (rootPolicy "" [webPolicy []]) } =
        ["cp_web"] ∧
      ∃ r ∈ routeAlert plainConsumer.regExp noCalendar (rootPolicy "" [webPolicy []]) []
        webAlert.labels 0, r.contactPointId = "cp_web" ∧ r.isMuted = false := by
  have htried : triedBy plainConsumer webAlert
      { policyTree := some (rootPolicy "" [webPolicy []]) } = ["cp_web"] := by decide +kernel
  have hlaw := (dispatch_and_routing plainConsumer noCalendar [] webAlert 0
    { policyTree := some (rootPolicy "" [webPolicy []]) } fun row hrow => (by cases hrow)).2.1
  have hbelow : Admitted plainConsumer.regExp webAlert.labels (rootPolicy "" [webPolicy []])
      (webPolicy []) := by
    refine Rose.below_iff.mpr ⟨webPolicy [], ?_, Or.inl rfl⟩
    exact List.mem_of_mem_head? (by rfl)
  refine ⟨htried, (hlaw "cp_web").mpr ⟨by decide, rfl, webPolicy [], Or.inr hbelow, Or.inr ?_, rfl,
    by simp [Muted, isMutedByTimings, webPolicy, Rose.value]⟩⟩
  rw [Rose.exists_below_iff]
  exact fun hne => hne rfl

end OpenObs.Notifications
