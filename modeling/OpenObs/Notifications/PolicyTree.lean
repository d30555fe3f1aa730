import OpenObs.Notifications.Agreement

/-!
# Reading a policy tree

What `routeIntoTree` of `repository/notification-routing.ts` says of the nodes of a tree.
-/

namespace OpenObs.Notifications

open OpenObs.Foundation

/-! ## Nodes by their path -/

def nodeAt : List ℕ → NotificationPolicyNode → Option NotificationPolicyNode
  | [], node => some node
  | i :: path, .node _ children => children[i]?.bind (nodeAt path)

def nodeIn (children : List NotificationPolicyNode) : List ℕ → Option NotificationPolicyNode
  | [] => none
  | i :: path => children[i]?.bind (nodeAt path)

def bump : List ℕ → List ℕ
  | [] => []
  | i :: path => (i + 1) :: path

section Walk

variable (regExp : RegExpTest) (labels : Labels)

mutual
/-- The walk of `routeIntoTree`, with the path of each collected node. -/
def collectedPaths : NotificationPolicyNode → List (List ℕ) × Bool
  | .node policy children =>
    if !admits regExp labels (.node policy children) then ([], false)
    else
      let (collected, childMatched) := collectedPathsIn children
      (collected ++
        if (!childMatched ∨ policy.isDefault = some true) ∧ policy.contactPointId ≠ "" then
          [[]] else [], true)
def collectedPathsIn : List NotificationPolicyNode → List (List ℕ) × Bool
  | [] => ([], false)
  | child :: rest =>
    let (collected, hit) := collectedPaths child
    if hit ∧ !continues child then (collected.map (0 :: ·), true)
    else
      let (more, childMatched) := collectedPathsIn rest
      (collected.map (0 :: ·) ++ more.map bump, hit || childMatched)
end

/-- The children the loop of `routeIntoTree` comes to. -/
def visitedChildren : List NotificationPolicyNode → List NotificationPolicyNode
  | [] => []
  | child :: rest =>
    if (routeIntoTree regExp labels child).2 ∧ !continues child then [child]
    else child :: visitedChildren rest

/-- Changes of a tree that a reader expects to have no effect: a child that does not match is
added somewhere, or something changes behind a matching child that ends the loop. -/
inductive Idle : NotificationPolicyNode → NotificationPolicyNode → Prop
  | added (policy : Policy) (before after : List NotificationPolicyNode)
      (child : NotificationPolicyNode) (h : admits regExp labels child = false) :
      Idle (.node policy (before ++ after)) (.node policy (before ++ child :: after))
  | behind (policy : Policy) (before after after' : List NotificationPolicyNode)
      (child : NotificationPolicyNode) (h : admits regExp labels child = true)
      (hstop : continues child = false) :
      Idle (.node policy (before ++ child :: after)) (.node policy (before ++ child :: after'))
  | inside (policy : Policy) (before after : List NotificationPolicyNode)
      (child child' : NotificationPolicyNode) (h : Idle child child') :
      Idle (.node policy (before ++ child :: after)) (.node policy (before ++ child' :: after))

/-! ## The laws of the walk -/

def OnlyRootDefault (root : NotificationPolicyNode) : Prop :=
  root.value.isDefault = some true ∧
    ∀ path n, path ≠ [] → nodeAt path root = some n → n.value.isDefault ≠ some true

structure RoutesSoundly (root : NotificationPolicyNode) : Prop where
  /-- The paths name what is collected. -/
  named : (routeIntoTree regExp labels root).1.map some =
    (collectedPaths regExp labels root).1.map fun path => (nodeAt path root).map toCollected
  /-- A collected node and everything above it match, but for the default. -/
  sound : ∀ path ∈ (collectedPaths regExp labels root).1, ∀ above, above <+: path →
    ∃ n, nodeAt above root = some n ∧
      (n.value.isDefault = some true ∨ nodeMatchesLabels regExp n labels = true)
  root_once : (collectedPaths regExp labels root).1.count [] =
    if root.value.contactPointId ≠ "" then 1 else 0
  exclusive : ∀ path ∈ (collectedPaths regExp labels root).1,
    ∀ below ∈ (collectedPaths regExp labels root).1, path ≠ [] → path <+: below → path = below
  /-- The loop over the children of any node collects from those it visits, the first ones; one
  that matches and does not let it go on is the last of them. -/
  last_stops : ∀ policy children, Rose.Sub root (.node policy children) →
    visitedChildren regExp labels children <+: children ∧
    (routeChildren regExp labels children).1 =
      (visitedChildren regExp labels children).flatMap
        (fun child => (routeIntoTree regExp labels child).1) ∧
    ∀ before child after, visitedChildren regExp labels children = before ++ child :: after →
      admits regExp labels child = true → continues child = false → after = []
  idle : ∀ root', Idle regExp labels root root' →
    (routeIntoTree regExp labels root').1 = (routeIntoTree regExp labels root).1

end Walk

section Laws

variable {regExp : RegExpTest} {labels : Labels} {t t' : NotificationPolicyNode}
  {cs : List NotificationPolicyNode} {path : List ℕ}

/-! ### Paths -/

@[simp] theorem nodeIn_bump (c : NotificationPolicyNode) (path : List ℕ) :
    nodeIn (c :: cs) (bump path) = nodeIn cs path := by
  cases path <;> rfl

@[simp] theorem nodeIn_zero (c : NotificationPolicyNode) (path : List ℕ) :
    nodeIn (c :: cs) (0 :: path) = nodeAt path c := rfl

theorem collectedPaths_hit : (collectedPaths regExp labels t).2 = admits regExp labels t := by
  obtain ⟨policy, children⟩ := t
  rw [collectedPaths]
  cases admits regExp labels (.node policy children) <;> rfl

theorem collectedPaths_of_not (h : admits regExp labels t = false) :
    (collectedPaths regExp labels t).1 = [] := by
  obtain ⟨policy, children⟩ := t
  rw [collectedPaths, h]
  rfl

theorem mem_collectedPathsIn : path ∈ (collectedPathsIn regExp labels cs).1 →
    ∃ i rest c, path = i :: rest ∧ cs[i]? = some c ∧
      rest ∈ (collectedPaths regExp labels c).1 := by
  induction cs generalizing path with
  | nil => exact fun h => absurd h List.not_mem_nil
  | cons c cs ih =>
    have own : path ∈ (collectedPaths regExp labels c).1.map (0 :: ·) →
        ∃ i rest d, path = i :: rest ∧ (c :: cs)[i]? = some d ∧
          rest ∈ (collectedPaths regExp labels d).1 := by
      intro h
      obtain ⟨rest, hrest, rfl⟩ := List.mem_map.mp h
      exact ⟨0, rest, c, rfl, rfl, hrest⟩
    intro h
    rw [collectedPathsIn] at h
    dsimp only at h
    split at h
    · exact own h
    · rcases List.mem_append.mp h with h | h
      · exact own h
      · obtain ⟨behind, hbehind, rfl⟩ := List.mem_map.mp h
        obtain ⟨i, rest, d, rfl, hd, hrest⟩ := ih hbehind
        exact ⟨i + 1, rest, d, rfl, hd, hrest⟩

theorem collectedPathsIn_of_not (h : (collectedPathsIn regExp labels cs).2 = false) :
    (collectedPathsIn regExp labels cs).1 = [] := by
  induction cs with
  | nil => rfl
  | cons c cs ih =>
    rw [collectedPathsIn] at h ⊢
    dsimp only at h ⊢
    split at h
    · cases h
    next hgo =>
      rw [Bool.or_eq_false_iff, collectedPaths_hit] at h
      rw [if_neg hgo, collectedPaths_of_not h.1, ih h.2]
      rfl

theorem collectedPathsIn_hit :
    (collectedPathsIn regExp labels cs).2 = (routeChildren regExp labels cs).2 := by
  induction cs with
  | nil => rfl
  | cons c cs ih =>
    rw [collectedPathsIn, routeChildren]
    simp only [collectedPaths_hit, routeIntoTree_hit, ih]
    split <;> rfl

theorem collected_named : ∀ t : NotificationPolicyNode,
    (routeIntoTree regExp labels t).1.map some =
      (collectedPaths regExp labels t).1.map fun path => (nodeAt path t).map toCollected := by
  refine Rose.ind fun policy children ih => ?_
  -- the loop over the children, each of which is named right
  have hloop : ∀ cs, (∀ c ∈ cs, c ∈ children) → (routeChildren regExp labels cs).1.map some =
      (collectedPathsIn regExp labels cs).1.map
        fun path => (nodeIn cs path).map toCollected := by
    intro cs
    induction cs with
    | nil => exact fun _ => rfl
    | cons c cs ihcs =>
      intro hcs
      have hc := ih c (hcs c List.mem_cons_self)
      have hrest := ihcs fun d hd => hcs d (List.mem_cons_of_mem _ hd)
      rw [routeChildren, collectedPathsIn]
      simp only [collectedPaths_hit, routeIntoTree_hit]
      split
      · simp [hc, Function.comp_def]
      · simp [hc, hrest, Function.comp_def]
  have hchildren := hloop children fun c hc => hc
  have hsame : (collectedPathsIn regExp labels children).1.map
      (fun path => (nodeAt path (.node policy children)).map toCollected) =
      (collectedPathsIn regExp labels children).1.map
        fun path => (nodeIn children path).map toCollected := by
    refine List.map_congr_left fun path hpath => ?_
    obtain ⟨i, rest, c, rfl, -, -⟩ := mem_collectedPathsIn hpath
    rfl
  rw [routeIntoTree, collectedPaths]
  cases admits regExp labels (.node policy children) with
  | false => rfl
  | true =>
    simp only [Bool.not_true, Bool.false_eq_true, if_false, collectedPathsIn_hit,
      List.map_append, hchildren, hsame]
    congr 1
    split <;> rfl

theorem mem_collectedPaths {policy : Policy}
    (h : path ∈ (collectedPaths regExp labels (.node policy cs)).1) :
    admits regExp labels (.node policy cs) = true ∧
    (path ∈ (collectedPathsIn regExp labels cs).1 ∨
      path = [] ∧ ((collectedPathsIn regExp labels cs).2 = false ∨ policy.isDefault = some true)) := by
  rw [collectedPaths] at h
  split at h
  · exact absurd h List.not_mem_nil
  next hadmits =>
    refine ⟨by simpa using hadmits, ?_⟩
    rcases List.mem_append.mp h with h | h
    · exact Or.inl h
    · split at h
      next hown => exact Or.inr ⟨List.mem_singleton.mp h, by simpa using hown.1⟩
      · exact absurd h List.not_mem_nil

theorem collected_sound : ∀ t : NotificationPolicyNode,
    ∀ path ∈ (collectedPaths regExp labels t).1, ∀ above, above <+: path →
      ∃ n, nodeAt above t = some n ∧ admits regExp labels n = true := by
  refine Rose.ind fun policy children ih => ?_
  intro path hpath above habove
  obtain ⟨hadmits, hwhere⟩ := mem_collectedPaths hpath
  cases above with
  | nil => exact ⟨_, rfl, hadmits⟩
  | cons i above =>
    rcases hwhere with hchild | ⟨rfl, -⟩
    · obtain ⟨j, rest, c, rfl, hc, hrest⟩ := mem_collectedPathsIn hchild
      obtain ⟨rfl, hprefix⟩ := List.cons_prefix_cons.mp habove
      obtain ⟨n, hn, hmatch⟩ := ih c (List.mem_of_getElem? hc) rest hrest above hprefix
      exact ⟨n, by rw [nodeAt, hc]; exact hn, hmatch⟩
    · exact absurd (List.prefix_nil.mp habove) (List.cons_ne_nil i above)

theorem collected_root {policy : Policy} (hdefault : policy.isDefault = some true) :
    (collectedPaths regExp labels (.node policy cs)).1.count [] =
      if policy.contactPointId ≠ "" then 1 else 0 := by
  have hadmits : admits regExp labels (.node policy cs) = true := if_pos hdefault
  have hbelow : (collectedPathsIn regExp labels cs).1.count [] = 0 := by
    apply List.count_eq_zero.mpr
    intro h
    obtain ⟨i, rest, c, hcons, -⟩ := mem_collectedPathsIn h
    cases hcons
  rw [collectedPaths, hadmits]
  simp only [Bool.not_true, Bool.false_eq_true, if_false, List.count_append, hbelow, Nat.zero_add,
    hdefault, or_true, true_and]
  split <;> rfl

theorem collected_exclusive : ∀ t : NotificationPolicyNode,
    (∀ path n, path ≠ [] → nodeAt path t = some n → n.value.isDefault ≠ some true) →
    ∀ path ∈ (collectedPaths regExp labels t).1, ∀ below ∈ (collectedPaths regExp labels t).1,
      path ≠ [] → path <+: below → path = below := by
  refine Rose.ind fun policy children ih => ?_
  intro hplain path hpath below hbelow hne hprefix
  obtain ⟨-, hpath | ⟨rfl, -⟩⟩ := mem_collectedPaths hpath
  · obtain ⟨i, rest, c, rfl, hc, hrest⟩ := mem_collectedPathsIn hpath
    obtain ⟨-, hbelow | ⟨rfl, -⟩⟩ := mem_collectedPaths hbelow
    · obtain ⟨j, rest', c', rfl, hc', hrest'⟩ := mem_collectedPathsIn hbelow
      obtain ⟨rfl, hahead⟩ := List.cons_prefix_cons.mp hprefix
      obtain rfl : c = c' := Option.some.inj (hc.symm.trans hc')
      have hplain' : ∀ path n, path ≠ [] → nodeAt path c = some n →
          n.value.isDefault ≠ some true := fun path n _ hn =>
        hplain (i :: path) n (List.cons_ne_nil _ _) (by rw [nodeAt, hc]; exact hn)
      by_cases hrest0 : rest = []
      · -- the child is collected itself, so nothing below it is
        subst hrest0
        have hchild := hplain [i] c (List.cons_ne_nil _ _) (by rw [nodeAt, hc]; rfl)
        obtain ⟨policy', children'⟩ := c
        obtain ⟨-, hin | ⟨-, hnone | hdefault⟩⟩ := mem_collectedPaths hrest
        · obtain ⟨_, _, _, hcons, -⟩ := mem_collectedPathsIn hin
          cases hcons
        · obtain ⟨-, hin' | ⟨rfl, -⟩⟩ := mem_collectedPaths hrest'
          · rw [collectedPathsIn_of_not hnone] at hin'
            exact absurd hin' List.not_mem_nil
          · rfl
        · exact absurd hdefault hchild
      · rw [ih c (List.mem_of_getElem? hc) hplain' rest hrest rest' hrest' hrest0 hahead]
    · exact absurd (List.prefix_nil.mp hprefix) (List.cons_ne_nil _ _)
  · exact absurd rfl hne

/-! ### The loop over the children -/

theorem visitedChildren_isPrefix : visitedChildren regExp labels cs <+: cs := by
  induction cs with
  | nil => exact List.prefix_rfl
  | cons c cs ih =>
    rw [visitedChildren]
    split
    · exact List.prefix_append [c] cs
    · exact List.cons_prefix_cons.mpr ⟨rfl, ih⟩

theorem routeChildren_visited : (routeChildren regExp labels cs).1 =
    (visitedChildren regExp labels cs).flatMap fun c => (routeIntoTree regExp labels c).1 := by
  induction cs with
  | nil => rfl
  | cons c cs ih =>
    rw [routeChildren, visitedChildren]
    dsimp only
    split
    · simp
    · rw [List.flatMap_cons, ih]

theorem visitedChildren_stop {before after : List NotificationPolicyNode}
    {c : NotificationPolicyNode}
    (h : visitedChildren regExp labels cs = before ++ c :: after)
    (hmatch : admits regExp labels c = true) (hstop : continues c = false) : after = [] := by
  induction cs generalizing before with
  | nil => simp [visitedChildren] at h
  | cons d cs ih =>
    rw [visitedChildren] at h
    split at h
    · cases before with
      | nil => exact (List.cons.inj h).2.symm
      | cons b before => simp at h
    next hgo =>
      cases before with
      | nil =>
        obtain ⟨rfl, -⟩ := List.cons.inj h
        exact absurd ⟨routeIntoTree_hit.trans hmatch, by simp [hstop]⟩ hgo
      | cons b before => exact ih (List.cons.inj h).2

/-! ### Idle changes -/

theorem routeChildren_congr {c c' : NotificationPolicyNode}
    (hroute : routeIntoTree regExp labels c = routeIntoTree regExp labels c')
    (hcont : continues c = continues c') (before after : List NotificationPolicyNode) :
    routeChildren regExp labels (before ++ c :: after) =
      routeChildren regExp labels (before ++ c' :: after) := by
  induction before with
  | nil => simp only [List.nil_append, routeChildren, hroute, hcont]
  | cons b before ih => simp only [List.cons_append, routeChildren, ih]

theorem routeChildren_added {c : NotificationPolicyNode} (h : admits regExp labels c = false)
    (before after : List NotificationPolicyNode) :
    routeChildren regExp labels (before ++ c :: after) =
      routeChildren regExp labels (before ++ after) := by
  induction before with
  | nil =>
    rw [List.nil_append, List.nil_append, routeChildren]
    simp [routeIntoTree_hit, routeIntoTree_of_not h, h]
  | cons b before ih => simp only [List.cons_append, routeChildren, ih]

theorem routeChildren_behind {c : NotificationPolicyNode} (h : admits regExp labels c = true)
    (hstop : continues c = false) (before after after' : List NotificationPolicyNode) :
    routeChildren regExp labels (before ++ c :: after) =
      routeChildren regExp labels (before ++ c :: after') := by
  induction before with
  | nil => simp [routeChildren, routeIntoTree_hit, h, hstop]
  | cons b before ih => simp only [List.cons_append, routeChildren, ih]

theorem routeIntoTree_congr {policy : Policy} {cs cs' : List NotificationPolicyNode}
    (h : routeChildren regExp labels cs = routeChildren regExp labels cs') :
    routeIntoTree regExp labels (.node policy cs) =
      routeIntoTree regExp labels (.node policy cs') := by
  rw [routeIntoTree, routeIntoTree, h]
  rfl

theorem Idle.same (h : Idle regExp labels t t') :
    routeIntoTree regExp labels t = routeIntoTree regExp labels t' ∧
      t.value = t'.value := by
  induction h with
  | added policy before after child hno =>
    exact ⟨routeIntoTree_congr (routeChildren_added hno before after).symm, rfl⟩
  | behind policy before after after' child hmatch hstop =>
    exact ⟨routeIntoTree_congr (routeChildren_behind hmatch hstop before after after'), rfl⟩
  | inside policy before after child child' _ ih =>
    have hcont : continues child = continues child' := by rw [continues, continues, ih.2]
    exact ⟨routeIntoTree_congr (routeChildren_congr ih.1 hcont before after), rfl⟩

end Laws

/-- **Routing is sound and exclusive** for every tree in which only the root is default. -/
theorem routes_soundly (regExp : RegExpTest) (labels : Labels) (root : NotificationPolicyNode)
    (h : OnlyRootDefault root) : RoutesSoundly regExp labels root where
  named := collected_named root
  sound path hpath above habove := by
    obtain ⟨n, hn, hmatch⟩ := collected_sound root path hpath above habove
    refine ⟨n, hn, ?_⟩
    unfold admits at hmatch
    split at hmatch
    next hdefault => exact Or.inl hdefault
    · exact Or.inr hmatch
  root_once := by
    obtain ⟨policy, children⟩ := root
    exact collected_root h.1
  exclusive := collected_exclusive root h.2
  last_stops _ _ _ :=
    ⟨visitedChildren_isPrefix, routeChildren_visited, fun _ _ _ hvisited hmatch hstop =>
      visitedChildren_stop hvisited hmatch hstop⟩
  idle _ hidle := by rw [hidle.same.1]

def sampleTree : NotificationPolicyNode :=
  .node { id := "root", contactPointId := "ops", isDefault := some true }
    [.node { id := "db", matchers := [⟨"team", .eq, "db"⟩], contactPointId := "db",
             continueMatching := some true }
      [.node { id := "page", matchers := [⟨"severity", .eq, "page"⟩], contactPointId := "dba" } []],
     .node { id := "all", contactPointId := "archive" } []]

theorem routes_soundly_sample :
    RoutesSoundly (fun _ _ => false) [("team", "db"), ("severity", "page")] sampleTree :=
  routes_soundly _ _ sampleTree ⟨rfl, fun path n hne hn => by
    match path with
    | [] => exact absurd rfl hne
    | [0] | [1] | [0, 0] =>
      cases hn
      decide
    | 0 :: 0 :: _ :: _ | 0 :: (_ + 1) :: _ | 1 :: _ :: _ | (_ + 2) :: _ => cases hn⟩

end OpenObs.Notifications
