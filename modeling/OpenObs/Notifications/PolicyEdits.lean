import Mathlib.Data.List.Permutation
import OpenObs.Foundation.Serialize
import OpenObs.Notifications.Types

/-!
# Edits of the policy tree

`repository/sqlite/notification.ts`. The tree is one JSON value in one row. An edit loads
it, changes its copy, and stores the copy after two more `await`s.
-/

namespace OpenObs.Notifications

open OpenObs.Foundation

/-! ## The repository -/

/-- The tree of the row `root`. -/
abbrev PolicyTreeRow := Option NotificationPolicyNode

/-- What a call draws: a fresh id, and the clock when it makes a default tree, when it edits,
and when it stores. -/
structure Drawn where
  id : String
  loadedAt : ℤ
  now : ℤ
  storedAt : ℤ

structure PolicyPatch where
  matchers : Option (List Matcher) := none
  contactPointId : Option String := none
  groupBy : Option (Option (List String)) := none
  groupWaitSec : Option (Option ℚ) := none
  groupIntervalSec : Option (Option ℚ) := none
  repeatIntervalSec : Option (Option ℚ) := none
  continueMatching : Option (Option Bool) := none
  muteTimingIds : Option (Option (List String)) := none
  isDefault : Option (Option Bool) := none

/-- `Object.assign(node, { ...patch, updatedAt: now })`. -/
def PolicyPatch.assign (patch : PolicyPatch) (now : ℤ) (p : Policy) : Policy where
  id := p.id
  matchers := patch.matchers.getD p.matchers
  contactPointId := patch.contactPointId.getD p.contactPointId
  groupBy := patch.groupBy.getD p.groupBy
  groupWaitSec := patch.groupWaitSec.getD p.groupWaitSec
  groupIntervalSec := patch.groupIntervalSec.getD p.groupIntervalSec
  repeatIntervalSec := patch.repeatIntervalSec.getD p.repeatIntervalSec
  continueMatching := patch.continueMatching.getD p.continueMatching
  muteTimingIds := patch.muteTimingIds.getD p.muteTimingIds
  isDefault := patch.isDefault.getD p.isDefault
  createdAt := p.createdAt
  updatedAt := now

def editValue (f : Policy → Policy) (n : NotificationPolicyNode) : NotificationPolicyNode :=
  .node (f n.value) n.children

/-- `children.push(child)`. -/
def pushChild (child n : NotificationPolicyNode) : NotificationPolicyNode :=
  .node n.value (n.children ++ [child])

def findNodeById (tree : NotificationPolicyNode) (id : String) : Option NotificationPolicyNode :=
  tree.findNode (·.id = id)

def removeNodeById (tree : NotificationPolicyNode) (id : String) : Option NotificationPolicyNode :=
  tree.removeNode (·.id = id)

namespace NotificationRepository

def getPolicyTree (now : ℤ) : Prog PolicyTreeRow NotificationPolicyNode :=
  Prog.read (·.getD (defaultPolicyTree now))

/-- `UPDATE … WHERE id = 'root'`. -/
def storeTree (tree : NotificationPolicyNode) : Prog PolicyTreeRow Unit :=
  Prog.write (·.map fun _ => tree)

/-- `INSERT`, which fails where the row is there by now. -/
def insertTree (tree : NotificationPolicyNode) : Prog PolicyTreeRow Unit :=
  Prog.attempt fun row =>
    match row with
    | none => (.ok (), some tree)
    | some _ => (.error "UNIQUE constraint failed: notification_policy_tree.id", row)

def stamped (now : ℤ) (tree : NotificationPolicyNode) : NotificationPolicyNode :=
  editValue (fun root => { root with updatedAt := now }) tree

def updatePolicyTree (now : ℤ) (tree : NotificationPolicyNode) : Prog PolicyTreeRow Unit := do
  let existing ← Prog.read Option.isSome
  if existing then storeTree (stamped now tree) else insertTree (stamped now tree)

def addChildPolicy (drawn : Drawn) (parentId : String) (policy : Policy) :
    Prog PolicyTreeRow (Option NotificationPolicyNode) := do
  let tree ← getPolicyTree drawn.loadedAt
  let newNode : NotificationPolicyNode :=
    .node { policy with id := drawn.id, createdAt := drawn.now, updatedAt := drawn.now } []
  match findNodeById tree parentId with
  | none => pure none
  | some _ => do
      updatePolicyTree drawn.storedAt (tree.editNode (·.id = parentId) (pushChild newNode))
      pure (some newNode)

def updatePolicy (drawn : Drawn) (id : String) (patch : PolicyPatch) :
    Prog PolicyTreeRow (Option NotificationPolicyNode) := do
  let tree ← getPolicyTree drawn.loadedAt
  match findNodeById tree id with
  | none => pure none
  | some node => do
      updatePolicyTree drawn.storedAt
        (tree.editNode (·.id = id) (editValue (patch.assign drawn.now)))
      pure (some (editValue (patch.assign drawn.now) node))

def deletePolicy (drawn : Drawn) (id : String) : Prog PolicyTreeRow Bool :=
  if id = "root" then pure false
  else do
    let tree ← getPolicyTree drawn.loadedAt
    match removeNodeById tree id with
    | none => pure false
    | some tree => do
        updatePolicyTree drawn.storedAt tree
        pure true

end NotificationRepository

/-! ## Calls -/

inductive PolicyEdit : Type where
  | addChildPolicy (drawn : Drawn) (parentId : String) (policy : Policy)
  | updatePolicy (drawn : Drawn) (id : String) (patch : PolicyPatch)
  | deletePolicy (drawn : Drawn) (id : String)

inductive PolicyAnswer : Type where
  | node (found : Option NotificationPolicyNode)
  | deleted (done : Bool)

namespace PolicyEdit

def code : PolicyEdit → Prog PolicyTreeRow PolicyAnswer
  | .addChildPolicy drawn parentId policy =>
    NotificationRepository.addChildPolicy drawn parentId policy >>= fun n => pure (.node n)
  | .updatePolicy drawn id patch =>
    NotificationRepository.updatePolicy drawn id patch >>= fun n => pure (.node n)
  | .deletePolicy drawn id =>
    NotificationRepository.deletePolicy drawn id >>= fun done => pure (.deleted done)

def successful (call : PolicyEdit × Except String PolicyAnswer) : Bool :=
  match call.2 with
  | .ok (.node (some _)) => true
  | .ok (.deleted done) => done
  | _ => false

end PolicyEdit

def Present (id : String) (row : PolicyTreeRow) : Prop := ∃ tree ∈ row, tree.Has (·.id = id)

def Takes (id : String) (row : PolicyTreeRow) (edit : PolicyEdit) : Prop :=
  ∃ drawn x, edit = .deletePolicy drawn x ∧
    ∃ tree ∈ row, ∃ node, tree.Sub node ∧ node.value.id = x ∧ node.Has (·.id = id)

/-- The tree is what the successful calls make of it one after another; and a node that one of
them has added is there, unless a later one has deleted it or a node above it. -/
def EditsKept (row₀ : PolicyTreeRow) (c : Config PolicyTreeRow PolicyEdit PolicyAnswer) : Prop :=
  ∃ calls : List (PolicyEdit × Except String PolicyAnswer),
    calls.Perm (c.outcomes.filter PolicyEdit.successful) ∧
    Served PolicyEdit.code row₀ calls c.st ∧
    ∀ pre drawn parentId policy node post,
      calls = pre ++ (.addChildPolicy drawn parentId policy, .ok (.node (some node))) :: post →
      Present node.value.id c.st ∨
      ∃ mid edit rest row, post = mid ++ (edit, .ok (.deleted true)) :: rest ∧
        Served PolicyEdit.code row₀ (pre ++
          (.addChildPolicy drawn parentId policy, .ok (.node (some node))) :: mid) row ∧
        Takes node.value.id row edit

/-! ## A call alone -/

section Alone

open NotificationRepository

variable {row : PolicyTreeRow} {id : String}

theorem updatePolicyTree_run (now : ℤ) (tree : NotificationPolicyNode) :
    (updatePolicyTree now tree).run row = (.ok (), some (stamped now tree)) := by
  cases row <;> rfl

inductive Effect (row : PolicyTreeRow) :
    PolicyEdit → Except String PolicyAnswer → PolicyTreeRow → Prop
  | refused {edit : PolicyEdit} {answer : Except String PolicyAnswer}
      (hnot : PolicyEdit.successful (edit, answer) = false) : Effect row edit answer row
  | added {drawn : Drawn} {parentId : String} {policy : Policy} (newNode : NotificationPolicyNode)
      (hparent : (findNodeById (row.getD (defaultPolicyTree drawn.loadedAt)) parentId).isSome) :
      Effect row (.addChildPolicy drawn parentId policy) (.ok (.node (some newNode)))
        (some (stamped drawn.storedAt ((row.getD (defaultPolicyTree drawn.loadedAt)).editNode
          (·.id = parentId) (pushChild newNode))))
  | updated {drawn : Drawn} {x : String} {patch : PolicyPatch} (node : NotificationPolicyNode) :
      Effect row (.updatePolicy drawn x patch) (.ok (.node (some node)))
        (some (stamped drawn.storedAt ((row.getD (defaultPolicyTree drawn.loadedAt)).editNode
          (·.id = x) (editValue (patch.assign drawn.now)))))
  | deleted {drawn : Drawn} {x : String} {tree : NotificationPolicyNode}
      (hremove : removeNodeById (row.getD (defaultPolicyTree drawn.loadedAt)) x = some tree) :
      Effect row (.deletePolicy drawn x) (.ok (.deleted true)) (some (stamped drawn.storedAt tree))

theorem code_effect (edit : PolicyEdit) (row : PolicyTreeRow) :
    Effect row edit (edit.code.run row).1 (edit.code.run row).2 := by
  cases edit with
  | addChildPolicy drawn parentId policy =>
    rw [PolicyEdit.code, addChildPolicy, getPolicyTree, Prog.bind_assoc', Prog.run_bind,
      Prog.run_read]
    dsimp only
    cases hfind : findNodeById (row.getD (defaultPolicyTree drawn.loadedAt)) parentId with
    | none => exact .refused rfl
    | some parent =>
      dsimp only
      rw [Prog.bind_assoc', Prog.run_bind, updatePolicyTree_run]
      exact .added _ (by rw [hfind]; rfl)
  | updatePolicy drawn x patch =>
    rw [PolicyEdit.code, updatePolicy, getPolicyTree, Prog.bind_assoc', Prog.run_bind,
      Prog.run_read]
    dsimp only
    cases findNodeById (row.getD (defaultPolicyTree drawn.loadedAt)) x with
    | none => exact .refused rfl
    | some node =>
      dsimp only
      rw [Prog.bind_assoc', Prog.run_bind, updatePolicyTree_run]
      exact .updated _
  | deletePolicy drawn x =>
    rw [PolicyEdit.code, deletePolicy]
    split
    · exact .refused rfl
    · rw [getPolicyTree, Prog.bind_assoc', Prog.run_bind, Prog.run_read]
      dsimp only
      cases hremove : removeNodeById (row.getD (defaultPolicyTree drawn.loadedAt)) x with
      | none => exact .refused rfl
      | some tree =>
        dsimp only
        rw [Prog.bind_assoc', Prog.run_bind, updatePolicyTree_run]
        exact .deleted hremove

theorem run_of_not_successful (edit : PolicyEdit) (row : PolicyTreeRow)
    (h : PolicyEdit.successful (edit, (edit.code.run row).1) = false) :
    (edit.code.run row).2 = row := by
  have heffect := code_effect edit row
  generalize (edit.code.run row).1 = answer at h heffect
  generalize (edit.code.run row).2 = row' at heffect
  cases heffect with
  | refused hnot => rfl
  | added | updated | deleted => cases h

theorem has_stamped {now : ℤ} {tree : NotificationPolicyNode} (h : tree.Has (·.id = id)) :
    (stamped now tree).Has (·.id = id) := by
  cases tree with
  | node root children => exact Rose.has_node.mpr (Rose.has_node.mp h)

theorem Effect.keeps {edit : PolicyEdit} {answer : Except String PolicyAnswer}
    {row' : PolicyTreeRow} (h : Effect row edit answer row') (hpresent : Present id row) :
    Present id row' ∨ answer = .ok (.deleted true) ∧ Takes id row edit := by
  obtain ⟨tree, hrow, hhas⟩ := hpresent
  cases hrow
  cases h with
  | refused => exact Or.inl ⟨tree, rfl, hhas⟩
  | added newNode hparent =>
    refine Or.inl ⟨_, rfl, has_stamped (hhas.editNode fun n hn => ?_)⟩
    cases n with
    | node a cs =>
      rcases Rose.has_node.mp hn with ha | ⟨c, hc, hn⟩
      · exact Rose.has_node.mpr (Or.inl ha)
      · exact Rose.has_node.mpr (Or.inr ⟨c, List.mem_append_left _ hc, hn⟩)
  | updated node =>
    refine Or.inl ⟨_, rfl, has_stamped (hhas.editNode fun n hn => ?_)⟩
    cases n with
    | node a cs => exact Rose.has_node.mpr (Rose.has_node.mp hn)
  | @deleted drawn x tree' hremove =>
    rcases hhas.removeNode hremove with hleft | ⟨n, hsub, hx, hn⟩
    · exact Or.inl ⟨_, rfl, has_stamped hleft⟩
    · exact Or.inr ⟨rfl, drawn, x, rfl, tree, rfl, n, hsub, by simpa using hx, hn⟩

theorem Effect.present {drawn : Drawn} {parentId : String} {policy : Policy}
    {node : NotificationPolicyNode} {row' : PolicyTreeRow}
    (h : Effect row (.addChildPolicy drawn parentId policy) (.ok (.node (some node))) row') :
    Present node.value.id row' := by
  cases h with
  | refused hnot => cases hnot
  | added newNode hparent =>
    refine ⟨_, rfl, has_stamped (Rose.has_editNode_of_found (fun n => ?_) hparent)⟩
    refine Rose.has_node.mpr (Or.inr ⟨node, by simp, ?_⟩)
    exact ⟨node, .refl, by simp⟩

end Alone

/-! ## Calls that run at the same time -/

section Pool

open NotificationRepository

variable {row₀ row : PolicyTreeRow} {calls : List (PolicyEdit × Except String PolicyAnswer)}

theorem updatePolicyTree_commitsLast (now : ℤ) (tree : NotificationPolicyNode) :
    (updatePolicyTree now tree).CommitsLast := by
  refine .read_bind fun existing => ?_
  cases existing
  · exact .attempt
  · exact .write

theorem code_commitsLast (edit : PolicyEdit) : edit.code.CommitsLast := by
  cases edit with
  | addChildPolicy drawn parentId policy =>
    refine Prog.CommitsLast.map _ (.read_bind fun tree => ?_)
    dsimp only
    split
    · trivial
    · exact .map _ (updatePolicyTree_commitsLast _ _)
  | updatePolicy drawn x patch =>
    refine Prog.CommitsLast.map _ (.read_bind fun tree => ?_)
    split
    · trivial
    · exact .map _ (updatePolicyTree_commitsLast _ _)
  | deletePolicy drawn x =>
    refine Prog.CommitsLast.map _ ?_
    rw [deletePolicy]
    split
    · trivial
    · refine .read_bind fun tree => ?_
      split
      · trivial
      · exact .map _ (updatePolicyTree_commitsLast _ _)

theorem present_of_served (h : Served PolicyEdit.code row₀ calls row) :
    ∀ pre drawn parentId policy node post,
      calls = pre ++ (.addChildPolicy drawn parentId policy, .ok (.node (some node))) :: post →
      Present node.value.id row ∨
      ∃ mid edit rest row', post = mid ++ (edit, .ok (.deleted true)) :: rest ∧
        Served PolicyEdit.code row₀ (pre ++
          (.addChildPolicy drawn parentId policy, .ok (.node (some node))) :: mid) row' ∧
        Takes node.value.id row' edit := by
  induction h with
  | init =>
    intro pre drawn parentId policy node post heq
    simp at heq
  | @serve calls row edit hserved ih =>
    intro pre drawn parentId policy node post heq
    have heffect := code_effect edit row
    rcases List.eq_nil_or_concat post with rfl | ⟨post, last, rfl⟩
    · -- the node has just been added
      obtain ⟨rfl, hlast⟩ := List.append_inj' heq rfl
      obtain ⟨rfl, hanswer⟩ := Prod.mk.inj (List.cons.inj hlast).1
      rw [hanswer] at heffect
      exact Or.inl heffect.present
    · rw [List.concat_eq_append, ← List.cons_append, ← List.append_assoc] at heq
      obtain ⟨hcalls, hlast⟩ := List.append_inj' heq rfl
      obtain rfl := (List.cons.inj hlast).1
      rcases ih pre drawn parentId policy node post hcalls with hpresent |
        ⟨mid, edit', rest, row', rfl, hserved', htakes⟩
      · refine (heffect.keeps hpresent).imp_right fun ⟨hanswer, htakes⟩ => ?_
        refine ⟨post, edit, [], row, ?_, hcalls ▸ hserved, htakes⟩
        rw [hanswer, List.concat_eq_append]
      · refine Or.inr ⟨mid, edit', rest ++ [(edit, (edit.code.run row).1)], row', ?_, hserved', htakes⟩
        rw [List.concat_eq_append, List.append_assoc, List.cons_append]

/-- Where no call is between its load and its store when another one changes the tree, no edit
is lost. -/
theorem policy_edits_kept (row₀ : PolicyTreeRow)
    (c : Config PolicyTreeRow PolicyEdit PolicyAnswer)
    (h : Run PolicyEdit.code (Undisturbed PolicyEdit.code) ⟨row₀, []⟩ c) : EditsKept row₀ c := by
  obtain ⟨⟨hist, hperm, hserved⟩, -⟩ := Run.served code_commitsLast h
  have hcalls := hserved.filter (P := PolicyEdit.successful) run_of_not_successful
  exact ⟨_, hperm.filter _, hcalls, present_of_served hcalls⟩

end Pool

def teamPolicy (contactPointId : String) : Policy := { id := "", contactPointId }

def addWeb : PolicyEdit := .addChildPolicy ⟨"node-web", 0, 0, 0⟩ "root" (teamPolicy "cp_web")

def addDb : PolicyEdit := .addChildPolicy ⟨"node-db", 1, 1, 1⟩ "root" (teamPolicy "cp_db")

/-- One after the other they are both kept. -/
theorem policy_edits_kept_in_turn :
    ∃ c, Run PolicyEdit.code (Undisturbed PolicyEdit.code) ⟨none, []⟩ c ∧ EditsKept none c ∧
      c.outcomes.length = 2 := by
  obtain ⟨c, hexec⟩ : ∃ c, Config.exec PolicyEdit.code ⟨none, []⟩ [.start addWeb, .step 0, .step 0,
      .step 0, .start addDb, .step 1, .step 1, .step 1] = some c := ⟨_, rfl⟩
  have hfirst : ∀ {row th}, Undisturbed PolicyEdit.code ⟨row, [th]⟩ (.step 0) :=
    undisturbed_step fun j th hj hth => by
      obtain ⟨hlt, -⟩ := List.getElem?_eq_some_iff.mp hth
      exact absurd (Nat.lt_one_iff.mp hlt) hj
  have hsecond : ∀ {row o answer th},
      Undisturbed PolicyEdit.code ⟨row, [⟨o, .ret answer⟩, th]⟩ (.step 1) :=
    undisturbed_step fun j th hj hth => by
      match j with
      | 0 => cases hth; exact Or.inr rfl
      | 1 => exact absurd rfl hj
      | j + 2 => cases hth
  have hrun : Run PolicyEdit.code (Undisturbed PolicyEdit.code) ⟨none, []⟩ c := by
    refine Run.of_exec .init ?_ hexec
    refine ⟨undisturbed_start, ?_⟩
    rintro c' ⟨⟩
    iterate 3
      refine ⟨hfirst, ?_⟩
      rintro c' ⟨⟩
    refine ⟨undisturbed_start, ?_⟩
    rintro c' ⟨⟩
    iterate 3
      refine ⟨hsecond, ?_⟩
      rintro c' ⟨⟩
    trivial
  refine ⟨c, hrun, policy_edits_kept none c hrun, ?_⟩
  cases hexec
  rfl

/-- If both load the tree before one of them stores it, the other one's child is lost. -/
theorem policy_edit_lost :
    ¬ ∀ (row₀ : PolicyTreeRow) (c : Config PolicyTreeRow PolicyEdit PolicyAnswer),
      Run PolicyEdit.code (fun _ _ => True) ⟨row₀, []⟩ c → EditsKept row₀ c := by
  intro hall
  obtain ⟨c, hexec⟩ : ∃ c, Config.exec PolicyEdit.code ⟨none, []⟩
      [.start addWeb, .start addDb, .step 0, .step 1, .step 0, .step 0, .step 1, .step 1] =
        some c := ⟨_, rfl⟩
  have hrun : Run PolicyEdit.code (fun _ _ => True) ⟨none, []⟩ c :=
    Run.of_exec .init (allOk_of_forall (fun _ _ => trivial) _ _) hexec
  obtain ⟨calls, hperm, hserved, -⟩ := hall none c hrun
  -- one after another the calls leave two children, whichever comes first
  have hops : calls.map Prod.fst = [addWeb, addDb] ∨ calls.map Prod.fst = [addDb, addWeb] := by
    refine List.perm_pair.mp ?_
    cases hexec
    exact hperm.map Prod.fst
  have htwo : (c.st.map (·.children.length)) = some 2 := by
    rw [hserved.eq_serveAll]
    rcases hops with hops | hops
    · rw [hops]
      decide +kernel
    · rw [hops]
      decide +kernel
  have hone : (c.st.map (·.children.length)) = some 1 := by
    cases hexec
    decide +kernel
  exact absurd (htwo.symm.trans hone) (by decide)

end OpenObs.Notifications
