import OpenObs.Folders.Links

/-!
# The traversals

What `listAncestors`, `listDescendantUids` and `measureSubtreeDepth` return when the tables stand
still: the chain above a folder, the set below it, and a bound on the length of every chain that
ends in it.
-/

namespace OpenObs.Folders

open OpenObs.Foundation OpenObs.Foundation.Forest OpenObs.Resources FolderRepository

section Children

variable {t : Tables} {orgId : String}

theorem mem_listChildren {parentUid : Option String} {f : Folder} :
    f ∈ t.listChildren orgId parentUid ↔
      f ∈ t.folders ∧ f.orgId = orgId ∧ f.parentUid = parentUid := by
  rw [Tables.listChildren, List.mem_mergeSort, List.mem_filter, decide_eq_true_eq]

theorem mem_children_iff (hkeys : FolderKeys t) {x y : String} :
    x ∈ (t.listChildren orgId (some y)).map (·.uid) ↔ parentOf t orgId x = some y := by
  rw [List.mem_map]
  constructor
  · rintro ⟨f, hf, rfl⟩
    obtain ⟨hmem, horg, hparent⟩ := mem_listChildren.mp hf
    rw [parentOf_of_find (findFolderByUid_of_mem hkeys hmem horg), hparent]
  · intro hlink
    obtain ⟨f, hmem, horg, huid, hparent⟩ := parentOf_eq_some hlink
    exact ⟨f, mem_listChildren.mpr ⟨hmem, horg, hparent⟩, huid⟩

end Children

/-! ## Upwards -/

/-- The folders above `uid`, nearest first, up to a root. -/
inductive Lineage (t : Tables) (orgId : String) : String → List Folder → Prop
  | root {uid : String} : parentOf t orgId uid = none → Lineage t orgId uid []
  | step {uid p : String} {parent : Folder} {chain : List Folder} :
      parentOf t orgId uid = some p → t.findFolderByUid orgId p = some parent →
      Lineage t orgId p chain → Lineage t orgId uid (parent :: chain)

section Upwards

variable {t : Tables} {orgId : String}

theorem Lineage.climb_none {uid : String} {chain : List Folder} (h : Lineage t orgId uid chain) :
    climb (parentOf t orgId) (chain.length + 1) uid = none := by
  induction h with
  | root hroot => rw [List.length_nil, climb_one, hroot]
  | step hlink _ _ ih =>
    rw [List.length_cons, climb_succ, hlink]
    exact ih

theorem FolderTree.run_ancestorsFrom (h : FolderTree t orgId) {n : ℕ} : ∀ {f : Folder},
    t.findFolderByUid orgId f.uid = some f → climb (parentOf t orgId) (n + 1) f.uid = none →
    ∃ chain, (ancestorsFrom orgId n f).run t = (.ok chain, t) ∧ Lineage t orgId f.uid chain := by
  induction n with
  | zero =>
    intro f _ hends
    rw [climb_one] at hends
    exact ⟨[], rfl, .root hends⟩
  | succ n ih =>
    intro f hf hends
    have hparent : parentOf t orgId f.uid = f.parentUid := parentOf_of_find hf
    cases hp : f.parentUid with
    | none =>
      rw [ancestorsFrom, hp]
      exact ⟨[], rfl, .root (hparent.trans hp)⟩
    | some p =>
      have hlink : parentOf t orgId f.uid = some p := hparent.trans hp
      obtain ⟨g, hg⟩ := h.target hlink
      have huid : g.uid = p := (findFolderByUid_eq_some hg).2.2
      have htruthy : truthy (some p) = some p := truthy_eq_some.mpr ⟨rfl, h.target_ne hlink⟩
      rw [climb_succ, hlink] at hends
      obtain ⟨chain, hrun, hline⟩ := @ih g (by rw [huid, hg]) (by rw [huid]; exact hends)
      refine ⟨g :: chain, ?_, .step hlink hg (huid ▸ hline)⟩
      rw [ancestorsFrom, hp, htruthy]
      show Prog.run ((findByUid orgId p) >>= _) t = _
      rw [Prog.run_bind, findByUid, Prog.run_read, hg]
      dsimp only
      rw [Prog.run_bind, hrun]
      rfl

theorem FolderTree.run_listAncestors (h : FolderTree t orgId) (uid : String) :
    ∃ chain, (listAncestors orgId uid).run t = (.ok chain, t) ∧ Lineage t orgId uid chain := by
  rw [listAncestors, Prog.run_bind, findByUid, Prog.run_read]
  cases hf : t.findFolderByUid orgId uid with
  | none => exact ⟨[], rfl, .root (by rw [parentOf, hf]; rfl)⟩
  | some f =>
    have huid : f.uid = uid := (findFolderByUid_eq_some hf).2.2
    have hends : climb (parentOf t orgId) (folderMaxDepth + 1 + 1) uid = none :=
      climb_none_of_le (by omega) (h.depth uid)
    rw [← huid] at hf hends ⊢
    exact h.run_ancestorsFrom hf hends

end Upwards

/-! ## Downwards -/

namespace FolderService

section Downwards

variable {t : Tables} {orgId uid : String}

def fresh (out uids : List String) : List String :=
  uids.foldl (fun found uid => if uid ∈ out ++ found then found else found ++ [uid]) []

theorem mem_foldl_fresh {out uids : List String} : ∀ {found : List String} {x : String},
    x ∈ uids.foldl (fun found uid => if uid ∈ out ++ found then found else found ++ [uid]) found ↔
      x ∈ found ∨ x ∈ uids ∧ x ∉ out := by
  induction uids with
  | nil => simp
  | cons u uids ih =>
    intro found x
    rw [List.foldl_cons, ih]
    by_cases hu : u ∈ out ++ found
    · rw [if_pos hu]
      rw [List.mem_append] at hu
      grind
    · rw [if_neg hu]
      rw [List.mem_append] at hu
      grind

theorem mem_fresh {out uids : List String} {x : String} :
    x ∈ fresh out uids ↔ x ∈ uids ∧ x ∉ out := by
  rw [fresh, mem_foldl_fresh]
  simp

theorem nodup_foldl_fresh {out uids : List String} : ∀ {found : List String}, found.Nodup →
    (uids.foldl (fun found uid =>
      if uid ∈ out ++ found then found else found ++ [uid]) found).Nodup := by
  induction uids with
  | nil => exact fun h => h
  | cons u uids ih =>
    intro found hfound
    rw [List.foldl_cons]
    apply ih
    by_cases hu : u ∈ out ++ found
    · rw [if_pos hu]
      exact hfound
    · rw [if_neg hu]
      rw [List.mem_append, not_or] at hu
      exact List.nodup_append.mpr ⟨hfound, List.nodup_singleton u, fun a ha b hb hab => by
        rw [List.mem_singleton.mp hb] at hab
        exact hu.2 (hab ▸ ha)⟩

theorem run_descend_cons {fuel : ℕ} {current : String} {stack out : List String} :
    (descend orgId (fuel + 1) (current :: stack) out).run t =
      (descend orgId fuel
        ((fresh out ((t.listChildren orgId (some current)).map (·.uid))).reverse ++ stack)
        (out ++ fresh out ((t.listChildren orgId (some current)).map (·.uid)))).run t := rfl

/-- The invariant of the loop: what was found is below `uid`, and what is below a
found node was found or is still to be looked at. -/
structure Visited (t : Tables) (orgId uid : String) (stack out : List String) : Prop where
  below : ∀ x ∈ out, Above (parentOf t orgId) x uid
  pending : ∀ x ∈ stack, x = uid ∨ x ∈ out
  covered : ∀ x y, parentOf t orgId x = some y → y = uid ∨ y ∈ out → x ∈ out ∨ y ∈ stack

theorem Visited.init : Visited t orgId uid [uid] [] where
  below := by simp
  pending := by simp
  covered := by
    rintro x y - (rfl | hy)
    · exact Or.inr List.mem_cons_self
    · cases hy

theorem Visited.step (hkeys : FolderKeys t) {current : String} {stack out : List String}
    (h : Visited t orgId uid (current :: stack) out) :
    Visited t orgId uid
      ((fresh out ((t.listChildren orgId (some current)).map (·.uid))).reverse ++ stack)
      (out ++ fresh out ((t.listChildren orgId (some current)).map (·.uid))) where
  below := by
    intro x hx
    rcases List.mem_append.mp hx with hx | hx
    · exact h.below x hx
    · have hlink := (mem_children_iff hkeys).mp (mem_fresh.mp hx).1
      rcases h.pending current List.mem_cons_self with rfl | hcur
      · exact ⟨0, by rw [climb_one, hlink]⟩
      · obtain ⟨n, hn⟩ := h.below current hcur
        refine ⟨n + 1, ?_⟩
        rw [climb_succ, hlink]
        exact hn
  pending := by
    intro x hx
    rcases List.mem_append.mp hx with hx | hx
    · exact Or.inr (List.mem_append_right _ (List.mem_reverse.mp hx))
    · rcases h.pending x (List.mem_cons_of_mem _ hx) with hx | hx
      · exact Or.inl hx
      · exact Or.inr (List.mem_append_left _ hx)
  covered := by
    intro x y hlink hy
    by_cases hold : y = uid ∨ y ∈ out
    · rcases h.covered x y hlink hold with hx | hstack
      · exact Or.inl (List.mem_append_left _ hx)
      · rcases List.mem_cons.mp hstack with rfl | hstack
        · -- `y` was taken from the stack in this round
          by_cases hx : x ∈ out
          · exact Or.inl (List.mem_append_left _ hx)
          · exact Or.inl (List.mem_append_right _
              (mem_fresh.mpr ⟨(mem_children_iff hkeys).mpr hlink, hx⟩))
        · exact Or.inr (List.mem_append_right _ hstack)
    · rw [not_or] at hold
      rcases hy with hy | hy
      · exact absurd hy hold.1
      · rcases List.mem_append.mp hy with hy | hy
        · exact absurd hy hold.2
        · exact Or.inr (List.mem_append_left _ (List.mem_reverse.mpr hy))

theorem Visited.exact {out : List String} (h : Visited t orgId uid [] out) {x : String} :
    x ∈ out ↔ Above (parentOf t orgId) x uid := by
  constructor
  · exact h.below x
  · rintro ⟨n, hn⟩
    have hcovered (x y : String) (hlink : parentOf t orgId x = some y)
        (hy : y = uid ∨ y ∈ out) : x ∈ out := by
      rcases h.covered x y hlink hy with hx | hnil
      · exact hx
      · cases hnil
    induction n generalizing x with
    | zero =>
      rw [climb_one] at hn
      exact hcovered x uid hn (Or.inl rfl)
    | succ n ih =>
      rw [climb_succ] at hn
      obtain ⟨z, hz, hclimb⟩ := Option.bind_eq_some_iff.mp hn
      exact hcovered x z hz (Or.inr (ih hclimb))

theorem Visited.run (hkeys : FolderKeys t) {fuel : ℕ} : ∀ {stack out res : List String}
    {t' : Tables}, Visited t orgId uid stack out →
    (descend orgId fuel stack out).run t = (.ok res, t') → Visited t orgId uid [] res := by
  induction fuel with
  | zero =>
    intro stack out res t' h hrun
    cases stack with
    | nil =>
      cases hrun
      exact h
    | cons current stack => cases hrun
  | succ fuel ih =>
    intro stack out res t' h hrun
    cases stack with
    | nil =>
      cases hrun
      exact h
    | cons current stack =>
      rw [run_descend_cons] at hrun
      exact ih (h.step hkeys) hrun

theorem listDescendantUids_exact (hkeys : FolderKeys t) {fuel : ℕ} {res : List String}
    {t' : Tables} (hrun : (listDescendantUids fuel orgId uid).run t = (.ok res, t'))
    {x : String} : x ∈ res ↔ Above (parentOf t orgId) x uid :=
  (Visited.init.run hkeys hrun).exact

def unfound (t : Tables) (out : List String) : List String :=
  (t.folders.map (·.uid)).filter (· ∉ out)

theorem length_unfound_append {out found : List String} (hnodup : found.Nodup)
    (hsub : ∀ x ∈ found, x ∈ unfound t out) :
    (unfound t (out ++ found)).length + found.length ≤ (unfound t out).length := by
  have hsplit := (List.filter_append_perm (· ∈ found) (unfound t out)).length_eq
  rw [List.length_append] at hsplit
  have hleft : (unfound t (out ++ found)).length =
      ((unfound t out).filter fun x => !decide (x ∈ found)).length := by
    rw [unfound, unfound, List.filter_filter]
    congr 1
    apply List.filter_congr
    intro x _
    simp only [List.mem_append]
    by_cases h₁ : x ∈ out <;> by_cases h₂ : x ∈ found <;> simp [h₁, h₂]
  have hright : found.length ≤ ((unfound t out).filter (· ∈ found)).length := by
    apply List.Subperm.length_le
    apply List.subperm_of_subset hnodup
    intro x hx
    exact List.mem_filter.mpr ⟨hsub x hx, decide_eq_true hx⟩
  omega

theorem descend_terminates {fuel : ℕ} : ∀ {stack out : List String},
    (unfound t out).length + stack.length ≤ fuel →
    ∃ res, (descend orgId fuel stack out).run t = (.ok res, t) := by
  induction fuel with
  | zero =>
    intro stack out hfuel
    cases stack with
    | nil => exact ⟨out, rfl⟩
    | cons current stack =>
      rw [List.length_cons] at hfuel
      omega
  | succ fuel ih =>
    intro stack out hfuel
    cases stack with
    | nil => exact ⟨out, rfl⟩
    | cons current stack =>
      rw [run_descend_cons]
      apply ih
      have hshrink := @length_unfound_append t out
        (fresh out ((t.listChildren orgId (some current)).map (·.uid)))
        (nodup_foldl_fresh List.nodup_nil) (by
          intro x hx
          obtain ⟨hchild, hout⟩ := mem_fresh.mp hx
          obtain ⟨f, hf, rfl⟩ := List.mem_map.mp hchild
          exact List.mem_filter.mpr ⟨List.mem_map_of_mem (mem_listChildren.mp hf).1,
            decide_eq_true hout⟩)
      rw [List.length_append, List.length_reverse]
      rw [List.length_cons] at hfuel
      omega

theorem listDescendantUids_terminates {fuel : ℕ} (hfuel : t.folders.length < fuel) :
    ∃ res, (listDescendantUids fuel orgId uid).run t = (.ok res, t) := by
  apply descend_terminates
  have hle : (unfound t []).length ≤ t.folders.length := by
    rw [unfound, ← @List.length_map _ _ t.folders (·.uid)]
    exact List.length_filter_le ..
  rw [List.length_singleton]
  omega

end Downwards

/-! ## The depth of a subtree -/

section Depth

variable {t : Tables} {orgId : String}

theorem run_deepest_ok {measure : Folder → Prog Tables ℕ} (hmeasure : ∀ c, Reads (measure c))
    {children : List Folder} : ∀ {best n : ℕ} {t' : Tables},
    (deepest measure best children).run t = (.ok n, t') →
    best ≤ n ∧ ∀ c ∈ children, ∃ d ≤ n, (measure c).run t = (.ok d, t) := by
  induction children with
  | nil =>
    intro best n t' hrun
    cases hrun
    exact ⟨Nat.le_refl best, by simp⟩
  | cons c cs ih =>
    intro best n t' hrun
    obtain ⟨d, hd, hrest⟩ := (hmeasure c).run_bind_ok hrun
    obtain ⟨hbest, hall⟩ := ih hrest
    have hle : best ≤ n ∧ d ≤ n := by
      split at hbest <;> omega
    refine ⟨hle.1, fun c' hc' => ?_⟩
    rcases List.mem_cons.mp hc' with rfl | hc'
    · exact ⟨d, hle.2, hd⟩
    · exact hall c' hc'

theorem measureSubtreeDepth_bound (hkeys : FolderKeys t) {fuel : ℕ} : ∀ {uid : String} {n : ℕ}
    {t' : Tables}, (measureSubtreeDepth orgId fuel uid).run t = (.ok n, t') →
    ∀ d x, climb (parentOf t orgId) d x = some uid → d + 1 ≤ n := by
  induction fuel with
  | zero =>
    intro uid n t' hrun
    cases hrun
  | succ fuel ih =>
    intro uid n t' hrun d x hclimb
    obtain ⟨children, hchildren, hrest⟩ := (Reads.read _).run_bind_ok hrun
    cases hchildren
    split at hrest
    · rename_i hlen
      cases hrest
      cases d with
      | zero => exact Nat.le_refl 1
      | succ d =>
        obtain ⟨z, -, hz⟩ := climb_succ_last hclimb
        have hnil : t.listChildren orgId (some uid) = [] := List.length_eq_zero_iff.mp hlen
        have hmem := (mem_children_iff hkeys).mpr hz
        rw [hnil] at hmem
        cases hmem
    · obtain ⟨best, hbest, hret⟩ :=
        (reads_deepest fun c => reads_measureSubtreeDepth).run_bind_ok hrest
      cases hret
      obtain ⟨-, hall⟩ := run_deepest_ok (fun c => reads_measureSubtreeDepth) hbest
      cases d with
      | zero => omega
      | succ d =>
        obtain ⟨z, hclimb', hz⟩ := climb_succ_last hclimb
        obtain ⟨c, hc, huid⟩ := List.mem_map.mp ((mem_children_iff hkeys).mpr hz)
        obtain ⟨m, hm, hmeasured⟩ := hall c hc
        have hle := ih hmeasured d x (by rw [huid, hclimb'])
        omega

theorem run_deepest_terminates {measure : Folder → Prog Tables ℕ} {children : List Folder}
    (hall : ∀ c ∈ children, ∃ d, (measure c).run t = (.ok d, t)) : ∀ {best : ℕ},
    ∃ n, (deepest measure best children).run t = (.ok n, t) := by
  induction children with
  | nil => exact fun {best} => ⟨best, rfl⟩
  | cons c cs ih =>
    intro best
    obtain ⟨d, hd⟩ := hall c List.mem_cons_self
    rw [deepest, Prog.run_bind, hd]
    exact ih fun c' hc' => hall c' (List.mem_cons_of_mem c hc')

theorem measureSubtreeDepth_terminates (hkeys : FolderKeys t) {fuel : ℕ} : ∀ {uid : String},
    (∀ x, climb (parentOf t orgId) fuel x ≠ some uid) →
    ∃ n, (measureSubtreeDepth orgId fuel uid).run t = (.ok n, t) := by
  induction fuel with
  | zero =>
    intro uid hshort
    exact absurd climb_zero (hshort uid)
  | succ fuel ih =>
    intro uid hshort
    rw [measureSubtreeDepth, Prog.run_bind, listChildren, Prog.run_read]
    dsimp only
    split
    · exact ⟨1, rfl⟩
    · have hall : ∀ c ∈ t.listChildren orgId (some uid),
          ∃ d, (measureSubtreeDepth orgId fuel c.uid).run t = (.ok d, t) := by
        intro c hc
        apply ih
        intro x hx
        apply hshort x
        rw [climb_add, hx]
        show climb _ 1 c.uid = _
        rw [climb_one]
        exact (mem_children_iff hkeys).mp (List.mem_map_of_mem hc)
      obtain ⟨n, hn⟩ := @run_deepest_terminates t
        (fun c => measureSubtreeDepth orgId fuel c.uid) _ hall 0
      rw [Prog.run_bind, hn]
      exact ⟨n + 1, rfl⟩

end Depth

end FolderService

end OpenObs.Folders
