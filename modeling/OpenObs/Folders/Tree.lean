import OpenObs.Folders.Deletion

/-!
# The folder tree

Every call of the service changes the links of an org in one of three ways: a new leaf, a moved
node, a subtree cut off.
-/

namespace OpenObs.Folders

open OpenObs.Foundation OpenObs.Foundation.Forest OpenObs.Resources FolderRepository

/-! ## The three changes -/

section Changes

variable {t : Tables} {orgId : String}

def addFolder (t : Tables) (row : Folder) : Tables := { t with folders := t.folders ++ [row] }

theorem findFolderByUid_addFolder {row : Folder} {uid : String} :
    (addFolder t row).findFolderByUid orgId uid =
      (t.findFolderByUid orgId uid).or
        (if row.orgId = orgId ∧ row.uid = uid then some row else none) := by
  simp only [addFolder, Tables.findFolderByUid, List.find?_append, List.find?_singleton,
    decide_eq_true_eq]

theorem keys_addFolder (h : FolderKeys t) {row : Folder} (hid : row.id ∉ t.folders.map (·.id))
    (huid : t.findFolderByUid row.orgId row.uid = none) (hname : row.uid ≠ "") :
    FolderKeys (addFolder t row) where
  id := by
    rw [addFolder, List.map_append, List.map_singleton]
    exact List.nodup_append.mpr ⟨h.id, List.nodup_singleton _, by
      intro a ha b hb
      rw [List.mem_singleton.mp hb]
      exact fun hab => hid (hab ▸ ha)⟩
  uid := by
    rw [addFolder, List.map_append, List.map_singleton]
    refine List.nodup_append.mpr ⟨h.uid, List.nodup_singleton _, ?_⟩
    intro a ha b hb hab
    rw [List.mem_singleton.mp hb] at hab
    obtain ⟨f, hf, rfl⟩ := List.mem_map.mp ha
    obtain ⟨horg, hf'⟩ := Prod.mk.inj hab
    have hfound := findFolderByUid_of_mem h hf horg
    rw [hf', huid] at hfound
    cases hfound
  named := by
    intro f hf
    rcases List.mem_append.mp hf with hf | hf
    · exact h.named f hf
    · rw [List.mem_singleton.mp hf]
      exact hname

theorem parentOf_addFolder {row : Folder} (horg : row.orgId = orgId)
    (huid : t.findFolderByUid orgId row.uid = none) :
    parentOf (addFolder t row) orgId =
      Function.update (parentOf t orgId) row.uid row.parentUid := by
  ext uid : 1
  rw [parentOf, findFolderByUid_addFolder]
  by_cases heq : uid = row.uid
  · subst heq
    rw [Function.update_self, huid, if_pos ⟨horg, rfl⟩]
    rfl
  · rw [Function.update_of_ne heq, if_neg fun h => heq h.2.symm, Option.or_none, parentOf]

theorem FolderTree.add (h : FolderTree t orgId) {row : Folder} (horg : row.orgId = orgId)
    (hid : row.id ∉ t.folders.map (·.id)) (huid : t.findFolderByUid orgId row.uid = none)
    (hname : row.uid ≠ "")
    (hparent : ∀ p, row.parentUid = some p → (t.findFolderByUid orgId p).isSome = true ∧
      ∃ chain, Lineage t orgId p chain ∧ chain.length + 2 ≤ folderMaxDepth) :
    FolderTree (addFolder t row) orgId where
  toFolderKeys := keys_addFolder h.toFolderKeys hid (horg ▸ huid) hname
  parent := by
    intro f hf hforg p hp
    rw [findFolderByUid_addFolder, Option.isSome_or, Bool.or_eq_true]
    left
    rcases List.mem_append.mp hf with hf | hf
    · exact h.parent f hf hforg p hp
    · rw [List.mem_singleton.mp hf] at hp
      exact (hparent p hp).1
  depth := by
    rw [parentOf_addFolder horg huid]
    -- nothing links to a uid that is no folder
    have hleaf (d : ℕ) (x : String) (hd : climb (parentOf t orgId) d x = some row.uid) : d = 0 := by
      cases d with
      | zero => rfl
      | succ d =>
        obtain ⟨g, hg⟩ := h.climb_target hd
        rw [huid] at hg
        cases hg
    refine climb_update_none h.depth fun p hp => ?_
    obtain ⟨hfound, chain, hline, hroom⟩ := hparent p hp
    refine ⟨fun n hn => ?_, chain.length + 1, hline.climb_none, fun d x hd => ?_⟩
    · rw [hleaf n p hn, climb_zero] at hn
      rw [Option.some.inj hn, huid] at hfound
      cases hfound
    · rw [hleaf d x hd]
      omega

def editFolder (t : Tables) (id : String) (edit : Folder → Folder) : Tables :=
  { t with folders := t.folders.map fun f => if f.id = id then edit f else f }

def KeepsKeys (edit : Folder → Folder) : Prop :=
  ∀ f, (edit f).id = f.id ∧ (edit f).orgId = f.orgId ∧ (edit f).uid = f.uid

theorem keepsKeys_merge {now : String} {patch : FolderPatch} {existing : Folder} :
    KeepsKeys (merge now patch existing) := fun _ => ⟨rfl, rfl, rfl⟩

section Edit

variable {edit : Folder → Folder} {id : String}

theorem map_editFolder {β : Type} {key : Folder → β} (hkey : ∀ f, key (edit f) = key f) :
    (editFolder t id edit).folders.map key = t.folders.map key := by
  rw [editFolder, List.map_map]
  apply List.map_congr_left
  intro f _
  show key (if f.id = id then edit f else f) = key f
  split
  · exact hkey f
  · rfl

theorem findFolderByUid_editFolder (hedit : KeepsKeys edit) {uid : String} :
    (editFolder t id edit).findFolderByUid orgId uid =
      (t.findFolderByUid orgId uid).map fun f => if f.id = id then edit f else f := by
  rw [Tables.findFolderByUid, editFolder, List.find?_map, Tables.findFolderByUid]
  congr 2
  ext f
  show decide _ = decide _
  by_cases hid : f.id = id
  · simp only [if_pos hid, (hedit f).2.1, (hedit f).2.2]
  · simp only [if_neg hid]

theorem keys_editFolder (h : FolderKeys t) (hedit : KeepsKeys edit) :
    FolderKeys (editFolder t id edit) where
  id := by
    rw [map_editFolder fun f => (hedit f).1]
    exact h.id
  uid := by
    rw [@map_editFolder t edit id _ (fun f => (f.orgId, f.uid))
      fun f => by rw [(hedit f).2.1, (hedit f).2.2]]
    exact h.uid
  named := by
    intro f hf
    obtain ⟨g, hg, rfl⟩ := List.mem_map.mp hf
    split
    · rw [(hedit g).2.2]
      exact h.named g hg
    · exact h.named g hg

theorem parentOf_editFolder (h : FolderKeys t) (hedit : KeepsKeys edit) {row : Folder}
    (hrow : t.findFolderByUid orgId row.uid = some row) :
    parentOf (editFolder t row.id edit) orgId =
      Function.update (parentOf t orgId) row.uid (edit row).parentUid := by
  ext uid : 1
  rw [parentOf, findFolderByUid_editFolder hedit]
  by_cases heq : uid = row.uid
  · subst heq
    rw [Function.update_self, hrow, Option.map_some, if_pos rfl]
    rfl
  · rw [Function.update_of_ne heq, parentOf]
    cases hf : t.findFolderByUid orgId uid with
    | none => rfl
    | some f =>
      have hid : f.id ≠ row.id := by
        intro hid
        obtain ⟨hmem, -, huid⟩ := findFolderByUid_eq_some hf
        obtain ⟨hmem', -, -⟩ := findFolderByUid_eq_some hrow
        apply heq
        rw [← huid, List.inj_on_of_nodup_map h.id hmem hmem' hid]
      rw [Option.map_some, if_neg hid]

end Edit

theorem FolderTree.move (h : FolderTree t orgId) {edit : Folder → Folder}
    (hedit : KeepsKeys edit) {row : Folder} (hrow : t.findFolderByUid orgId row.uid = some row)
    (hparent : ∀ p, (edit row).parentUid = some p →
      (t.findFolderByUid orgId p).isSome = true ∧
      (∀ n, climb (parentOf t orgId) n p ≠ some row.uid) ∧
      ∃ m, climb (parentOf t orgId) m p = none ∧
        ∀ d x, climb (parentOf t orgId) d x = some row.uid → d + 1 + m ≤ folderMaxDepth) :
    FolderTree (editFolder t row.id edit) orgId where
  toFolderKeys := keys_editFolder h.toFolderKeys hedit
  parent := by
    intro f hf hforg p hp
    rw [findFolderByUid_editFolder hedit, Option.isSome_map]
    obtain ⟨g, hg, rfl⟩ := List.mem_map.mp hf
    split at hp
    · rename_i hid
      have hmem : row ∈ t.folders := (findFolderByUid_eq_some hrow).1
      rw [List.inj_on_of_nodup_map h.id hg hmem hid] at hp
      exact (hparent p hp).1
    · rename_i hid
      rw [if_neg hid] at hforg
      exact h.parent g hg hforg p hp
  depth := by
    rw [parentOf_editFolder h.toFolderKeys hedit hrow]
    exact climb_update_none h.depth fun p hp => (hparent p hp).2

theorem FolderTree.cut (h : FolderTree t orgId) {uids : List String}
    (hclosed : ∀ x y, parentOf t orgId x = some y → y ∈ uids → x ∈ uids) :
    FolderTree (cutFolders t orgId uids) orgId where
  toFolderKeys := keys_cutFolders h.toFolderKeys
  parent := by
    intro f hf horg p hp
    obtain ⟨hmem, hkept⟩ := mem_cutFolders.mp hf
    have hlink : parentOf t orgId f.uid = some p := by
      rw [parentOf_of_find (findFolderByUid_of_mem h.toFolderKeys hmem horg), hp]
    obtain ⟨g, hg⟩ := h.target hlink
    rw [findFolderByUid_cutFolders h.toFolderKeys hg fun hcut =>
      hkept ⟨horg, hclosed f.uid p hlink hcut⟩]
    rfl
  depth := by
    intro uid
    cases hclimb : climb (parentOf (Folders.cutFolders t orgId uids) orgId) folderMaxDepth uid with
    | none => rfl
    | some y =>
      have hold := climb_of_sub (parentOf_cutFolders h.toFolderKeys) hclimb
      rw [h.depth uid] at hold
      cases hold

theorem FolderTree.of_folders {t' : Tables} (h : FolderTree t orgId)
    (hfolders : t'.folders = t.folders) : FolderTree t' orgId := by
  have hfind (uid : String) : t'.findFolderByUid orgId uid = t.findFolderByUid orgId uid := by
    rw [Tables.findFolderByUid, hfolders, Tables.findFolderByUid]
  have hparent : parentOf t' orgId = parentOf t orgId := by
    ext uid : 1
    rw [parentOf, hfind, parentOf]
  exact
    { id := hfolders ▸ h.id
      uid := hfolders ▸ h.uid
      named := hfolders ▸ h.named
      parent := by
        intro f hf horg p hp
        rw [hfind]
        exact h.parent f (hfolders ▸ hf) horg p hp
      depth := hparent ▸ h.depth }

end Changes

/-! ## What a call does -/

section Repository

variable {t : Tables}

theorem run_insert (row : Folder) :
    (∃ e, (insert row).run t = (.error e, t)) ∨
    (row.id ∉ t.folders.map (·.id) ∧ t.findFolderByUid row.orgId row.uid = none ∧
      (insert row).run t = (.ok row, addFolder t row)) := by
  rw [FolderRepository.insert, Prog.run_attempt]
  split
  · exact Or.inl ⟨_, rfl⟩
  · rename_i hid
    split
    · exact Or.inl ⟨_, rfl⟩
    · rename_i huid
      split
      · exact Or.inl ⟨_, rfl⟩
      · exact Or.inr ⟨hid, by simpa using huid, rfl⟩

theorem run_create (id now : String) (input : NewFolder) :
    (∃ e, (create id now input).run t = (.error e, t)) ∨
    (id ∉ t.folders.map (·.id) ∧ t.findFolderByUid input.orgId input.uid = none ∧
      (create id now input).run t =
        (.ok (newRow id now input), addFolder t (newRow id now input))) := by
  rw [create]
  cases truthy input.parentUid with
  | none => exact run_insert (newRow id now input)
  | some parentUid =>
    rcases reads_assertParentAndDepth.run_bind
      (fun _ => insert (newRow id now input)) t with ⟨e, -, herr⟩ | ⟨_, -, hok⟩
    · exact Or.inl ⟨e, herr⟩
    · dsimp only
      rw [hok]
      exact run_insert (newRow id now input)

theorem found_of_assert {orgId parentUid : String} {movingUid : Option String} {t' : Tables}
    (h : (assertParentAndDepth orgId parentUid movingUid).run t = (.ok (), t')) :
    (t.findFolderByUid orgId parentUid).isSome = true := by
  rw [assertParentAndDepth, Prog.run_bind, findByUid, Prog.run_read] at h
  cases hfind : t.findFolderByUid orgId parentUid with
  | none =>
    rw [hfind] at h
    cases h
  | some parent => rfl

theorem run_store {now : String} {patch : FolderPatch} {existing : Folder} :
    (∃ e, (store now patch existing).run t = (.error e, t)) ∨
    ((store now patch existing).run t).2 =
      editFolder t existing.id (merge now patch existing) := by
  rw [store, Prog.run_attempt]
  split
  · exact Or.inl ⟨_, rfl⟩
  · exact Or.inr rfl

theorem run_update (hkeys : FolderKeys t) {now : String} {patch : FolderPatch} {existing : Folder}
    (hmem : existing ∈ t.folders) :
    (∃ e, (update now existing.id patch).run t = (.error e, t)) ∨
    ((∀ p, patch.parentUid = some (some p) → some p ≠ existing.parentUid →
        (t.findFolderByUid existing.orgId p).isSome = true) ∧
      ((update now existing.id patch).run t).2 =
        editFolder t existing.id (merge now patch existing)) := by
  have hid : t.findFolderById existing.id = some existing := findFolderById_of_mem hkeys hmem
  rw [update, Prog.run_bind, findById, Prog.run_read, hid]
  dsimp only
  split
  · rename_i parentUid hpatch
    split
    · rename_i hsame
      rcases @run_store t now patch existing with herr | hok
      · exact Or.inl herr
      · refine Or.inr ⟨fun p hp hne => ?_, hok⟩
        rw [hpatch] at hp
        cases hp
        exact absurd hsame hne
    · rcases reads_assertParentAndDepth.run_bind (fun _ => store now patch existing) t with
        ⟨e, -, herr⟩ | ⟨_, hassert, hok⟩
      · exact Or.inl ⟨e, herr⟩
      · rw [hok]
        rcases @run_store t now patch existing with herr | hstore
        · exact Or.inl herr
        · refine Or.inr ⟨fun p hp _ => ?_, hstore⟩
          rw [hpatch] at hp
          cases hp
          exact found_of_assert hassert
  · rename_i hpatch
    rcases @run_store t now patch existing with herr | hok
    · exact Or.inl herr
    · exact Or.inr ⟨fun p hp _ => absurd hp (hpatch p), hok⟩

end Repository

namespace FolderService

section Service

variable {t : Tables} {orgId : String}

theorem slugifyUid_ne (random title : String) : slugifyUid random title ≠ "" := by
  rw [slugifyUid]
  split
  · intro h
    have hlen := congrArg String.length h
    rw [String.length_append] at hlen
    have hpos : "folder_".length = 7 := by decide
    rw [hpos] at hlen
    exact absurd hlen (by simp)
  · rename_i hbase
    intro h
    apply hbase
    rw [String.ofList_eq_empty_iff.mp h]
    rfl

theorem chooseUid_ne {drawn : Drawn} {input : CreateFolderInput} {uid : String} {t' : Tables}
    (h : (chooseUid drawn orgId input).run t = (.ok uid, t')) : uid ≠ "" := by
  have hbase : (truthy (input.uid.map Rbac.trim)).getD (slugifyUid drawn.random input.title) ≠ "" := by
    cases hgiven : truthy (input.uid.map Rbac.trim) with
    | none =>
      rw [Option.getD_none]
      exact slugifyUid_ne _ _
    | some given => exact (truthy_eq_some.mp hgiven).2
  rw [chooseUid, Prog.run_bind, findByUid, Prog.run_read] at h
  dsimp only at h
  revert h hbase
  generalize (truthy (input.uid.map Rbac.trim)).getD (slugifyUid drawn.random input.title) = base
  intro h hbase
  split at h
  · cases h
    exact hbase
  · split at h
    · cases h
    · cases h
      intro hempty
      exact hbase (String.append_eq_empty_iff.mp (String.append_eq_empty_iff.mp hempty).1).1

theorem checkParent_ok (h : FolderTree t orgId) {p : String} (hp : p ≠ "") {t' : Tables}
    (hrun : (checkParent orgId (some p)).run t = (.ok (), t')) :
    (t.findFolderByUid orgId p).isSome = true ∧
      ∃ chain, Lineage t orgId p chain ∧ chain.length + 2 ≤ folderMaxDepth := by
  rw [checkParent, truthy_eq_some.mpr ⟨rfl, hp⟩] at hrun
  dsimp only at hrun
  rw [Prog.run_bind, findByUid, Prog.run_read] at hrun
  dsimp only at hrun
  split at hrun
  · cases hrun
  · rename_i parent hparent
    obtain ⟨chain, hchain, hline⟩ := h.run_listAncestors p
    rw [Prog.run_bind, hchain] at hrun
    dsimp only at hrun
    split at hrun
    · cases hrun
    · rename_i hroom
      exact ⟨by rw [hparent]; rfl, chain, hline, Nat.le_of_not_lt hroom⟩

theorem checkMove_ok (h : FolderTree t orgId) {fuel : ℕ} {uid p : String} {existing : Folder}
    (hp : p ≠ "") (hother : some p ≠ existing.parentUid) {t' : Tables}
    (hrun : (checkMove fuel orgId uid existing (some (some p))).run t = (.ok (), t')) :
    (∀ n, climb (parentOf t orgId) n p ≠ some uid) ∧
      ∃ m, climb (parentOf t orgId) m p = none ∧
        ∀ d x, climb (parentOf t orgId) d x = some uid → d + 1 + m ≤ folderMaxDepth := by
  rw [checkMove, if_neg hother] at hrun
  split at hrun
  · cases hrun
  · rename_i hself
    rw [truthy_eq_some.mpr ⟨rfl, hp⟩] at hrun
    obtain ⟨descendants, hlist, hrun⟩ := reads_listDescendantUids.run_bind_ok hrun
    split at hrun
    · cases hrun
    · rename_i hdesc
      obtain ⟨chain, hchain, hline⟩ := h.run_listAncestors p
      rw [Prog.run_bind, hchain] at hrun
      obtain ⟨depth, hdepth, hrun⟩ := reads_measureSubtreeDepth.run_bind_ok hrun
      split at hrun
      · cases hrun
      · rename_i hroom
        refine ⟨fun n hn => ?_, chain.length + 1, hline.climb_none, fun d x hd => ?_⟩
        · cases n with
          | zero =>
            apply hself
            rw [← hn]
            rfl
          | succ n =>
            apply hdesc
            exact (listDescendantUids_exact h.toFolderKeys hlist).mpr ⟨n, hn⟩
        · have hle := measureSubtreeDepth_bound h.toFolderKeys hdepth d x hd
          omega

theorem tree_create (h : FolderTree t orgId) (drawn : Drawn) {input : CreateFolderInput}
    (userId : String) (hparent : input.parentUid ≠ some "") :
    FolderTree ((create drawn orgId input userId).run t).2 orgId := by
  rw [create]
  split
  · exact h
  refine reads_chooseUid.run_post (P := (FolderTree · orgId)) h fun uid huid => ?_
  refine reads_checkParent.run_post (P := (FolderTree · orgId)) h fun _ hcheck => ?_
  rcases run_create drawn.id drawn.now _ with ⟨e, herr⟩ | ⟨hid, hfree, hrow⟩
  · rw [herr]
    exact h
  · rw [hrow]
    refine h.add rfl hid hfree (chooseUid_ne huid) fun p hp => ?_
    have hp' : input.parentUid = some p := hp
    rw [hp'] at hcheck hparent
    exact checkParent_ok h (fun hempty => hparent (by rw [hempty])) hcheck

theorem tree_update (h : FolderTree t orgId) {fuel : ℕ} {now uid : String}
    {patch : UpdateFolderPatch} {userId : String} :
    FolderTree ((update fuel now orgId uid patch userId).run t).2 orgId := by
  refine (Reads.read _).run_post (P := (FolderTree · orgId)) h fun found hfound => ?_
  cases hfound
  dsimp only
  cases hrow : t.findFolderByUid orgId uid with
  | none => exact h
  | some existing =>
    obtain ⟨hmem, horg, huid⟩ := findFolderByUid_eq_some hrow
    refine reads_checkMove.run_post (P := (FolderTree · orgId)) h fun _ hcheck => ?_
    rw [Reads.run_snd fun updated => ?_]
    swap
    · cases updated with
      | none => exact Reads.throw _
      | some updated => exact Reads.pure updated
    rcases @run_update t h.toFolderKeys now _ existing hmem with ⟨e, herr⟩ | ⟨hnew, hedit⟩
    · rw [herr]
      exact h
    · rw [hedit]
      refine h.move keepsKeys_merge (by rw [huid, hrow]) fun p hp => ?_
      by_cases hsame : some p = existing.parentUid
      · -- the folder stays where it is
        have hlink : parentOf t orgId existing.uid = some p := by
          rw [huid, parentOf_of_find hrow, hsame]
        refine ⟨?_, fun n hn => ?_, exists_room h.depth hlink⟩
        · obtain ⟨g, hg⟩ := h.target hlink
          rw [hg]
          rfl
        · apply h.acyclic existing.uid
          refine ⟨n, ?_⟩
          rw [climb_succ, hlink]
          exact hn
      · have hpatch : patch.parentUid = some (some p) := by
          cases hpar : patch.parentUid with
          | none =>
            rw [merge, hpar] at hp
            exact absurd hp.symm hsame
          | some v =>
            rw [merge, hpar] at hp
            rw [← hp]
            rfl
        have hfound := hnew p hpatch hsame
        have hne : p ≠ "" := by
          rintro rfl
          obtain ⟨g, hg⟩ := Option.isSome_iff_exists.mp hfound
          obtain ⟨hg', -, hempty⟩ := findFolderByUid_eq_some hg
          exact h.named g hg' hempty
        rw [hpatch] at hcheck
        rw [horg] at hfound
        rw [huid]
        exact ⟨hfound, checkMove_ok h hne hsame hcheck⟩

theorem tree_delete (h : FolderTree t orgId) {fuel : ℕ} {uid : String} {force : Bool} :
    FolderTree ((delete fuel orgId uid force).run t).2 orgId := by
  rcases @run_delete t orgId uid h.toFolderKeys fuel force with
    ⟨e, herr⟩ | ⟨uids, hmem, -, hok⟩
  · rw [herr]
    exact h
  · rw [hok, removed]
    have hrest : FolderTree (emptied t orgId uids) orgId := h.of_folders rfl
    refine hrest.cut fun x y hlink hy => ?_
    have hlink' : parentOf t orgId x = some y := hlink
    rw [hmem] at hy ⊢
    right
    rcases hy with rfl | ⟨n, hn⟩
    · exact ⟨0, by rw [climb_one, hlink']⟩
    · refine ⟨n + 1, ?_⟩
      rw [climb_succ, hlink']
      exact hn

end Service

end FolderService

/-! ## Sessions -/

inductive FolderCall : Type where
  | create (drawn : Drawn) (input : CreateFolderInput) (userId : String)
  | update (fuel : ℕ) (now uid : String) (patch : UpdateFolderPatch) (userId : String)
  | delete (fuel : ℕ) (uid : String) (forceDeleteRules : Bool)

def FolderCall.code (orgId : String) : FolderCall → Prog Tables Unit
  | .create drawn input userId => do
      let _ ← FolderService.create drawn orgId input userId
      return ()
  | .update fuel now uid patch userId => do
      let _ ← FolderService.update fuel now orgId uid patch userId
      return ()
  | .delete fuel uid forceDeleteRules => FolderService.delete fuel orgId uid forceDeleteRules

def FolderCall.NamesParent : FolderCall → Prop
  | .create _ input _ => input.parentUid ≠ some ""
  | _ => True

/-- Reached from the roots, one `listChildren` after the other. -/
inductive Listed (t : Tables) (orgId : String) : Folder → Prop
  | root {f : Folder} : f ∈ t.listChildren orgId none → Listed t orgId f
  | child {f parent : Folder} : Listed t orgId parent →
      f ∈ t.listChildren orgId (some parent.uid) → Listed t orgId f

structure FolderInvariant (t : Tables) (orgId : String) : Prop where
  acyclic : Acyclic (parentOf t orgId)
  parent : ∀ f ∈ t.folders, f.orgId = orgId → ∀ p, f.parentUid = some p →
    ∃ g ∈ t.folders, g.orgId = orgId ∧ g.uid = p
  depth : ∀ chain : List Folder, (∀ f ∈ chain, f ∈ t.folders ∧ f.orgId = orgId) →
    chain.IsChain (fun f g => f.parentUid = some g.uid) → chain.length ≤ folderMaxDepth
  reachable : ∀ f ∈ t.folders, f.orgId = orgId → Listed t orgId f
  ancestors : ∀ uid, ∃ chain, (listAncestors orgId uid).run t = (.ok chain, t) ∧
    Lineage t orgId uid chain

namespace FolderTree

variable {t : Tables} {orgId : String}

theorem listed (h : FolderTree t orgId) {n : ℕ} : ∀ {f : Folder}, f ∈ t.folders →
    f.orgId = orgId → climb (parentOf t orgId) n f.uid = none → Listed t orgId f := by
  induction n with
  | zero =>
    intro f _ _ hends
    cases hends
  | succ n ih =>
    intro f hf horg hends
    have hlink : parentOf t orgId f.uid = f.parentUid :=
      parentOf_of_find (findFolderByUid_of_mem h.toFolderKeys hf horg)
    cases hp : f.parentUid with
    | none => exact .root (mem_listChildren.mpr ⟨hf, horg, hp⟩)
    | some p =>
      rw [hp] at hlink
      obtain ⟨g, hg⟩ := h.target hlink
      obtain ⟨hgmem, hgorg, rfl⟩ := findFolderByUid_eq_some hg
      rw [climb_succ, hlink] at hends
      exact .child (ih hgmem hgorg hends) (mem_listChildren.mpr ⟨hf, horg, hp⟩)

theorem uids_isChain (h : FolderTree t orgId) {chain : List Folder}
    (hmem : ∀ f ∈ chain, f ∈ t.folders ∧ f.orgId = orgId)
    (hchain : chain.IsChain fun f g => f.parentUid = some g.uid) :
    (chain.map (·.uid)).IsChain fun x y => parentOf t orgId x = some y := by
  rw [List.isChain_map]
  refine List.IsChain.imp_of_mem_imp (fun f g hf _ hlink => ?_) hchain
  obtain ⟨hf, horg⟩ := hmem f hf
  rw [parentOf_of_find (findFolderByUid_of_mem h.toFolderKeys hf horg), hlink]

theorem folderInvariant (h : FolderTree t orgId) : FolderInvariant t orgId where
  acyclic := h.acyclic
  parent := by
    intro f hf horg p hp
    obtain ⟨g, hg⟩ := Option.isSome_iff_exists.mp (h.parent f hf horg p hp)
    exact ⟨g, findFolderByUid_eq_some hg⟩
  depth := by
    intro chain hmem hchain
    have hlinks := h.uids_isChain hmem hchain
    rw [← @List.length_map _ _ chain (·.uid)]
    cases huids : chain.map (·.uid) with
    | nil => exact Nat.zero_le _
    | cons x rest =>
      rw [huids] at hlinks
      by_contra hlong
      rw [List.length_cons, Nat.not_le, Nat.lt_succ_iff] at hlong
      exact climb_of_chain hlinks (climb_none_of_le hlong (h.depth x))
  reachable := fun f hf horg => h.listed hf horg (h.depth f.uid)
  ancestors := h.run_listAncestors

theorem of_roots (hkeys : FolderKeys t) (hroots : ∀ f ∈ t.folders, f.parentUid = none) :
    FolderTree t orgId where
  toFolderKeys := hkeys
  parent := by
    intro f hf _ p hp
    rw [hroots f hf] at hp
    cases hp
  depth := by
    intro uid
    rw [show folderMaxDepth = 7 + 1 from rfl, climb_succ]
    cases hlink : parentOf t orgId uid with
    | none => rfl
    | some p =>
      obtain ⟨f, hf, -, -, hp⟩ := parentOf_eq_some hlink
      rw [hroots f hf] at hp
      cases hp

theorem of_empty (h₀ : t.folders = []) : FolderTree t orgId := by
  have hkeys : FolderKeys t := by
    constructor
    · rw [h₀]
      exact List.nodup_nil
    · rw [h₀]
      exact List.nodup_nil
    · simp [h₀]
  exact of_roots hkeys (by simp [h₀])

theorem step (h : FolderTree t orgId) {call : FolderCall} (hcall : call.NamesParent) :
    FolderTree ((call.code orgId).run t).2 orgId := by
  cases call with
  | create drawn input userId =>
    rw [FolderCall.code, Reads.run_snd fun _ => Reads.pure ()]
    exact FolderService.tree_create h drawn userId hcall
  | update fuel now uid patch userId =>
    rw [FolderCall.code, Reads.run_snd fun _ => Reads.pure ()]
    exact FolderService.tree_update h
  | delete fuel uid forceDeleteRules => exact FolderService.tree_delete h

end FolderTree

/-- **The tree invariant.** From a store without folders, calls of `create`, `update` and
`delete` in one org, one after the other and with any arguments, reach only trees, as long
as no new folder is given the empty text for a parent. -/
theorem folder_tree_invariant (orgId : String) (t₀ : Tables) (h₀ : t₀.folders = []) {t : Tables}
    (hrun : Serial (FolderCall.code orgId) (fun call _ => call.NamesParent) t₀ t) :
    FolderInvariant t orgId := by
  have htree : FolderTree t orgId :=
    Serial.invariant (I := (FolderTree · orgId)) (FolderTree.of_empty h₀)
      (fun call s h hcall => h.step hcall) hrun
  exact htree.folderInvariant

def newStore : Tables := { orgs := ["org_main"], users := ["ann"] }

def nestedCalls : List FolderCall :=
  [.create ⟨"f1", "2026-01-01", "r1", "s1"⟩ ⟨none, "Ops", none, none, none, none⟩ "ann",
    .create ⟨"f2", "2026-01-01", "r2", "s2"⟩ ⟨none, "Alerts", none, some "ops", none, none⟩ "ann",
    .update 9 "2026-01-02" "alerts" ⟨none, none, some none⟩ "ann"]

theorem folder_tree_invariant_nested :
    FolderInvariant (serveAll (FolderCall.code "org_main") nestedCalls newStore) "org_main" := by
  refine folder_tree_invariant "org_main" newStore rfl ?_
  refine Serial.of_allServed nestedCalls .init ⟨?_, ?_, trivial, trivial⟩
  · exact fun h => by cases h
  · exact fun h => absurd (Option.some.inj h) (by decide)

/-- The route hands on an empty `parentUid`, and the row keeps it. -/
def emptyParentCall : FolderCall :=
  .create ⟨"f1", "2026-01-01", "r1", "s1"⟩ ⟨none, "Ops", none, some "", none, none⟩ "ann"

/-- A folder under the empty text: its parent is no folder, and no root lists it. -/
theorem empty_parent_dangles :
    ¬ ∀ (orgId : String) (t₀ : Tables), t₀.folders = [] → ∀ t,
      Serial (FolderCall.code orgId) (fun _ _ => True) t₀ t → FolderInvariant t orgId := by
  intro hall
  have hinv := hall "org_main" newStore rfl _ (.serve emptyParentCall .init trivial)
  have hrow : (((emptyParentCall.code "org_main").run newStore).2.folders.map fun f =>
      (f.orgId, f.uid, f.parentUid)) = [("org_main", "ops", some "")] := by decide +kernel
  obtain ⟨f, rest, hfolders, hf, hrest⟩ := List.map_eq_cons_iff.mp hrow
  obtain ⟨horg, hf⟩ := Prod.mk.inj hf
  obtain ⟨huid, hparent⟩ := Prod.mk.inj hf
  rw [List.map_eq_nil_iff.mp hrest] at hfolders
  obtain ⟨g, hg, -, hempty⟩ :=
    hinv.parent f (by rw [hfolders]; exact List.mem_singleton_self f) horg "" hparent
  rw [hfolders, List.mem_singleton] at hg
  rw [hg, huid] at hempty
  exact absurd hempty (by decide)

end OpenObs.Folders
