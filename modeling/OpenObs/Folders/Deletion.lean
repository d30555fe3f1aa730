import OpenObs.Folders.Traversal

/-!
# What a deletion does

The transaction of `delete` removes, uid by uid, the dashboards and the rules the
columns `org_id` and `folder_uid` place in a folder, the ACL rows of the folder's
id, and last the folders. Run alone it comes to one filter for each table.
-/

namespace OpenObs.Folders

open OpenObs.Foundation OpenObs.Foundation.Forest OpenObs.Resources FolderRepository

section Folders

variable {t : Tables} {orgId : String}

def cutFolders (t : Tables) (orgId : String) (uids : List String) : Tables :=
  { t with folders := t.folders.filter fun f => !(f.orgId == orgId && decide (f.uid ∈ uids)) }

theorem mem_cutFolders {uids : List String} {f : Folder} :
    f ∈ (cutFolders t orgId uids).folders ↔
      f ∈ t.folders ∧ ¬ (f.orgId = orgId ∧ f.uid ∈ uids) := by
  rw [cutFolders, List.mem_filter]
  simp only [Bool.not_eq_true', Bool.and_eq_false_iff, beq_eq_false_iff_ne, ne_eq,
    decide_eq_false_iff_not, not_and_or]

theorem keys_cutFolders (h : FolderKeys t) {uids : List String} :
    FolderKeys (cutFolders t orgId uids) where
  id := h.id.sublist (List.filter_sublist.map _)
  uid := h.uid.sublist (List.filter_sublist.map _)
  named := fun f hf => h.named f (mem_cutFolders.mp hf).1

theorem findFolderByUid_cutFolders (h : FolderKeys t) {uids : List String} {uid : String}
    {f : Folder} (hf : t.findFolderByUid orgId uid = some f) (hkept : uid ∉ uids) :
    (cutFolders t orgId uids).findFolderByUid orgId uid = some f := by
  obtain ⟨hmem, horg, rfl⟩ := findFolderByUid_eq_some hf
  apply findFolderByUid_of_mem (keys_cutFolders h) _ horg
  exact mem_cutFolders.mpr ⟨hmem, fun hcut => hkept hcut.2⟩

theorem parentOf_cutFolders (h : FolderKeys t) {uids : List String} (x y : String)
    (hlink : parentOf (cutFolders t orgId uids) orgId x = some y) : parentOf t orgId x = some y := by
  obtain ⟨f, hf, horg, rfl, hparent⟩ := parentOf_eq_some hlink
  rw [parentOf_of_find (findFolderByUid_of_mem h (mem_cutFolders.mp hf).1 horg), hparent]

end Folders

/-! ## The contents -/

def inside (uids : List String) (folderUid : Option String) : Bool := folderUid.any (· ∈ uids)

def guards (t : Tables) (orgId : String) (uids : List String) (a : FolderAcl) : Bool :=
  uids.any fun uid => (t.findFolderByUid orgId uid).any fun f => a.folderId == some f.id

def emptied (t : Tables) (orgId : String) (uids : List String) : Tables :=
  { t with
    dashboards := t.dashboards.filter fun d => !(d.orgId == orgId && inside uids d.folderUid)
    alertRules := t.alertRules.filter fun r => !(r.orgId == orgId && inside uids r.folderUid)
    alertHistory := t.alertHistory.filter fun h =>
      !(t.alertRules.any fun r => (r.orgId == orgId && inside uids r.folderUid) && r.id == h.ruleId)
    dashboardAcl := t.dashboardAcl.filter fun a => !(a.orgId == orgId && guards t orgId uids a) }

section Contents

variable {t : Tables} {orgId : String}

theorem inside_append {us vs : List String} {v : Option String} :
    inside (us ++ vs) v = (inside us v || inside vs v) := by
  cases v with
  | none => rfl
  | some v => simp [inside]

theorem inside_singleton {uid : String} {v : Option String} :
    inside [uid] v = (v == some uid) := by
  cases v with
  | none => rfl
  | some v => simp [inside, Bool.beq_eq_decide_eq]

theorem emptied_nil : emptied t orgId [] = t := by
  have hnone (l : List AlertRule) : (l.any fun _ => false) = false := by
    simp
  simp [emptied, inside, guards, hnone]

theorem emptied_append {us vs : List String} :
    emptied (emptied t orgId us) orgId vs = emptied t orgId (us ++ vs) := by
  simp only [emptied, List.filter_filter, inside_append]
  congr 1
  · apply List.filter_congr
    intro d _
    cases d.orgId == orgId <;> cases inside us d.folderUid <;> cases inside vs d.folderUid <;> rfl
  · apply List.filter_congr
    intro r _
    cases r.orgId == orgId <;> cases inside us r.folderUid <;> cases inside vs r.folderUid <;> rfl
  · apply List.filter_congr
    intro h _
    rw [Bool.eq_iff_iff]
    simp only [List.any_filter, Bool.and_eq_true, Bool.not_eq_true', List.any_eq_false]
    grind
  · apply List.filter_congr
    intro a _
    have hguards : guards t orgId (us ++ vs) a = (guards t orgId us a || guards t orgId vs a) :=
      List.any_append
    rw [hguards]
    show (!(a.orgId == orgId && guards t orgId vs a) && !(a.orgId == orgId && guards t orgId us a)) = _
    cases a.orgId == orgId <;> cases guards t orgId us a <;> cases guards t orgId vs a <;> rfl

theorem run_deleteContents {uid : String} :
    (FolderService.deleteContents orgId uid).run t = (.ok (), emptied t orgId [uid]) := by
  have hwrite {f : Tables → Tables} {p : Unit → Prog Tables Unit} {t : Tables} :
      (Prog.write f >>= p).run t = (p ()).run (f t) := rfl
  rw [FolderService.deleteContents, hwrite, hwrite]
  show (Prog.bind (.ret (t.findFolderByUid orgId uid)) _).run _ = _
  simp only [emptied, inside_singleton, guards, List.any_cons, List.any_nil, Bool.or_false]
  cases t.findFolderByUid orgId uid with
  | none => simp [Prog.bind, FolderService.deleteRules]
  | some folder => rfl

theorem run_deleteEach {uids : List String} :
    ∀ {t : Tables}, (FolderService.deleteEach orgId uids).run t = (.ok (), emptied t orgId uids) := by
  induction uids with
  | nil =>
    intro t
    rw [emptied_nil]
    rfl
  | cons uid uids ih =>
    intro t
    rw [FolderService.deleteEach, Prog.run_bind, run_deleteContents]
    dsimp only
    rw [ih, emptied_append, List.singleton_append]

theorem run_deleteFolders {uids : List String} : ∀ {t : Tables},
    (FolderService.deleteFolders orgId uids).run t = (.ok (), cutFolders t orgId uids) := by
  induction uids with
  | nil =>
    intro t
    simp [FolderService.deleteFolders, cutFolders]
  | cons uid uids ih =>
    intro t
    have hfirst : (FolderService.deleteFolders orgId (uid :: uids)).run t =
        (FolderService.deleteFolders orgId uids).run
          { t with folders := t.folders.filter fun f => !(f.orgId == orgId && f.uid == uid) } := rfl
    rw [hfirst, ih, cutFolders, cutFolders, List.filter_filter]
    congr 3
    ext f
    rw [Bool.eq_iff_iff]
    simp only [List.mem_cons, Bool.and_eq_true, Bool.not_eq_true', Bool.and_eq_false_iff,
      beq_eq_false_iff_ne, decide_eq_false_iff_not]
    grind

theorem cutFolders_reverse {uids : List String} :
    cutFolders t orgId uids.reverse = cutFolders t orgId uids := by
  simp only [cutFolders, List.mem_reverse]

end Contents

namespace FolderService

variable {t : Tables} {orgId uid : String}

def HoldsRule (t : Tables) (orgId : String) (uids : List String) : Prop :=
  ∃ r ∈ t.alertRules, r.orgId = orgId ∧ inside uids r.folderUid = true

def removed (t : Tables) (orgId : String) (uids : List String) : Tables :=
  cutFolders (emptied t orgId uids) orgId uids

theorem run_countAlertRulesInFolders {uids : List String} :
    ∃ n, (countAlertRulesInFolders orgId uids).run t = (.ok n, t) ∧
      (0 < n ↔ HoldsRule t orgId uids) := by
  refine ⟨_, rfl, ?_⟩
  rw [List.length_pos_iff_exists_mem, HoldsRule]
  simp only [List.mem_filter, decide_eq_true_eq, inside]

theorem run_delete_found {fuel : ℕ} {force : Bool} {folder : Folder} {descendants : List String}
    (hfolder : t.findFolderByUid orgId uid = some folder)
    (hlist : (listDescendantUids fuel orgId uid).run t = (.ok descendants, t)) :
    ∃ uids, (∀ x, x ∈ uids ↔ x = uid ∨ x ∈ descendants) ∧
      ((force = false ∧ HoldsRule t orgId uids ∧
          ∃ e, (delete fuel orgId uid force).run t = (.error e, t)) ∨
        ((force = true ∨ ¬ HoldsRule t orgId uids) ∧
          (delete fuel orgId uid force).run t = (.ok (), removed t orgId uids))) := by
  refine ⟨uid :: descendants.filter (· ≠ uid), fun x => ?_, ?_⟩
  · rw [List.mem_cons, List.mem_filter, decide_eq_true_eq]
    by_cases hx : x = uid <;> simp [hx]
  rw [delete, Prog.run_bind, findByUid, Prog.run_read, hfolder]
  dsimp only
  rw [Prog.run_bind, hlist]
  dsimp only
  obtain ⟨n, hcount, hpos⟩ :=
    @run_countAlertRulesInFolders t orgId (uid :: descendants.filter (· ≠ uid))
  rw [Prog.run_bind, hcount]
  dsimp only
  split
  · rename_i h
    exact Or.inl ⟨h.2, hpos.mp h.1, _, rfl⟩
  · rename_i h
    right
    refine ⟨?_, ?_⟩
    · rw [← hpos]
      cases force with
      | true => exact Or.inl rfl
      | false => exact Or.inr fun hn => h ⟨hn, rfl⟩
    · rw [Prog.run_bind, run_deleteEach]
      dsimp only
      rw [run_deleteFolders, cutFolders_reverse, removed]

theorem run_delete_missing {fuel : ℕ} {force : Bool} (hnone : t.findFolderByUid orgId uid = none) :
    ∃ e, (delete fuel orgId uid force).run t = (.error e, t) := by
  rw [delete, Prog.run_bind, findByUid, Prog.run_read, hnone]
  exact ⟨_, rfl⟩

theorem run_delete_listed {fuel : ℕ} {force : Bool} :
    (∃ e, (delete fuel orgId uid force).run t = (.error e, t)) ∨
    ∃ uids descendants, (listDescendantUids fuel orgId uid).run t = (.ok descendants, t) ∧
      (∀ x, x ∈ uids ↔ x = uid ∨ x ∈ descendants) ∧
      (force = true ∨ ¬ HoldsRule t orgId uids) ∧
      (delete fuel orgId uid force).run t = (.ok (), removed t orgId uids) := by
  cases hfolder : t.findFolderByUid orgId uid with
  | none => exact Or.inl (run_delete_missing hfolder)
  | some folder =>
    cases hlist : (listDescendantUids fuel orgId uid).run t with
    | mk r t' =>
      have hst : t' = t := by
        rw [← (reads_listDescendantUids).run t, hlist]
      subst hst
      cases r with
      | error e =>
        left
        refine ⟨e, ?_⟩
        rw [delete, Prog.run_bind, findByUid, Prog.run_read, hfolder]
        dsimp only
        rw [Prog.run_bind, hlist]
      | ok descendants =>
        obtain ⟨uids, hmem, hrun⟩ := @run_delete_found _ _ _ _ force _ _ hfolder hlist
        rcases hrun with ⟨-, -, herr⟩ | ⟨hforce, hok⟩
        · exact Or.inl herr
        · exact Or.inr ⟨uids, descendants, rfl, hmem, hforce, hok⟩

theorem run_delete (hkeys : FolderKeys t) {fuel : ℕ} {force : Bool} :
    (∃ e, (delete fuel orgId uid force).run t = (.error e, t)) ∨
    ∃ uids, (∀ x, x ∈ uids ↔ x = uid ∨ Above (parentOf t orgId) x uid) ∧
      (force = true ∨ ¬ HoldsRule t orgId uids) ∧
      (delete fuel orgId uid force).run t = (.ok (), removed t orgId uids) := by
  rcases @run_delete_listed t orgId uid fuel force with
    herr | ⟨uids, descendants, hlist, hmem, hforce, hok⟩
  · exact Or.inl herr
  · refine Or.inr ⟨uids, fun x => ?_, hforce, hok⟩
    rw [hmem, listDescendantUids_exact hkeys hlist]

end FolderService

end OpenObs.Folders
