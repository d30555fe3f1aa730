import OpenObs.Folders.Removal
import OpenObs.Foundation.Parts
import OpenObs.Folders.Routes
import OpenObs.Rules.Isolation

/-!
# Provisioned rules and folders

The requests that edit and remove rules and folders. Every one but `enable` refuses a
provisioned target. The deletion of a folder is the other way in: it asks about the
folder of the request, and takes what is below it.
-/

namespace OpenObs.Rules

open OpenObs.Foundation OpenObs.Resources OpenObs.Folders

/-! ## Requests -/

inductive EditRequest : Type where
  | putRule (now id : String) (body : Json.Record)
  | deleteRule (id : String)
  | disableRule (now id : String)
  | enableRule (now id : String)
  | putFolder (fuel : ℕ) (now uid : String) (body : Json.Record)
  | deleteFolder (fuel : ℕ) (uid : String) (forceDeleteRules : Option String)

def EditRequest.code (driver : Driver) (op : Caller × EditRequest) : Prog Tables Unit :=
  match op.2 with
  | .putRule now id body => do
      let _ ← Rules.putRule driver now op.1 id body
      return ()
  | .deleteRule id => do
      let _ ← Rules.deleteRule op.1 id
      return ()
  | .disableRule now id => do
      let _ ← Rules.disableRule driver now op.1 id
      return ()
  | .enableRule now id => do
      let _ ← Rules.enableRule driver now op.1 id
      return ()
  | .putFolder fuel now uid body => do
      let _ ← Folders.putFolder driver fuel now op.1 uid body
      return ()
  | .deleteFolder fuel uid forceDeleteRules => do
      let _ ← Folders.deleteFolder fuel op.1 uid forceDeleteRules
      return ()

structure Provisions (t₀ t : Tables) : Prop where
  rules : ∀ r ∈ t₀.alertRules, isProvisioned r.source = true → r ∈ t.alertRules
  folders : ∀ f ∈ t₀.folders, isProvisioned f.source = true → f ∈ t.folders

/-- An `enable` that gets through is one of a writable rule; a deletion that gets through has
nothing provisioned below its folder. -/
def EditRequest.Spares (op : Caller × EditRequest) (t : Tables) : Prop :=
  match op.2 with
  | .enableRule _ id =>
    op.1.allows t (.action "alert.rules:write" (ruleScope id)) = true →
    ∀ row, t.findRuleById id = some row → row.workspaceId = some op.1.orgId →
      isProvisioned row.source = false
  | .deleteFolder _ uid forceDeleteRules =>
    op.1.allows t (.action "folders:delete" (folderScope uid)) = true →
    (forces forceDeleteRules = true ∨
      ∀ r ∈ t.alertRules, r.orgId = op.1.orgId → ¬ LiesIn t op.1.orgId uid r.folderUid) →
    (∀ f ∈ t.folders, IsCut t op.1.orgId uid f → isProvisioned f.source = false) ∧
      ∀ r ∈ t.alertRules, r.orgId = op.1.orgId → LiesIn t op.1.orgId uid r.folderUid →
        isProvisioned r.source = false
  | _ => True

/-! ## What a request leaves -/

structure Pinned (t₀ t : Tables) : Prop extends FolderKeys t, Provisions t₀ t where
  ruleKeys : RuleKeys t

section Steps

variable {t₀ t : Tables} {driver : Driver} {caller : Caller}

theorem Pinned.editRule (h : Pinned t₀ t) {id : String} {row : AlertRule}
    (hrow : t.findRuleById id = some row) (hwritable : isProvisioned row.source = false)
    {edit : AlertRule → AlertRule} (hid : ∀ r, (edit r).id = r.id) :
    Pinned t₀ { t with alertRules := t.alertRules.map fun r => if r.id = id then edit r else r } where
  id := h.id
  uid := h.uid
  named := h.named
  folders := h.folders
  rules := by
    intro r hr hprovisioned
    have hmem := h.rules r hr hprovisioned
    refine List.mem_map.mpr ⟨r, hmem, ?_⟩
    apply if_neg
    intro hrid
    rw [eq_of_findRuleById h.ruleKeys hrow hmem hrid, hwritable] at hprovisioned
    cases hprovisioned
  ruleKeys := by
    show ((t.alertRules.map fun r => if r.id = id then edit r else r).map (·.id)).Nodup
    rw [List.map_map]
    have hsame : ((fun r : AlertRule => r.id) ∘ fun r => if r.id = id then edit r else r) =
        fun r => r.id := by
      ext r : 1
      show (if r.id = id then edit r else r).id = r.id
      split
      · exact hid r
      · rfl
    rw [hsame]
    exact h.ruleKeys

theorem Pinned.deleteRules (h : Pinned t₀ t) {gone : AlertRule → Bool}
    (hwritable : ∀ r ∈ t.alertRules, gone r = true → isProvisioned r.source = false) :
    Pinned t₀ (FolderService.deleteRules gone t) where
  id := h.id
  uid := h.uid
  named := h.named
  folders := h.folders
  rules := by
    intro r hr hprovisioned
    have hmem := h.rules r hr hprovisioned
    refine List.mem_filter.mpr ⟨hmem, ?_⟩
    rw [Bool.not_eq_true']
    by_contra hgone
    rw [hwritable r hmem (by simpa using hgone)] at hprovisioned
    cases hprovisioned
  ruleKeys := h.ruleKeys.sublist (List.filter_sublist.map _)

theorem Pinned.editFolder (h : Pinned t₀ t) {row : Folder} (hrow : row ∈ t.folders)
    (hwritable : isProvisioned row.source = false) {edit : Folder → Folder}
    (hedit : KeepsKeys edit) : Pinned t₀ (Folders.editFolder t row.id edit) where
  toFolderKeys := keys_editFolder h.toFolderKeys hedit
  rules := h.rules
  folders := by
    intro f hf hprovisioned
    have hmem := h.folders f hf hprovisioned
    refine List.mem_map.mpr ⟨f, hmem, ?_⟩
    apply if_neg
    intro hfid
    rw [List.inj_on_of_nodup_map h.id hmem hrow hfid, hwritable] at hprovisioned
    cases hprovisioned
  ruleKeys := h.ruleKeys

theorem Pinned.removed (h : Pinned t₀ t) {orgId uid : String} {uids : List String}
    (hmem : ∀ x, x ∈ uids ↔ Forest.Under (parentOf t orgId) x uid)
    (hfolders : ∀ f ∈ t.folders, IsCut t orgId uid f → isProvisioned f.source = false)
    (hrules : ∀ r ∈ t.alertRules, r.orgId = orgId → LiesIn t orgId uid r.folderUid →
      isProvisioned r.source = false) :
    Pinned t₀ (FolderService.removed t orgId uids) where
  toFolderKeys := @keys_cutFolders (emptied t orgId uids) orgId ⟨h.id, h.uid, h.named⟩ uids
  rules := by
    intro r hr hprovisioned
    have hmemr := h.rules r hr hprovisioned
    refine List.mem_filter.mpr ⟨hmemr, ?_⟩
    rw [Bool.not_eq_true']
    by_contra hgone
    rw [Bool.not_eq_false, Bool.and_eq_true, beq_iff_eq, inside_iff hmem] at hgone
    rw [hrules r hmemr hgone.1 hgone.2] at hprovisioned
    cases hprovisioned
  folders := by
    intro f hf hprovisioned
    have hmemf := h.folders f hf hprovisioned
    refine mem_cutFolders.mpr ⟨hmemf, ?_⟩
    rintro ⟨horg, huid⟩
    rw [hfolders f hmemf ⟨horg, (hmem _).mp huid⟩] at hprovisioned
    cases hprovisioned
  ruleKeys := h.ruleKeys.sublist (List.filter_sublist.map _)

theorem pinned_update (h : Pinned t₀ t) {now id : String} {patch : Json.Record} {row : AlertRule}
    (hrow : t.findRuleById id = some row) (hwritable : isProvisioned row.source = false) :
    Pinned t₀ ((AlertRuleRepository.update driver now id patch).run t).2 := by
  refine keep_update h hrow fun edit hmerge => ?_
  obtain ⟨_, -, hedit⟩ := AlertRuleRepository.merge_ok hmerge
  exact h.editRule hrow hwritable fun r => (hedit r).1

theorem pinned_writable (h : Pinned t₀ t) {e : Rbac.Evaluator} {refusal : Reply} {id : String}
    {k : AlertRule → Prog Tables Reply}
    (hk : ∀ row rule, t.findRuleById id = some row → isProvisioned row.source = false →
      Pinned t₀ ((k rule).run t).2) :
    Pinned t₀ ((permitted caller e refusal ((loadOwnedRule caller id) >>= fun rule =>
      match rule with
      | none => pure notFound
      | some rule => if isProvisioned rule.source then pure (provisioned rule) else k rule)).run
        t).2 := by
  refine keep_permitted h fun _ => keep_loaded h fun row rule hrow _ hsource => ?_
  split
  · exact h
  · rename_i hwritable
    refine hk row rule hrow ?_
    rw [hsource]
    simpa using hwritable

theorem keep_handleServiceError {P : Tables → Prop} {uid : String} {p : Prog Tables FolderReply}
    (h : P (p.run t).2) : P ((handleServiceError uid p).run t).2 :=
  Prog.keep_tryCatch h fun _ _ _ h' => h'

theorem pinned_putFolder (h : Pinned t₀ t) {fuel : ℕ} {now uid : String} {body : Json.Record} :
    Pinned t₀ ((putFolder driver fuel now caller uid body).run t).2 := by
  refine keep_permitted h fun _ => (Reads.read _).run_post (P := Pinned t₀) h fun found hfound => ?_
  cases hfound
  dsimp only
  cases hrow : t.findFolderByUid caller.orgId uid with
  | none => exact h
  | some existing =>
    dsimp only
    split
    · exact h
    · rename_i hwritable
      have hwritable' : isProvisioned existing.source = false := by simpa using hwritable
      refine keep_handleServiceError ?_
      cases patchOf driver body with
      | error e => exact h
      | ok patch =>
        dsimp only
        rw [Reads.run_snd fun _ => Reads.pure _]
        refine (Reads.read _).run_post (P := Pinned t₀) h fun found hfound => ?_
        cases hfound
        dsimp only
        rw [hrow]
        refine FolderService.reads_checkMove.run_post (P := Pinned t₀) h fun _ _ => ?_
        rw [Reads.run_snd fun updated => ?_]
        swap
        · cases updated with
          | none => exact Reads.throw _
          | some updated => exact Reads.pure updated
        obtain ⟨hmem, -, -⟩ := findFolderByUid_eq_some hrow
        rcases @Folders.run_update t h.toFolderKeys now _ existing hmem with
          ⟨e, herr⟩ | ⟨-, hedit⟩
        · rw [herr]
          exact h
        · rw [hedit]
          exact h.editFolder hmem hwritable' keepsKeys_merge

theorem pinned_deleteFolder (h : Pinned t₀ t) {fuel : ℕ} {uid : String}
    {forceDeleteRules : Option String}
    (hspares : EditRequest.Spares (caller, .deleteFolder fuel uid forceDeleteRules) t) :
    Pinned t₀ ((deleteFolder fuel caller uid forceDeleteRules).run t).2 := by
  refine keep_permitted h fun hpass =>
    (Reads.read _).run_post (P := Pinned t₀) h fun found hfound => ?_
  cases hfound
  have hremove : Pinned t₀ ((removeFolder fuel caller uid forceDeleteRules).run t).2 := by
    refine keep_handleServiceError ?_
    rw [Reads.run_snd fun _ => Reads.pure _]
    rcases @FolderService.run_delete t caller.orgId uid h.toFolderKeys fuel
      (forces forceDeleteRules) with ⟨e, herr⟩ | ⟨uids, hmem, hforce, hok⟩
    · rw [herr]
      exact h
    · have hunder : ∀ x, x ∈ uids ↔ Forest.Under (parentOf t caller.orgId) x uid := by
        intro x
        rw [hmem, Forest.under_iff_eq_or_above]
      have hgoes : forces forceDeleteRules = true ∨
          ∀ r ∈ t.alertRules, r.orgId = caller.orgId → ¬ LiesIn t caller.orgId uid r.folderUid := by
        refine hforce.imp id fun hnone r hr horg hlies => hnone ⟨r, hr, horg, ?_⟩
        exact (inside_iff hunder).mpr hlies
      obtain ⟨hfolders, hrules⟩ := hspares hpass hgoes
      rw [hok]
      exact h.removed hunder hfolders hrules
  dsimp only
  cases t.findFolderByUid caller.orgId uid with
  | none => exact hremove
  | some existing =>
    dsimp only
    split
    · exact h
    · exact hremove

theorem pinned_request (h : Pinned t₀ t) {op : Caller × EditRequest}
    (hspares : EditRequest.Spares op t) :
    Pinned t₀ ((EditRequest.code driver op).run t).2 := by
  obtain ⟨caller, req⟩ := op
  cases req with
  | putRule now id body =>
    rw [EditRequest.code, Prog.run_discard]
    refine pinned_writable h fun row rule hrow hwritable => ?_
    rw [Reads.run_snd fun _ => Reads.pure _]
    exact pinned_update h hrow hwritable
  | deleteRule id =>
    rw [EditRequest.code, Prog.run_discard]
    refine pinned_writable h fun row rule hrow hwritable => ?_
    rw [Reads.run_snd fun _ => Reads.pure _, AlertRuleRepository.delete,
      AlertRuleRepository.findById, Prog.run_bind, Prog.run_read, hrow]
    refine h.deleteRules fun r hr hgone => ?_
    rw [eq_of_findRuleById h.ruleKeys hrow hr (by simpa using hgone)]
    exact hwritable
  | disableRule now id =>
    rw [EditRequest.code, Prog.run_discard]
    refine pinned_writable h fun row rule hrow hwritable => ?_
    rw [Reads.run_snd fun _ => Reads.pure _]
    exact pinned_update h hrow hwritable
  | enableRule now id =>
    rw [EditRequest.code, Prog.run_discard]
    refine keep_permitted h fun hpass => keep_loaded h fun row rule hrow hown _ => ?_
    rw [Reads.run_snd fun _ => Reads.pure _]
    exact pinned_update h hrow (hspares hpass row hrow hown)
  | putFolder fuel now uid body =>
    rw [EditRequest.code, Prog.run_discard]
    exact pinned_putFolder h
  | deleteFolder fuel uid forceDeleteRules =>
    rw [EditRequest.code, Prog.run_discard]
    exact pinned_deleteFolder h hspares

end Steps

/-! ## Sequences of requests -/

/-- **Provisioned rows stay.** However the rules and folders are edited and removed, the
provisioned ones are there unchanged, as long as no `enable` gets to a provisioned rule and no
deletion to a folder with something provisioned below it. -/
theorem provisioned_rows_stay (driver : Driver) (t₀ : Tables) (hrules : RuleKeys t₀)
    (hfolders : FolderKeys t₀) (t : Tables)
    (hrun : Serial (EditRequest.code driver) EditRequest.Spares t₀ t) : Provisions t₀ t := by
  have hpinned : Pinned t₀ t :=
    Serial.invariant (I := Pinned t₀)
      { hfolders with
        ruleKeys := hrules
        rules := fun _ hr _ => hr
        folders := fun _ hf _ => hf }
      (fun _ _ h hspares => pinned_request h hspares) hrun
  exact hpinned.toProvisions

def provisionedStore : Tables where
  orgs := ["org_a"]
  users := ["ann"]
  folders :=
    [⟨"f1", "base", "org_a", "Base", none, none, "", "", none, none, .provisionedFile, none⟩,
      ⟨"f2", "mine", "org_a", "Mine", none, none, "", "", none, none, .manual, none⟩]
  alertRules :=
    [{ id := "alert_p", name := "P", description := "", condition := .null, state := "disabled",
       workspaceId := some "org_a", source := .provisionedFile }]

theorem provisionedStore_keys : RuleKeys provisionedStore ∧ FolderKeys provisionedStore := by
  refine ⟨?_, ⟨by decide, by decide, by decide⟩⟩
  show ["alert_p"].Nodup
  decide

def editsOfA : List (Caller × EditRequest) :=
  [(editorOfA, .deleteFolder 9 "mine" (some "true")),
    (editorOfA, .putRule "2026-01-01" "alert_p" [("name", .str "Q")]),
    (editorOfA, .putFolder 9 "2026-01-02" "base" [("title", .str "Moved")])]

theorem provisioned_rows_stay_edits :
    Provisions provisionedStore
      (serveAll (EditRequest.code sqliteDriver) editsOfA provisionedStore) := by
  refine provisioned_rows_stay sqliteDriver provisionedStore provisionedStore_keys.1
    provisionedStore_keys.2 _ ?_
  refine Serial.of_allServed editsOfA .init ⟨fun _ _ => ⟨?_, ?_⟩, trivial, trivial, trivial⟩
  · rintro f hf ⟨-, hunder⟩
    rcases List.mem_pair.mp hf with rfl | rfl
    · -- the provisioned folder is a root of its own
      rcases Forest.under_iff_eq_or_above.mp hunder with heq | ⟨n, hn⟩
      · exact absurd heq (by decide)
      · cases hn
    · rfl
  · intro r hr horg
    rw [List.mem_singleton.mp hr] at horg
    exact absurd horg (by decide)

/-- A disabled rule from a file is enabled. -/
theorem enable_edits_provisioned :
    ¬ ∀ (driver : Driver) (t₀ : Tables), RuleKeys t₀ → FolderKeys t₀ → ∀ t,
      Serial (EditRequest.code driver) (fun _ _ => True) t₀ t → Provisions t₀ t := by
  intro hall
  have hstays := hall sqliteDriver provisionedStore provisionedStore_keys.1 provisionedStore_keys.2 _
    (.serve (editorOfA, .enableRule "2026-01-01" "alert_p") .init trivial)
  have hmem := hstays.rules _ (List.mem_singleton.mpr rfl) rfl
  have hstate := List.mem_map_of_mem (f := fun r : AlertRule => r.state) hmem
  exact absurd hstate (by decide +kernel)

end OpenObs.Rules
