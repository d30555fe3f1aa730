import OpenObs.Rules.Routes
import OpenObs.Rules.Tenancy

/-!
# Rules of other workspaces

What the writing requests of one org leave alone. A row of another workspace is
never loaded, so no request edits or deletes it, and new rows carry the org of
the caller. A `PUT` alone can add to the rows of another workspace: it moves the
row it loaded there.
-/

namespace OpenObs.Rules

open OpenObs.Foundation OpenObs.Resources OpenObs.Folders

def RuleKeys (t : Tables) : Prop := (t.alertRules.map (·.id)).Nodup

def isForeign (orgId : String) (r : AlertRule) : Bool := r.workspaceId.any (· ≠ orgId)

def foreignRules (orgId : String) (t : Tables) : List AlertRule :=
  t.alertRules.filter (isForeign orgId)

def Untouched (orgId : String) (t₀ t : Tables) : Prop :=
  RuleKeys t ∧ foreignRules orgId t = foreignRules orgId t₀

section Steps

variable {orgId : String} {t₀ t : Tables}

theorem findRuleById_eq_some {id : String} {row : AlertRule} (h : t.findRuleById id = some row) :
    row ∈ t.alertRules ∧ row.id = id :=
  ⟨List.mem_of_find?_eq_some h, by simpa using List.find?_some h⟩

theorem eq_of_findRuleById (hkeys : RuleKeys t) {id : String} {row : AlertRule}
    (h : t.findRuleById id = some row) {r : AlertRule} (hr : r ∈ t.alertRules) (hid : r.id = id) :
    r = row := by
  obtain ⟨hmem, hrow⟩ := findRuleById_eq_some h
  exact List.inj_on_of_nodup_map hkeys hr hmem (hid.trans hrow.symm)

theorem Untouched.append (h : Untouched orgId t₀ t) {row : AlertRule}
    (hid : row.id ∉ t.alertRules.map (·.id)) (hrow : isForeign orgId row = false) :
    Untouched orgId t₀ { t with alertRules := t.alertRules ++ [row] } := by
  obtain ⟨hkeys, hforeign⟩ := h
  constructor
  · show ((t.alertRules ++ [row]).map (·.id)).Nodup
    rw [List.map_append, List.map_singleton]
    refine List.nodup_append.mpr ⟨hkeys, List.nodup_singleton _, fun a ha b hb hab => ?_⟩
    rw [List.mem_singleton.mp hb] at hab
    exact hid (hab ▸ ha)
  · rw [← hforeign, foreignRules, foreignRules, List.filter_append, List.filter_singleton, hrow]
    simp

theorem Untouched.edit (h : Untouched orgId t₀ t) {id : String} {row : AlertRule}
    (hrow : t.findRuleById id = some row) (hown : isForeign orgId row = false)
    {edit : AlertRule → AlertRule} (hid : ∀ r, (edit r).id = r.id)
    (hedit : isForeign orgId (edit row) = false) :
    Untouched orgId t₀
      { t with alertRules := t.alertRules.map fun r => if r.id = id then edit r else r } := by
  obtain ⟨hkeys, hforeign⟩ := h
  constructor
  · show ((t.alertRules.map fun r => if r.id = id then edit r else r).map (·.id)).Nodup
    rw [List.map_map]
    have hsame : ((fun r : AlertRule => r.id) ∘ fun r => if r.id = id then edit r else r) =
        fun r => r.id := by
      ext r : 1
      show (if r.id = id then edit r else r).id = r.id
      split
      · exact hid r
      · rfl
    rw [hsame]
    exact hkeys
  · rw [← hforeign, foreignRules, foreignRules, List.filter_map]
    have hpred : t.alertRules.filter (isForeign orgId ∘ fun r => if r.id = id then edit r else r) =
        t.alertRules.filter (isForeign orgId) := by
      apply List.filter_congr
      intro r hr
      show isForeign orgId (if r.id = id then edit r else r) = isForeign orgId r
      split
      · rename_i hrid
        rw [eq_of_findRuleById hkeys hrow hr hrid, hedit, hown]
      · rfl
    rw [hpred]
    -- of the rows that are left none is the edited one
    have hfix : ∀ r ∈ t.alertRules.filter (isForeign orgId),
        (if r.id = id then edit r else r) = r := by
      intro r hr
      obtain ⟨hmem, hr'⟩ := List.mem_filter.mp hr
      rw [if_neg]
      intro hrid
      rw [eq_of_findRuleById hkeys hrow hmem hrid, hown] at hr'
      cases hr'
    rw [List.map_congr_left hfix, List.map_id']

theorem Untouched.remove (h : Untouched orgId t₀ t) {id : String} {row : AlertRule}
    (hrow : t.findRuleById id = some row) (hown : isForeign orgId row = false) :
    Untouched orgId t₀ (FolderService.deleteRules (·.id == id) t) := by
  obtain ⟨hkeys, hforeign⟩ := h
  constructor
  · exact hkeys.sublist (List.filter_sublist.map _)
  · rw [← hforeign, foreignRules, foreignRules, FolderService.deleteRules, List.filter_filter]
    apply List.filter_congr
    intro r hr
    by_cases hrid : r.id = id
    · rw [eq_of_findRuleById hkeys hrow hr hrid, hown]
      rfl
    · simp [hrid]

theorem Untouched.folders (h : Untouched orgId t₀ t) {t' : Tables}
    (hrules : t'.alertRules = t.alertRules) : Untouched orgId t₀ t' := by
  rw [Untouched, RuleKeys, foreignRules, hrules]
  exact h

end Steps

/-! ## Handlers -/

section Handlers

variable {driver : Driver} {caller : Caller} {orgId : String} {t₀ t : Tables}

theorem isForeign_own {row : AlertRule} (h : row.workspaceId = some orgId) :
    isForeign orgId row = false := by
  rw [isForeign, h]
  simp

theorem reads_loadOwnedRule {id : String} : Reads (loadOwnedRule caller id) := by
  refine (Reads.read _).bind fun rule => ?_
  cases rule with
  | none => exact Reads.pure none
  | some rule =>
    dsimp only
    split
    · exact Reads.pure none
    · exact Reads.pure (some rule)

theorem loadOwnedRule_some {id : String} {rule : AlertRule}
    (h : (loadOwnedRule caller id).run t = (.ok (some rule), t)) :
    ∃ row, t.findRuleById id = some row ∧ row.workspaceId = some caller.orgId ∧
      row.source = rule.source := by
  rw [loadOwnedRule, AlertRuleRepository.findById, Prog.run_bind, Prog.run_read] at h
  cases hrow : t.findRuleById id with
  | none =>
    rw [hrow] at h
    cases h
  | some row =>
    rw [hrow] at h
    dsimp only [Option.map_some] at h
    split at h
    · cases h
    · rename_i hown
      cases h
      exact ⟨row, rfl, Decidable.not_not.mp hown, rfl⟩

theorem untouched_create (h : Untouched orgId t₀ t) (drawn : DrawnRule) {data : NewAlertRule}
    (hdata : data.workspaceId = some orgId) :
    Untouched orgId t₀ ((AlertRuleRepository.create driver drawn data).run t).2 := by
  rcases AlertRuleRepository.run_create driver drawn data t with
    ⟨e, herr⟩ | ⟨row, hrow, hfresh, hok⟩
  · rw [herr]
    exact h
  · rw [hok]
    obtain ⟨-, -, hworkspace, -⟩ := AlertRuleRepository.newRow_ok hrow
    exact h.append hfresh (isForeign_own (hworkspace.trans hdata))

theorem keep_update {P : Tables → Prop} (h : P t) {now id : String} {patch : Json.Record}
    {row : AlertRule} (hrow : t.findRuleById id = some row)
    (hedit : ∀ edit, AlertRuleRepository.merge driver now patch (rowToRule row) = .ok edit →
      P { t with alertRules := t.alertRules.map fun r => if r.id = id then edit r else r }) :
    P ((AlertRuleRepository.update driver now id patch).run t).2 := by
  rw [AlertRuleRepository.update, AlertRuleRepository.findById, Prog.run_bind, Prog.run_read, hrow]
  dsimp only [Option.map_some]
  rw [AlertRuleRepository.store, Prog.run_attempt]
  cases hmerge : AlertRuleRepository.merge driver now patch (rowToRule row) with
  | error e => exact h
  | ok edit => exact hedit edit hmerge

theorem untouched_update (h : Untouched orgId t₀ t) {now id : String} {patch : Json.Record}
    {row : AlertRule} (hrow : t.findRuleById id = some row) (hown : row.workspaceId = some orgId)
    (hpatch : ∀ w, AlertRuleRepository.optional driver patch "workspaceId" (some orgId) =
      .ok (some w) → w = orgId) :
    Untouched orgId t₀ ((AlertRuleRepository.update driver now id patch).run t).2 := by
  refine keep_update h hrow fun edit hmerge => ?_
  obtain ⟨workspaceId, hworkspace, hedit⟩ := AlertRuleRepository.merge_ok hmerge
  refine h.edit hrow (isForeign_own hown) (fun r => (hedit r).1) ?_
  have hsame : (rowToRule row).workspaceId = some orgId := hown
  rw [hsame] at hworkspace
  rw [isForeign, (hedit row).2.2.2]
  cases workspaceId with
  | none => rfl
  | some w => simp [hpatch w hworkspace]

theorem optional_state (value : Json) (w : String)
    (h : AlertRuleRepository.optional driver [("state", value)] "workspaceId" (some orgId) =
      .ok (some w)) : w = orgId := by
  cases h
  rfl

theorem untouched_delete (h : Untouched orgId t₀ t) {id : String} {row : AlertRule}
    (hrow : t.findRuleById id = some row) (hown : row.workspaceId = some orgId) :
    Untouched orgId t₀ ((AlertRuleRepository.delete id).run t).2 := by
  rw [AlertRuleRepository.delete, AlertRuleRepository.findById, Prog.run_bind, Prog.run_read, hrow]
  exact h.remove hrow (isForeign_own hown)

theorem keep_permitted {α : Type} {P : Tables → Prop} (h : P t) {e : Rbac.Evaluator} {refusal : α}
    {handler : Prog Tables α} (hhandler : caller.allows t e = true → P (handler.run t).2) :
    P ((permitted caller e refusal handler).run t).2 := by
  refine (Reads.read _).run_post (P := P) h fun allowed hallowed => ?_
  cases hallowed
  split
  · rename_i hpass
    exact hhandler hpass
  · exact h

theorem keep_loaded {P : Tables → Prop} (h : P t) {id : String} {k : AlertRule → Prog Tables Reply}
    (hk : ∀ row rule, t.findRuleById id = some row → row.workspaceId = some caller.orgId →
      row.source = rule.source → P ((k rule).run t).2) :
    P (((loadOwnedRule caller id) >>= fun rule =>
      match rule with
      | none => pure notFound
      | some rule => k rule).run t).2 := by
  refine reads_loadOwnedRule.run_post (P := P) h fun rule hrule => ?_
  cases rule with
  | none => exact h
  | some rule =>
    obtain ⟨row, hrow, hown, hsource⟩ := loadOwnedRule_some hrule
    exact hk row rule hrow hown hsource

theorem keeps_resolveAlertRuleFolderUid {β : Type} (rows : Tables → β)
    (hrows : ∀ t row, rows (addFolder t row) = rows t) {drawn : Drawn} {workspaceId : String}
    {userId requested : Option String} :
    rows ((resolveAlertRuleFolderUid drawn workspaceId userId requested).run t).2 = rows t := by
  rw [resolveAlertRuleFolderUid]
  split
  · rfl
  · refine (Reads.read _).run_post (P := fun s => rows s = rows t) rfl fun found _ => ?_
    cases found with
    | some existing => rfl
    | none =>
      dsimp only
      rw [Reads.run_snd fun _ => Reads.pure _]
      rcases run_create drawn.id drawn.now _ with ⟨e, herr⟩ | ⟨-, -, hok⟩
      · rw [herr]
      · rw [hok]
        exact hrows t _

end Handlers

/-! ## Sequences of requests -/

/-- A `PUT` that reaches the store writes no workspace but the own one, or none. -/
def RuleRequest.KeepsWorkspace (driver : Driver) (caller : Caller) (t : Tables) :
    RuleRequest → Prop
  | .put _ id body =>
    caller.allows t (.action "alert.rules:write" (ruleScope id)) = true →
    ∀ row, t.findRuleById id = some row → row.workspaceId = some caller.orgId →
      isProvisioned row.source = false →
      ∀ w, AlertRuleRepository.optional driver body "workspaceId" (some caller.orgId) =
        .ok (some w) → w = caller.orgId
  | _ => True

theorem untouched_request {driver : Driver} {orgId : String} {t₀ t : Tables}
    (h : Untouched orgId t₀ t) {caller : Caller} (hcaller : caller.orgId = orgId)
    {req : RuleRequest} (hreq : req.KeepsWorkspace driver caller t) :
    Untouched orgId t₀ ((req.code driver caller).run t).2 := by
  subst hcaller
  cases req with
  | post drawn drawnFolder body =>
    refine keep_permitted h fun _ => ?_
    split
    · exact h
    · rw [Prog.run_bind]
      have hfolders := @keeps_resolveAlertRuleFolderUid t _ (·.alertRules) (fun _ _ => rfl)
        drawnFolder caller.orgId caller.userId ((Json.field body "folderUid").bind Json.asString)
      cases hrun : (resolveAlertRuleFolderUid drawnFolder caller.orgId caller.userId
          ((Json.field body "folderUid").bind Json.asString)).run t with
      | mk r t' =>
        rw [hrun] at hfolders
        cases r with
        | error e => exact h.folders hfolders
        | ok folderUid =>
          dsimp only
          rw [Reads.run_snd fun _ => Reads.pure _]
          exact untouched_create (h.folders hfolders) drawn rfl
  | fork drawn id body =>
    refine keep_permitted h fun _ => keep_loaded h fun row rule _ _ _ => ?_
    dsimp only
    rw [Reads.run_snd fun _ => Reads.pure _]
    exact untouched_create h drawn rfl
  | put now id body =>
    refine keep_permitted h fun hpass => keep_loaded h fun row rule hrow hown hsrc => ?_
    split
    · exact h
    · rename_i hwritable
      rw [Reads.run_snd fun _ => Reads.pure _]
      have hsource : isProvisioned row.source = false := by
        rw [hsrc]
        simpa using hwritable
      exact untouched_update h hrow hown (hreq hpass row hrow hown hsource)
  | delete id =>
    refine keep_permitted h fun _ => keep_loaded h fun row rule hrow hown _ => ?_
    split
    · exact h
    · rw [Reads.run_snd fun _ => Reads.pure _]
      exact untouched_delete h hrow hown
  | disable now id =>
    refine keep_permitted h fun _ => keep_loaded h fun row rule hrow hown _ => ?_
    split
    · exact h
    · rw [Reads.run_snd fun _ => Reads.pure _]
      exact untouched_update h hrow hown (optional_state _)
  | enable now id =>
    refine keep_permitted h fun _ => keep_loaded h fun row rule hrow hown _ => ?_
    rw [Reads.run_snd fun _ => Reads.pure _]
    exact untouched_update h hrow hown (optional_state _)

/-- **Isolation of the routes.** However many writing requests identities of one org make,
the rules of the other workspaces are what they were, as long as no `PUT` that reaches the
store names another workspace. -/
theorem routes_leave_other_workspaces (driver : Driver) (orgId : String) (t₀ : Tables)
    (h₀ : RuleKeys t₀) {t : Tables}
    (hrun : Serial (fun op : Caller × RuleRequest => op.2.code driver op.1)
      (fun op s => op.1.orgId = orgId ∧ op.2.KeepsWorkspace driver op.1 s) t₀ t) :
    foreignRules orgId t = foreignRules orgId t₀ := by
  have huntouched : Untouched orgId t₀ t :=
    Serial.invariant (I := Untouched orgId t₀) ⟨h₀, rfl⟩
      (fun op s h hok => untouched_request h hok.1 hok.2) hrun
  exact huntouched.2

def sharedStore : Tables where
  orgs := ["org_a", "org_b"]
  users := ["ann"]
  alertRules :=
    [{ id := "alert_a", name := "A", description := "", condition := .null,
       workspaceId := some "org_a" },
     { id := "alert_b", name := "B", description := "", condition := .null,
       workspaceId := some "org_b" }]

theorem sharedStore_keys : RuleKeys sharedStore := by
  show ["alert_a", "alert_b"].Nodup
  decide

/-- An editor of `org_a`, whom the gate lets through. -/
def editorOfA : Caller := ⟨"org_a", some "ann", fun _ _ => true⟩

/-- A fork, an edit that clears the workspace of its rule, and two requests on the rule of
the other workspace. -/
def requestsOfA : List (Caller × RuleRequest) :=
  [(editorOfA, .fork ⟨"1", "2026-01-01"⟩ "alert_a" []),
    (editorOfA, .put "2026-01-02" "alert_a" [("name", .str "A2"), ("workspaceId", .null)]),
    (editorOfA, .put "2026-01-03" "alert_b" [("workspaceId", .str "org_a")]),
    (editorOfA, .delete "alert_b")]

theorem routes_leave_other_workspaces_shared :
    foreignRules "org_a" (serveAll (fun op : Caller × RuleRequest => op.2.code sqliteDriver op.1)
      requestsOfA sharedStore) = foreignRules "org_a" sharedStore := by
  refine routes_leave_other_workspaces sqliteDriver "org_a" sharedStore sharedStore_keys ?_
  refine Serial.of_allServed requestsOfA .init ⟨⟨rfl, trivial⟩, ⟨rfl, ?_⟩, ⟨rfl, ?_⟩,
    ⟨rfl, trivial⟩, trivial⟩
  · rintro - row - - - w hw
    cases hw
  · rintro - row - - - w hw
    cases hw
    rfl

/-- The body of a `PUT` names the other workspace, and the row goes there. -/
theorem put_moves_rule_out :
    ¬ ∀ (driver : Driver) (orgId : String) (t₀ : Tables), RuleKeys t₀ → ∀ t,
      Serial (fun op : Caller × RuleRequest => op.2.code driver op.1)
        (fun op _ => op.1.orgId = orgId) t₀ t →
      foreignRules orgId t = foreignRules orgId t₀ := by
  intro hall
  have hsame := hall sqliteDriver "org_a" sharedStore sharedStore_keys _
    (.serve (editorOfA, .put "2026-01-02" "alert_a" [("workspaceId", .str "org_b")]) .init rfl)
  have hcount := congrArg List.length hsame
  exact absurd hcount (by decide +kernel)

end OpenObs.Rules
