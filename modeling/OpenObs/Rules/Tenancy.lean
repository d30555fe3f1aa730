import OpenObs.Rbac.Cascade
import OpenObs.Rules.Repository

/-!
# The org of a rule

A row names its tenant in `workspace_id`, which the routes compare with the org of the caller, and
in `org_id`, which the folder lookup, the folder counts and with them the cascade of folder grants
filter by.
-/

namespace OpenObs.Rules

open OpenObs.Foundation OpenObs.Resources OpenObs.Rbac

/-- The count `getFolderCounts` reports for a folder; one without an entry has none. -/
def reportedRules (t : Tables) (orgId : String) (uids : List String) (uid : String) : ℕ :=
  match ((Folders.FolderService.getFolderCounts orgId uids).run t).1 with
  | .ok counts => ((counts.find? (·.1 = uid)).map (·.2.alertRules)).getD 0
  | .error _ => 0

structure BelongsTo (t t' : Tables) (orgId folderUid ruleId : String) : Prop where
  folder : (AlertRuleRepository.getFolderUid orgId ruleId).run t' = (.ok (some folderUid), t')
  counted : ∀ uids, folderUid ∈ uids →
    reportedRules t' orgId uids folderUid = reportedRules t orgId uids folderUid + 1
  elsewhere : ∀ org, org ≠ orgId →
    (AlertRuleRepository.getFolderUid org ruleId).run t' = (.ok none, t')
  cascade : folderUid ≠ "" → ∀ action g,
    g = folderUid ∨ g ∈ (t'.accessDb.listAncestors orgId folderUid).map (·.uid) →
    authorises t'.accessDb orgId ⟨action, "folders:uid:" ++ g⟩ action
      ("alert.rules:uid:" ++ ruleId) = true

section Created

variable {t : Tables} {row : AlertRule}

theorem ruleFolderUid_append {orgId : String} (hid : row.id ∉ t.alertRules.map (·.id)) :
    ({ t with alertRules := t.alertRules ++ [row] } : Tables).ruleFolderUid orgId row.id =
      if row.orgId = orgId then row.folderUid else none := by
  have hold : (t.alertRules.find? fun r => r.orgId = orgId ∧ r.id = row.id) = none := by
    rw [List.find?_eq_none]
    intro r hr hmatch
    apply hid
    rw [← (of_decide_eq_true hmatch).2]
    exact List.mem_map_of_mem hr
  rw [Tables.ruleFolderUid, List.find?_append, hold, Option.none_or, List.find?_singleton]
  by_cases horg : row.orgId = orgId
  · simp [horg]
  · simp [horg]

theorem find?_filterMap_key {β : Type} {entry : String → Option (String × β)}
    (hkey : ∀ x p, entry x = some p → p.1 = x) {uid : String} {uids : List String} :
    (uids.filterMap entry).find? (·.1 = uid) = if uid ∈ uids then entry uid else none := by
  induction uids with
  | nil => rfl
  | cons x xs ih =>
    cases hx : entry x with
    | none =>
      rw [List.filterMap_cons_none hx, ih]
      by_cases hxu : uid = x
      · simp [hxu, hx]
      · simp [hxu]
    | some p =>
      have hp : p.1 = x := hkey x p hx
      rw [List.filterMap_cons_some hx, List.find?_cons, ih]
      by_cases hxu : x = uid
      · simp [hp, hxu, ← hx]
      · simp [hp, hxu, Ne.symm hxu]

theorem reportedRules_eq {orgId uid : String} {uids : List String} (huid : uid ∈ uids) :
    reportedRules t orgId uids uid =
      (t.alertRules.filter fun r => r.orgId = orgId ∧ r.folderUid = some uid).length := by
  have hne : ¬ uids.length = 0 := fun h => by
    rw [List.length_eq_zero_iff.mp h] at huid
    cases huid
  rw [reportedRules, Folders.FolderService.getFolderCounts, if_neg hne]
  show ((List.find? _ (List.filterMap _ uids.eraseDups)).map _).getD 0 = _
  rw [find?_filterMap_key, if_pos (List.mem_eraseDups.mpr huid)]
  · split
    · rename_i hzero
      exact hzero.2.1.symm
    · rfl
  · intro x p hp
    split at hp
    · cases hp
    · cases hp
      rfl

theorem folderUidOf_accessDb {orgId ruleId : String} :
    Db.folderUidOf t.accessDb.alertRules orgId ruleId = t.ruleFolderUid orgId ruleId := by
  rw [Db.folderUidOf, Tables.accessDb, List.find?_map, Tables.ruleFolderUid]
  show ((t.alertRules.find? fun r => decide (r.orgId = orgId ∧ r.id = ruleId)).map _).bind _ = _
  cases t.alertRules.find? fun r => decide (r.orgId = orgId ∧ r.id = ruleId) <;> rfl

theorem authorises_of_cascade {db : Db} {orgId ruleId folderUid action g : String}
    (hrule : ruleId ≠ "*") (hfolder : Db.folderUidOf db.alertRules orgId ruleId = some folderUid)
    (hne : folderUid ≠ "")
    (hg : g = folderUid ∨ g ∈ (db.listAncestors orgId folderUid).map (·.uid)) :
    authorises db orgId ⟨action, "folders:uid:" ++ g⟩ action ("alert.rules:uid:" ++ ruleId) =
      true := by
  rw [authorises_iff]
  refine ⟨"folders:uid:" ++ g, ?_, scopeCovers_refl _⟩
  have hscope : "alert.rules:uid:" ++ ruleId = "alert.rules" ++ ":uid:" ++ ruleId := rfl
  have hreg : registry db orgId ("alert.rules:uid:" ++ ruleId) =
      Resolvers.alertRules db orgId ("alert.rules:uid:" ++ ruleId) := by
    rw [hscope, resolve_kind (by decide) (by decide), byKind_alertRules]
  have huid : Resolvers.concreteUid ("alert.rules:uid:" ++ ruleId) = some ruleId :=
    @concreteUid_eq "alert.rules" ruleId (by decide) hrule
  have hkind : (parseScope ("alert.rules:uid:" ++ ruleId)).kind = "alert.rules" := by
    rw [hscope, parseScope_uid (by decide)]
  have hcascade : "folders:uid:" ++ g ∈ Resolvers.cascade db orgId db.alertRules ruleId := by
    rw [Resolvers.cascade, hfolder, Option.filter_some, if_pos (by simpa using hne)]
    rcases hg with rfl | hg
    · exact List.mem_cons_self
    · obtain ⟨f, hf, rfl⟩ := List.mem_map.mp hg
      exact List.mem_cons_of_mem _ (List.mem_map.mpr ⟨f, hf, rfl⟩)
  rw [hreg, Resolvers.alertRules, if_neg (by rw [hkind]; simp), huid]
  simp only [List.mem_eraseDups, List.mem_append]
  exact Or.inr hcascade

end Created

/-- **The org of a rule.** A rule created for an org and a folder belongs to that org, for
the folder lookup, the counts and the cascade, exactly if the org is the one `create`
writes. -/
theorem rule_belongs_iff (driver : Driver) (drawn : DrawnRule) (data : NewAlertRule)
    (t t' : Tables) (rule : AlertRule) (orgId folderUid : String)
    (hcreate : (AlertRuleRepository.create driver drawn data).run t = (.ok rule, t'))
    (hworkspace : data.workspaceId = some orgId) (hfolder : data.folderUid = some folderUid) :
    rule.workspaceId = some orgId ∧
      (BelongsTo t t' orgId folderUid rule.id ↔ orgId = "org_main") := by
  rcases AlertRuleRepository.run_create driver drawn data t with
    ⟨e, herr⟩ | ⟨row, hrow, hfresh, hok⟩
  · rw [herr] at hcreate
    cases hcreate
  rw [hok] at hcreate
  cases hcreate
  obtain ⟨hid, horg, hws, hfu⟩ := AlertRuleRepository.newRow_ok hrow
  rw [hworkspace] at hws
  rw [hfolder] at hfu
  refine ⟨hws, fun hbelongs => ?_, ?_⟩
  · -- the lookup finds the row under the org of the column only
    have hlookup := hbelongs.folder
    rw [AlertRuleRepository.getFolderUid, Prog.run_read] at hlookup
    have hfound := Except.ok.inj (Prod.mk.inj hlookup).1
    rw [rowToRule, ruleFolderUid_append hfresh] at hfound
    split at hfound
    · rename_i heq
      rw [← heq, horg]
    · cases hfound
  · rintro rfl
    have hstar : row.id ≠ "*" := by
      rw [hid]
      intro h
      have hlen := congrArg String.length h
      rw [String.length_append] at hlen
      have hprefix : "alert_".length = 6 := by decide
      have hone : "*".length = 1 := by decide
      omega
    refine ⟨?_, fun uids huid => ?_, fun org hother => ?_, fun hne action g hg => ?_⟩
    · rw [AlertRuleRepository.getFolderUid, Prog.run_read, rowToRule,
        ruleFolderUid_append hfresh, if_pos horg, hfu]
    · rw [reportedRules_eq huid, reportedRules_eq huid, List.filter_append, List.length_append,
        List.filter_singleton]
      simp [horg, hfu]
    · rw [AlertRuleRepository.getFolderUid, Prog.run_read, rowToRule,
        ruleFolderUid_append hfresh, if_neg fun h => hother (h.symm.trans horg)]
    · refine authorises_of_cascade hstar ?_ hne hg
      rw [folderUidOf_accessDb, rowToRule, ruleFolderUid_append hfresh, if_pos horg, hfu]

/-- The driver on what the routes bind: texts and `NULL` as they are, numbers as the texts of
reals, and nothing else. -/
def sqliteDriver : Driver where
  text
    | .null => .ok none
    | .str s => .ok (some s)
    | .num n => .ok (some (toString n ++ ".0"))
    | _ => .error "SQLite3 can only bind numbers, strings, bigints, buffers, and null"
  number
    | .num n => .ok (.num n)
    | _ => .error "NOT NULL constraint failed"

/-- A rule of an org in its folder `ops`. -/
def ruleOf (orgId : String) : NewAlertRule where
  name := .str "High latency"
  description := .str ""
  condition := .obj [("query", .str "up"), ("threshold", .num 1)]
  evaluationIntervalSec := .num 60
  severity := .str "high"
  createdBy := .str "user"
  workspaceId := some orgId
  folderUid := some "ops"

/-- The store in which the rules are created: each org has a folder `ops`. -/
def twoOrgs : Tables where
  orgs := ["org_main", "org_b"]
  users := ["ann"]
  folders := [⟨"1", "ops", "org_main", "Ops", none, none, "", "", none, none, .manual, none⟩,
    ⟨"2", "ops", "org_b", "Ops", none, none, "", "", none, none, .manual, none⟩]

theorem rule_belongs_iff_main :
    ∃ rule t', (AlertRuleRepository.create sqliteDriver ⟨"0", "2026-01-01"⟩ (ruleOf "org_main")).run
        twoOrgs = (.ok rule, t') ∧ BelongsTo twoOrgs t' "org_main" "ops" rule.id :=
  ⟨_, _, rfl, (rule_belongs_iff sqliteDriver ⟨"0", "2026-01-01"⟩ (ruleOf "org_main") twoOrgs _ _
    "org_main" "ops" rfl rfl rfl).2.mpr rfl⟩

/-- The rule of another org is not in its folder: nothing counts it and no grant on the
folder reaches it. -/
theorem rule_of_other_org_lost :
    ¬ ∀ (driver : Driver) (drawn : DrawnRule) (data : NewAlertRule) (t t' : Tables)
      (rule : AlertRule) (orgId folderUid : String),
      (AlertRuleRepository.create driver drawn data).run t = (.ok rule, t') →
      data.workspaceId = some orgId → data.folderUid = some folderUid →
      BelongsTo t t' orgId folderUid rule.id := by
  intro hall
  have hbelongs := hall sqliteDriver ⟨"0", "2026-01-01"⟩ (ruleOf "org_b") twoOrgs _ _ "org_b" "ops"
    rfl rfl rfl
  have hnone : (AlertRuleRepository.getFolderUid "org_b" "alert_0").run
      ((AlertRuleRepository.create sqliteDriver ⟨"0", "2026-01-01"⟩ (ruleOf "org_b")).run twoOrgs).2 =
      (.ok none, _) := rfl
  have hlookup := hnone.symm.trans hbelongs.folder
  cases (Prod.mk.inj hlookup).1

end OpenObs.Rules

