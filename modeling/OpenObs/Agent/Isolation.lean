import OpenObs.Agent.Tenants

/-!
# Tools and other workspaces

Seven tools of an identity of one org. None of them compares the workspace of a row with the org of
the caller: an update, a delete and a clone look their row up by its id, and the lists keep what the
grants of the caller read, in scopes without an org.
-/

namespace OpenObs.Agent

open OpenObs.Foundation OpenObs.Resources OpenObs.Rules OpenObs.Dashboards
open OpenObs.Rbac hiding Folder

/-! ## Calls -/

inductive TenantCall : Type where
  | ruleWrite (drawn : DrawnRule) (drawnFolder : Folders.Drawn) (args : Json.Record)
      (verb : opOf args = "update" ∨ opOf args = "delete")
  | ruleList (args : Json.Record)
  | ruleHistory (nowMs : Int) (args : Json.Record)
  | dashboardList (args : Json.Record)
  | dashboardClone (drawn : DrawnCall) (args : Json.Record)
  | investigationList (args : Json.Record)

namespace TenantCall

def tool : TenantCall → AgentTool
  | .ruleWrite _ _ _ _ => .alertRuleWrite
  | .ruleList _ => .alertRuleList
  | .ruleHistory _ _ => .alertRuleHistory
  | .dashboardList _ => .dashboardList
  | .dashboardClone _ _ => .dashboardClone
  | .investigationList _ => .investigationList

def args : TenantCall → Json.Record
  | .ruleWrite _ _ args _ => args
  | .ruleList args => args
  | .ruleHistory _ args => args
  | .dashboardList args => args
  | .dashboardClone _ args => args
  | .investigationList args => args

def handler (ctx : ActionContext) : TenantCall → Prog Session String
  | .ruleWrite drawn drawnFolder args _ => handleAlertRuleWrite ctx drawn drawnFolder args
  | .ruleList args => handleAlertRuleList ctx args
  | .ruleHistory nowMs args => handleAlertRuleHistory ctx nowMs args
  | .dashboardList args => handleDashboardList ctx args
  | .dashboardClone drawn args => handleDashboardClone ctx drawn args
  | .investigationList args => handleInvestigationList ctx args

def code (ctx : ActionContext) (call : TenantCall) : Prog Session String :=
  gated ctx call.tool call.args (call.handler ctx)

end TenantCall

/-! ## Calls that stay at home -/

def ruleCheck (orgId : String) (args : Json.Record) (t : Tables) : Evaluator :=
  .action (if opOf args = "update" then "alert.rules:write" else "alert.rules:delete")
    ["folders:uid:" ++ (if stringOr args "ruleId" "" = "" then none
      else t.ruleFolderUid orgId (stringOr args "ruleId" "")).getD "*"]

/-- A list shows rows of the org only: no row of another workspace passes its check, and the
checks of the own rows name no foreign one. -/
def ShowsOwn {α : Type} (caller : Caller) (t : Tables) (rows : List α) (own : α → Bool)
    (check : α → Evaluator) : Prop :=
  ∀ a ∈ rows, if own a then Clean caller.orgId t (check a) else caller.allows t (check a) = false

/-- The check of the call names no foreign row; and a call that passes it names none, and is
shown none. -/
def TenantCall.StaysHome (ctx : ActionContext) (call : TenantCall) (s : Session) : Prop :=
  let caller := ctx.caller
  let t := s.tables
  match call with
  | .ruleWrite _ _ args _ =>
    ¬ HidesRule caller.orgId t (stringOr args "ruleId" "") ∧
      Clean caller.orgId t (ruleCheck caller.orgId args t) ∧
      (caller.allows t (ruleCheck caller.orgId args t) = true →
        OwnRuleId caller.orgId t (stringOr args "ruleId" ""))
  | .ruleList _ =>
    caller.allows t (.action "alert.rules:read" ["alert.rules:*"]) = true →
      ShowsOwn caller t t.alertRules (ownRule caller.orgId) fun r => readRule r.id
  | .ruleHistory _ args =>
    let check := Evaluator.action "alert.rules:read"
      ["alert.rules:uid:" ++ stringOr args "ruleId" "*"]
    Clean caller.orgId t check ∧
      (caller.allows t check = true → ctx.keepsHistory = true →
        ∀ h ∈ getHistory (Folders.truthy (asText (Json.field args "ruleId")))
          (numberOr (Json.field args "limit") 50) t, foreignEntry caller.orgId t h = false)
  | .dashboardList _ =>
    caller.allows t (.action "dashboards:read" ["dashboards:*"]) = true →
      ShowsOwn caller t t.dashboards (ownDashboard caller.orgId) fun d => readDashboard d.id
  | .dashboardClone drawn args =>
    let check := Evaluator.action "dashboards:create" (folderScope args "folderUid" "*")
    Clean caller.orgId t check ∧
      (caller.allows t check = true → ∀ d ∈ t.dashboards,
        d.id = stringOr args "sourceDashboardId" "" ∨ d.id = drawn.dashboardId →
        ownDashboard caller.orgId d = true)
  | .investigationList _ =>
    caller.allows t (.action "investigations:read" ["investigations:*"]) = true →
      ShowsOwn caller t (s.investigations.filter (·.archived = false))
        (ownInvestigation caller.orgId) fun i => readInvestigation i.id

/-! ## The gate -/

section Gate

variable {ctx : ActionContext} {s : Session} {tool : AgentTool} {args : Json.Record}
  {handler : Prog Session String} {e : Evaluator}

theorem run_gated (hbuilt : (buildToolEvaluator ctx tool args).run s = (.ok (some e), s)) :
    (gated ctx tool args handler).run s =
      if ctx.caller.allows s.tables e then handler.run s else (.ok (denialObservation e), s) := by
  rw [gated, Prog.run_bind, run_checkPermission _ hbuilt]
  cases ctx.caller.allows s.tables e <;> rfl

variable {access : Db} {identity : Identity}

theorem local_gated
    (hbuilt : (buildToolEvaluator (ctx.asking access identity) tool args).run s =
      (.ok (some e), s))
    (hbuilt' : (buildToolEvaluator (ctx.asking access identity) tool args).run
      (ownPart identity.orgId s) = (.ok (some e), ownPart identity.orgId s))
    (hclean : Clean identity.orgId s.tables e)
    (hhandler : (callerOf access identity).allows s.tables e = true →
      Local (ownPart identity.orgId) (foreignRows identity.orgId) handler s) :
    Local (ownPart identity.orgId) (foreignRows identity.orgId)
      (gated (ctx.asking access identity) tool args handler) s := by
  have hallows : (ctx.asking access identity).caller.allows (ownPart identity.orgId s).tables e =
      (ctx.asking access identity).caller.allows s.tables e := allows_own hclean
  cases hpass : (callerOf access identity).allows s.tables e with
  | false =>
    have hpass' : (ctx.asking access identity).caller.allows s.tables e = false := hpass
    constructor
    · rw [run_gated hbuilt, run_gated hbuilt', hallows, hpass']
      rfl
    · rw [run_gated hbuilt, hpass']
      rfl
  | true =>
    have hpass' : (ctx.asking access identity).caller.allows s.tables e = true := hpass
    have hlocal := hhandler hpass
    constructor
    · rw [run_gated hbuilt, run_gated hbuilt', hallows, hpass', if_pos rfl, if_pos rfl]
      exact hlocal.sees
    · rw [run_gated hbuilt, hpass', if_pos rfl]
      exact hlocal.leaves

end Gate

/-! ## Lists -/

section Lists

variable {access : Db} {identity : Identity} {s : Session} {α : Type}

theorem filter_shown {le : α → α → Bool} {rows : List α} {own : α → Bool} {check : α → Evaluator}
    (htrans : ∀ a b c : α, le a b = true → le b c = true → le a c = true)
    (htotal : ∀ a b : α, (le a b || le b a) = true)
    (hshown : ShowsOwn (callerOf access identity) s.tables rows own check) :
    ((rows.filter own).mergeSort le).filter (fun a =>
        (callerOf access identity).allows (ownTables identity.orgId s.tables) (check a)) =
      (rows.mergeSort le).filter fun a => (callerOf access identity).allows s.tables (check a) := by
  rw [← filter_mergeSort htrans htotal, List.filter_filter]
  apply List.filter_congr
  intro a ha
  have hrow := hshown a (List.mem_mergeSort.mp ha)
  cases hown : own a with
  | true =>
    rw [hown, if_pos rfl] at hrow
    rw [Bool.and_true]
    exact allows_own hrow
  | false =>
    rw [hown] at hrow
    rw [Bool.and_false]
    exact hrow.symm

theorem le_createdAt_trans {f : α → String} (a b c : α)
    (hab : decide (f b ≤ f a) = true) (hbc : decide (f c ≤ f b) = true) :
    decide (f c ≤ f a) = true := by
  simp only [decide_eq_true_eq] at *
  exact String.le_trans hbc hab

theorem le_createdAt_total {f : α → String} (a b : α) :
    (decide (f b ≤ f a) || decide (f a ≤ f b)) = true := by
  simp only [Bool.or_eq_true, decide_eq_true_eq]
  exact String.le_total _ _

theorem local_reading {β : Type} {p : Prog Session α} (shown : Session → β) (say : β → α)
    (hrun : ∀ s, p.run s = (.ok (say (shown s)), s))
    (h : shown (ownPart identity.orgId s) = shown s) :
    Local (ownPart identity.orgId) (foreignRows identity.orgId) p s := by
  constructor
  · rw [hrun, hrun, h]
  · rw [hrun]

variable {ctx : ActionContext} {args : Json.Record}

/-- What `alert_rule_list` says of the rules it is shown. -/
def sayRules (ctx : ActionContext) (args : Json.Record) (list : List AlertRule) : String :=
  let filter := (asText (Json.field args "filter")).getD ""
  let filtered := list.filter fun r => matchesFilter ctx.platform (some r.name) (some filter)
  listing "alert rule" "No alert rules found." filter filtered.length list.length
    (filtered.map ruleLine)

theorem local_ruleList
    (hshown : ShowsOwn (callerOf access identity) s.tables s.tables.alertRules
      (ownRule identity.orgId) fun r => readRule r.id) :
    Local (ownPart identity.orgId) (foreignRows identity.orgId)
      (handleAlertRuleList (ctx.asking access identity) args) s := by
  apply local_reading (fun s => (newestRules s.tables).filter fun r =>
    (callerOf access identity).allows s.tables (readRule r.id)) (sayRules ctx args) fun _ => rfl
  exact filter_shown le_createdAt_trans le_createdAt_total hshown

/-- What `dashboard_list` says of the dashboards it is shown. -/
def sayDashboards (ctx : ActionContext) (args : Json.Record) (all : List Dashboard) : String :=
  let filter := (asText (Json.field args "filter")).getD ""
  let limit := numberOr (Json.field args "limit") 50
  let filtered := all.filter fun d =>
    matchesFilter ctx.platform (some d.title) (some filter) ||
      matchesFilter ctx.platform (some d.description) (some filter)
  listing "dashboard" "No dashboards found." filter filtered.length all.length
    ((sliceTo limit filtered).map dashboardLine)

theorem local_dashboardList
    (hshown : ShowsOwn (callerOf access identity) s.tables s.tables.dashboards
      (ownDashboard identity.orgId) fun d => readDashboard d.id) :
    Local (ownPart identity.orgId) (foreignRows identity.orgId)
      (handleDashboardList (ctx.asking access identity) args) s := by
  apply local_reading (fun s => ((s.tables.dashboards.mergeSort fun d e =>
      decide (e.createdAt ≤ d.createdAt)).map rowToDashboard).filter fun d =>
    (callerOf access identity).allows s.tables (readDashboard d.id)) (sayDashboards ctx args)
    fun _ => rfl
  have hrows := filter_shown (@le_createdAt_trans _ Dashboard.createdAt) le_createdAt_total hshown
  rw [List.filter_map, List.filter_map]
  show ((((s.tables.dashboards.filter (ownDashboard identity.orgId)).mergeSort _).filter fun d =>
    (callerOf access identity).allows (ownTables identity.orgId s.tables)
      (readDashboard d.id)).map rowToDashboard) = _
  rw [hrows]
  rfl

/-- What `investigation_list` says of the investigations it is shown. -/
def sayInvestigations (ctx : ActionContext) (args : Json.Record) (all : List Investigation) :
    String :=
  let filter := (asText (Json.field args "filter")).getD ""
  let limit := numberOr (Json.field args "limit") 50
  let filtered := all.filter fun i => matchesFilter ctx.platform (some i.intent) (some filter)
  listing "investigation" "No investigations found." filter filtered.length all.length
    ((sliceTo limit filtered).map investigationLine)

theorem local_investigationList
    (hshown : ShowsOwn (callerOf access identity) s.tables
      (s.investigations.filter (·.archived = false)) (ownInvestigation identity.orgId)
      fun i => readInvestigation i.id) :
    Local (ownPart identity.orgId) (foreignRows identity.orgId)
      (handleInvestigationList (ctx.asking access identity) args) s := by
  apply local_reading (fun s => ((s.investigations.filter (·.archived = false)).mergeSort
      fun i j => decide (j.createdAt ≤ i.createdAt)).filter fun i =>
    (callerOf access identity).allows s.tables (readInvestigation i.id)) (sayInvestigations ctx args)
    fun _ => rfl
  have hrows := filter_shown (@le_createdAt_trans _ Investigation.createdAt) le_createdAt_total
    hshown
  rw [← hrows, List.filter_filter]
  show List.filter _ (((s.investigations.filter (ownInvestigation identity.orgId)).filter
    (·.archived = false)).mergeSort _) = _
  rw [List.filter_filter]
  simp only [Bool.and_comm]
  rfl

end Lists

/-! ## History -/

section History

variable {access : Db} {identity : Identity} {s : Session} {ctx : ActionContext}
  {args : Json.Record} {nowMs : Int}

theorem take_filter {α : Type} {keep : α → Bool} {n : ℕ} : ∀ {l : List α},
    (∀ a ∈ l.take n, keep a = true) → (l.filter keep).take n = l.take n := by
  induction n with
  | zero => simp
  | succ n ih =>
    intro l h
    cases l with
    | nil => rfl
    | cons a l =>
      have ha : keep a = true := h a (by simp)
      rw [List.filter_cons_of_pos ha, List.take_succ_cons, List.take_succ_cons,
        ih fun b hb => h b (by simp [hb])]

theorem newestHistory_filter {limit : Int} {keep : AlertHistoryEntry → Bool}
    {entries : List AlertHistoryEntry}
    (h : ∀ e ∈ newestHistory limit entries, keep e = true) :
    newestHistory limit (entries.filter keep) = newestHistory limit entries := by
  unfold newestHistory at h ⊢
  rw [← filter_mergeSort (@le_createdAt_trans _ AlertHistoryEntry.timestamp) le_createdAt_total]
  dsimp only at h ⊢
  split
  · rename_i hlimit
    rw [if_pos hlimit] at h
    exact List.filter_eq_self.mpr h
  · rename_i hlimit
    rw [if_neg hlimit] at h
    exact take_filter h

theorem getHistory_own {orgId : String} {t : Tables} {ruleId : Option String} {limit : Int}
    (hown : ∀ h ∈ getHistory ruleId limit t, foreignEntry orgId t h = false) :
    getHistory ruleId limit (ownTables orgId t) = getHistory ruleId limit t := by
  have hkeep : ∀ h ∈ getHistory ruleId limit t, (!foreignEntry orgId t h) = true := by
    intro h hh
    rw [hown h hh]
    rfl
  cases ruleId with
  | none => exact newestHistory_filter hkeep
  | some ruleId =>
    show newestHistory limit ((t.alertHistory.filter fun h => !foreignEntry orgId t h).filter
      fun h => decide (h.ruleId = ruleId)) = _
    rw [List.filter_filter]
    simp only [Bool.and_comm (decide _)]
    rw [← List.filter_filter]
    exact newestHistory_filter hkeep

theorem find_severity {orgId : String} {t : Tables} {ruleId : String}
    (h : ∀ r ∈ t.alertRules, r.id = ruleId → ownRule orgId r = true) :
    ((newestRules (ownTables orgId t)).map fun r => (r.id, r.severity)).find? (·.1 = ruleId) =
      ((newestRules t).map fun r => (r.id, r.severity)).find? (·.1 = ruleId) := by
  have hsorted : newestRules (ownTables orgId t) = (newestRules t).filter (ownRule orgId) :=
    (filter_mergeSort (@le_createdAt_trans _ AlertRule.updatedAt) le_createdAt_total _ _).symm
  rw [hsorted, List.find?_map, List.find?_map]
  congr 1
  apply find?_filter_of_imp
  intro r hr hid
  exact h r (List.mem_mergeSort.mp hr) (by simpa using hid)

theorem annotationOf_own {orgId : String} {t : Tables} {entry : AlertHistoryEntry} {cutoffMs : Int}
    (h : foreignEntry orgId t entry = false) :
    annotationOf ctx ((newestRules (ownTables orgId t)).map fun r => (r.id, r.severity)) cutoffMs
        entry =
      annotationOf ctx ((newestRules t).map fun r => (r.id, r.severity)) cutoffMs entry := by
  have hrules : ∀ r ∈ t.alertRules, r.id = entry.ruleId → ownRule orgId r = true := by
    intro r hr hid
    rw [foreignEntry, List.any_eq_false] at h
    have hr' := h r hr
    by_contra hforeign
    simp only [Bool.not_eq_true] at hforeign
    simp [hforeign, hid] at hr'
  rw [annotationOf, annotationOf]
  simp only [find_severity hrules]

/-- What `alert_rule_history` says of its annotations. -/
def sayHistory (ctx : ActionContext) (args : Json.Record) (raw : List Annotation) : String :=
  let annotations := raw.mergeSort fun a b => decide (a.time ≤ b.time)
  if annotations = [] then
    "No alert state changes in the last " ++
      toString (numberOr (Json.field args "sinceMinutes") 60) ++ " minute(s)."
  else
    "Found " ++ toString annotations.length ++
      " alert event(s). Pass the JSON below as `panel.annotations` on time-axis panels:\n```json\n" ++
      ctx.platform.stringify (.arr (annotations.map Annotation.json)) ++ "\n```"

theorem local_ruleHistory
    (hown : ctx.keepsHistory = true →
      ∀ h ∈ getHistory (Folders.truthy (asText (Json.field args "ruleId")))
        (numberOr (Json.field args "limit") 50) s.tables,
        foreignEntry identity.orgId s.tables h = false) :
    Local (ownPart identity.orgId) (foreignRows identity.orgId)
      (handleAlertRuleHistory (ctx.asking access identity) nowMs args) s := by
  rw [handleAlertRuleHistory]
  by_cases hkeeps : ctx.keepsHistory = false
  · have hkeeps' : (ctx.asking access identity).keepsHistory = false := hkeeps
    rw [if_pos hkeeps']
    exact Local.pure
  · have hkeeps' : ¬ (ctx.asking access identity).keepsHistory = false := hkeeps
    rw [if_neg hkeeps']
    have hentries := hown (by simpa using hkeeps)
    refine local_reading (fun s => (getHistory (Folders.truthy (asText (Json.field args "ruleId")))
        (numberOr (Json.field args "limit") 50) s.tables).filterMap
        (annotationOf ctx ((newestRules s.tables).map fun r => (r.id, r.severity))
          (nowMs - numberOr (Json.field args "sinceMinutes") 60 * 60000)))
      (sayHistory ctx args) (fun s => ?_) ?_
    · show Prog.run (ite _ _ _) s = _
      rw [sayHistory]
      split
      · rename_i hnone
        exact congrArg (fun text => (Except.ok text, s)) (if_pos hnone).symm
      · rename_i hsome
        exact congrArg (fun text => (Except.ok text, s)) (if_neg hsome).symm
    · show (getHistory _ _ (ownTables identity.orgId s.tables)).filterMap (annotationOf ctx
        ((newestRules (ownTables identity.orgId s.tables)).map fun r => (r.id, r.severity)) _) = _
      rw [getHistory_own hentries]
      exact List.filterMap_congr fun h hh => annotationOf_own (hentries h hh)

end History

/-! ## Rules -/

section RuleWrites

variable {access : Db} {identity : Identity} {orgId : String} {s : Session} {t : Tables}
  {ctx : ActionContext} {args : Json.Record}

theorem field_updatePatch {rule : AlertRule} {patch : Json} :
    Json.field (updatePatch rule patch) "workspaceId" = none := by
  have hother : ∀ key, key ≠ "workspaceId" →
      ∀ f ∈ keepTruthy patch key, f.1 ≠ "workspaceId" := by
    intro key hkey f hf
    rw [keepTruthy] at hf
    split at hf
    · split at hf
      · rw [List.mem_singleton.mp hf]
        exact hkey
      · cases hf
    · cases hf
  have hnone : ∀ f ∈ updatePatch rule patch, f.1 ≠ "workspaceId" := by
    intro f hf
    rw [updatePatch] at hf
    simp only [List.mem_append] at hf
    rcases hf with ((hf | hf) | hf) | hf
    · exact hother "severity" (by decide) f hf
    · exact hother "evaluationIntervalSec" (by decide) f hf
    · exact hother "name" (by decide) f hf
    · split at hf
      · rw [List.mem_singleton.mp hf]
        exact fun h : "condition" = "workspaceId" => absurd h (by decide)
      · cases hf
  rw [Json.field, List.find?_eq_none.mpr fun f hf => by simpa using hnone f hf]
  rfl

theorem local_updateRule {driver : Driver} {now id : String} {patch : Json.Record}
    (hown : OwnRuleId orgId t id) (hpatch : Json.field patch "workspaceId" = none) :
    Local (ownTables orgId) (foreignTables orgId) (AlertRuleRepository.update driver now id patch)
      t := by
  cases hrow : t.findRuleById id with
  | none =>
    have hrow' : (ownTables orgId t).findRuleById id = none := by
      rw [findRuleById_own hown, hrow]
    have hrun : ∀ t' : Tables, t'.findRuleById id = none →
        (AlertRuleRepository.update driver now id patch).run t' = (.ok none, t') := by
      intro t' h
      rw [AlertRuleRepository.update, AlertRuleRepository.findById, Prog.run_bind, Prog.run_read,
        h]
      rfl
    constructor
    · rw [hrun _ hrow, hrun _ hrow']
    · rw [hrun _ hrow]
  | some row =>
    have hrow' : (ownTables orgId t).findRuleById id = some row := by
      rw [findRuleById_own hown, hrow]
    rcases @run_updateRule t driver now id patch row hrow with
      ⟨e, hmerge, herr⟩ | ⟨edit, hmerge, hok⟩
    · rcases @run_updateRule (ownTables orgId t) driver now id patch row hrow' with
        ⟨e', hmerge', herr'⟩ | ⟨edit', hmerge', -⟩
      · rw [hmerge] at hmerge'
        cases hmerge'
        constructor
        · rw [herr, herr']
        · rw [herr]
      · rw [hmerge] at hmerge'
        cases hmerge'
    · rcases @run_updateRule (ownTables orgId t) driver now id patch row hrow' with
        ⟨e', hmerge', -⟩ | ⟨edit', hmerge', hok'⟩
      · rw [hmerge] at hmerge'
        cases hmerge'
      · rw [hmerge] at hmerge'
        cases hmerge'
        obtain ⟨workspaceId, hworkspace, hedit⟩ := AlertRuleRepository.merge_ok hmerge
        obtain ⟨hmem, hid⟩ := findRuleById_eq_some hrow
        have hrowOwn : row.workspaceId = some orgId := by
          simpa [ownRule] using hown row hmem hid
        have hsame : (rowToRule row).workspaceId = some orgId := hrowOwn
        -- without the field the merged column is the one of the row
        rw [AlertRuleRepository.optional, hpatch, hsame] at hworkspace
        cases hworkspace
        obtain ⟨hparts, hforeign⟩ := editRules_parts hown
          (fun r _ _ => by simp [ownRule, (hedit r).2.2.2]) (fun r => (hedit r).1)
        constructor
        · rw [hok, hok', hparts]
        · rw [hok]
          exact hforeign

theorem local_deleteRule {id : String} (hown : OwnRuleId orgId t id) :
    Local (ownTables orgId) (foreignTables orgId) (AlertRuleRepository.delete id) t := by
  obtain ⟨hparts, hforeign⟩ := deleteRules_parts hown
  have hfind : Local (ownTables orgId) (foreignTables orgId) (AlertRuleRepository.findById id) t :=
    Local.read (congrArg (Option.map rowToRule) (findRuleById_own hown))
  have hrun : (AlertRuleRepository.findById id).run t =
      (.ok ((t.findRuleById id).map rowToRule), t) := rfl
  rw [AlertRuleRepository.delete]
  refine hfind.bind_reading hrun ?_
  cases (t.findRuleById id).map rowToRule with
  | none => exact Local.pure
  | some row => exact (Local.write hparts hforeign).bind fun _ _ _ => Local.pure

theorem local_evalAlertRuleWrite {action id : String} (hhidden : ¬ HidesRule identity.orgId s.tables id)
    (hclean : Clean identity.orgId s.tables (.action action
      ["folders:uid:" ++ (s.tables.ruleFolderUid identity.orgId id).getD "*"])) :
    Local (ownPart identity.orgId) (foreignRows identity.orgId)
      (evalAlertRuleWrite (ctx.asking access identity) action id) s := by
  have hlookup : Local (ownPart identity.orgId) (foreignRows identity.orgId)
      ((AlertRuleRepository.getFolderUid identity.orgId id).zoom Session.db) s :=
    local_zoom (Local.read (ruleFolderUid_own hhidden))
  refine hlookup.bind fun folderUid s' hrun => ?_
  cases hrun
  exact Local.read (allows_own hclean)

theorem local_ruleWrite {drawn : DrawnRule} {drawnFolder : Folders.Drawn}
    (hverb : opOf args = "update" ∨ opOf args = "delete")
    (hhidden : ¬ HidesRule identity.orgId s.tables (stringOr args "ruleId" ""))
    (hclean : Clean identity.orgId s.tables (ruleCheck identity.orgId args s.tables))
    (hown : OwnRuleId identity.orgId s.tables (stringOr args "ruleId" "")) :
    Local (ownPart identity.orgId) (foreignRows identity.orgId)
      (handleAlertRuleWrite (ctx.asking access identity) drawn drawnFolder args) s := by
  have hfind : Local (ownPart identity.orgId) (foreignRows identity.orgId)
      ((AlertRuleRepository.findById (stringOr args "ruleId" "")).zoom Session.db) s :=
    local_zoom (Local.read (congrArg (Option.map rowToRule) (findRuleById_own hown)))
  have hcheck : hasRuleId args = true → ruleCheck identity.orgId args s.tables =
      .action (if opOf args = "update" then "alert.rules:write" else "alert.rules:delete")
        ["folders:uid:" ++
          (s.tables.ruleFolderUid identity.orgId (stringOr args "ruleId" "")).getD "*"] := by
    intro hid
    rw [ruleCheck, if_neg (ruleId_ne_empty hid)]
  have hrun : ((AlertRuleRepository.findById (stringOr args "ruleId" "")).zoom Session.db).run s =
      (.ok ((s.tables.findRuleById (stringOr args "ruleId" "")).map rowToRule), s) := rfl
  rw [handleAlertRuleWrite]
  rcases hverb with hop | hop
  · rw [hop, if_neg (by decide), if_neg (by decide), if_pos rfl]
    by_cases hid : hasRuleId args = true
    · rw [if_pos hid]
      rw [hcheck hid, hop, if_pos rfl] at hclean
      refine hfind.bind_reading hrun ?_
      cases (s.tables.findRuleById (stringOr args "ruleId" "")).map rowToRule with
      | none => exact Local.pure
      | some existingRule =>
        dsimp only
        split
        · exact Local.pure
        · refine (local_evalAlertRuleWrite hhidden hclean).bind fun allowed s' hrun => ?_
          cases hrun
          split
          · exact (local_zoom (local_updateRule hown field_updatePatch)).bind
              fun _ _ _ => Local.pure
          · exact Local.pure
    · rw [if_neg hid]
      exact Local.pure
  · rw [hop, if_neg (by decide), if_neg (by decide), if_neg (by decide), if_pos rfl]
    by_cases hid : hasRuleId args = true
    · rw [if_pos hid]
      rw [hcheck hid, hop, if_neg (by decide)] at hclean
      refine hfind.bind_reading hrun ?_
      dsimp only
      split
      · exact Local.pure
      · refine (local_evalAlertRuleWrite hhidden hclean).bind fun allowed s' hrun => ?_
        cases hrun
        split
        · exact (local_zoom (local_deleteRule hown)).bind fun _ _ _ => Local.pure
        · exact Local.pure
    · rw [if_neg hid]
      exact Local.pure

end RuleWrites

/-! ## Clones -/

section Clones

variable {access : Db} {identity : Identity} {orgId : String} {s s' : Session} {t : Tables}
  {ctx : ActionContext} {args : Json.Record} {id : String}

def OwnDashboardId (orgId : String) (t : Tables) (id : String) : Prop :=
  ∀ d ∈ t.dashboards, d.id = id → ownDashboard orgId d = true

theorem findDashboardById_own (hown : OwnDashboardId orgId t id) :
    (ownTables orgId t).findDashboardById id = t.findDashboardById id := by
  apply find?_filter_of_imp
  intro d hd hid
  exact hown d hd (by simpa using hid)

theorem edited_parts {edit : Dashboard → Dashboard} (hown : OwnDashboardId orgId t id)
    (hworkspace : ∀ d, (edit d).workspaceId = d.workspaceId) :
    DashboardRepository.edited id edit (ownTables orgId t) =
        ownTables orgId (DashboardRepository.edited id edit t) ∧
      foreignTables orgId (DashboardRepository.edited id edit t) = foreignTables orgId t := by
  have hsame : ∀ d : Dashboard,
      ownDashboard orgId (if d.id = id then edit d else d) = ownDashboard orgId d := by
    intro d
    split
    · rw [ownDashboard, ownDashboard, hworkspace]
    · rfl
  constructor
  · rw [DashboardRepository.edited, DashboardRepository.edited, ownTables, ownTables]
    congr 1
    show (t.dashboards.filter (ownDashboard orgId)).map _ = (t.dashboards.map _).filter _
    rw [List.filter_map]
    congr 1
    exact List.filter_congr fun d _ => (hsame d).symm
  · rw [DashboardRepository.edited, foreignTables, foreignTables]
    congr 1
    show (t.dashboards.map _).filter _ = _
    rw [List.filter_map]
    have hpred : t.dashboards.filter ((fun d => !ownDashboard orgId d) ∘
        fun d => if d.id = id then edit d else d) =
        t.dashboards.filter fun d => !ownDashboard orgId d :=
      List.filter_congr fun d _ => congrArg (!·) (hsame d)
    have hfix : ∀ d ∈ t.dashboards.filter fun d => !ownDashboard orgId d,
        (if d.id = id then edit d else d) = d := by
      intro d hd
      obtain ⟨hmem, hforeign⟩ := List.mem_filter.mp hd
      apply if_neg
      intro hdid
      rw [hown d hmem hdid] at hforeign
      cases hforeign
    rw [hpred, List.map_congr_left hfix, List.map_id']

theorem OwnDashboardId.edited {edit : Dashboard → Dashboard} (hown : OwnDashboardId orgId t id)
    (hworkspace : ∀ d, (edit d).workspaceId = d.workspaceId) :
    OwnDashboardId orgId (DashboardRepository.edited id edit t) id := by
  intro d hd hdid
  obtain ⟨d', hd', rfl⟩ := List.mem_map.mp hd
  split at hdid
  · rename_i hd'id
    rw [if_pos hd'id, ownDashboard, hworkspace]
    exact hown d' hd' hd'id
  · rename_i hne
    exact absurd hdid hne

theorem local_modifyDashboard {edit : Dashboard → Dashboard → Dashboard}
    (hown : OwnDashboardId orgId t id)
    (hworkspace : ∀ existing d, (edit existing d).workspaceId = d.workspaceId) :
    Local (ownTables orgId) (foreignTables orgId) (DashboardRepository.modify id edit) t ∧
      OwnDashboardId orgId ((DashboardRepository.modify id edit).run t).2 id := by
  rcases run_modify t id edit with ⟨hnone, hrun⟩ | ⟨row, hrow, hrun⟩
  · rcases run_modify (ownTables orgId t) id edit with ⟨-, hrun'⟩ | ⟨row', hrow', -⟩
    · refine ⟨⟨?_, ?_⟩, ?_⟩
      · rw [hrun, hrun']
      · rw [hrun]
      · rw [hrun]
        exact hown
    · rw [findDashboardById_own hown, hnone] at hrow'
      cases hrow'
  · rcases run_modify (ownTables orgId t) id edit with ⟨hnone', -⟩ | ⟨row', hrow', hrun'⟩
    · rw [findDashboardById_own hown, hrow] at hnone'
      cases hnone'
    · rw [findDashboardById_own hown, hrow] at hrow'
      cases hrow'
      have hedited := hown.edited (hworkspace (rowToDashboard row))
      obtain ⟨hparts, hforeign⟩ := edited_parts hown (hworkspace (rowToDashboard row))
      refine ⟨⟨?_, ?_⟩, ?_⟩
      · rw [hrun, hrun', hparts, findDashboardById_own hedited]
      · rw [hrun]
        exact hforeign
      · rw [hrun]
        exact hedited

theorem local_createDashboard {now : String} {input : NewDashboard}
    (hown : OwnDashboardId orgId t id) (hinput : input.workspaceId = some orgId) :
    Local (ownTables orgId) (foreignTables orgId) (DashboardRepository.create id now input) t ∧
      OwnDashboardId orgId ((DashboardRepository.create id now input).run t).2 id := by
  have hnew : ownDashboard orgId (DashboardRepository.newRow id now input) = true :=
    decide_eq_true hinput
  have htaken : id ∈ (ownTables orgId t).dashboards.map (·.id) ↔ id ∈ t.dashboards.map (·.id) := by
    constructor
    · intro h
      obtain ⟨d, hd, hdid⟩ := List.mem_map.mp h
      exact List.mem_map.mpr ⟨d, List.mem_of_mem_filter hd, hdid⟩
    · intro h
      obtain ⟨d, hd, hdid⟩ := List.mem_map.mp h
      exact List.mem_map.mpr ⟨d, List.mem_filter.mpr ⟨hd, hown d hd hdid⟩, hdid⟩
  rw [DashboardRepository.create]
  by_cases h : id ∈ t.dashboards.map (·.id)
  · refine ⟨⟨?_, ?_⟩, ?_⟩
    · rw [Prog.run_attempt, Prog.run_attempt, if_pos h, if_pos (htaken.mpr h)]
    · rw [Prog.run_attempt, if_pos h]
    · rw [Prog.run_attempt, if_pos h]
      exact hown
  · have h' : id ∉ (ownTables orgId t).dashboards.map (·.id) := fun hmem => h (htaken.mp hmem)
    refine ⟨⟨?_, ?_⟩, ?_⟩
    · rw [Prog.run_attempt, Prog.run_attempt, if_neg h, if_neg h']
      simp [ownTables, foreignEntry, List.filter_append, hnew]
    · rw [Prog.run_attempt, if_neg h]
      simp only [foreignTables, List.filter_append, List.filter_singleton, hnew, Bool.not_true]
      simp
      rfl
    · rw [Prog.run_attempt, if_neg h]
      intro d hd hdid
      rcases List.mem_append.mp hd with hd | hd
      · exact hown d hd hdid
      · rw [List.mem_singleton.mp hd]
        exact hnew

theorem created_id {now : String} {input : NewDashboard} {dashboard : Dashboard} {t' : Tables}
    (hrun : (DashboardRepository.create id now input).run t = (.ok dashboard, t')) :
    dashboard.id = id := by
  rcases run_create t id now input with ⟨e, herr⟩ | ⟨-, hok⟩
  · rw [herr] at hrun
    cases hrun
  · rw [hok] at hrun
    cases hrun
    rfl

theorem tables_zoom {α : Type} {p : Prog Tables α} {r : Except String α}
    (hrun : (p.zoom Session.db).run s = (r, s')) : p.run s.tables = (r, s'.tables) := by
  rw [Prog.run_zoom] at hrun
  cases hrun
  rfl

theorem local_modify_then {edit : Dashboard → Dashboard → Dashboard} {β : Type}
    {k : Option Dashboard → Prog Session β} (hown : OwnDashboardId orgId s.tables id)
    (hworkspace : ∀ existing d, (edit existing d).workspaceId = d.workspaceId)
    (hk : ∀ found s', OwnDashboardId orgId s'.tables id →
      Local (ownPart orgId) (foreignRows orgId) (k found) s') :
    Local (ownPart orgId) (foreignRows orgId)
      ((DashboardRepository.modify id edit).zoom Session.db >>= k) s := by
  obtain ⟨hlocal, hkeeps⟩ := local_modifyDashboard hown hworkspace
  refine (local_zoom hlocal).bind fun found s' hrun => hk found s' ?_
  rw [tables_zoom hrun] at hkeeps
  exact hkeeps

theorem local_sendEvent {event : DashboardSseEvent} :
    Local (ownPart orgId) (foreignRows orgId) (sendEvent event) s := by
  apply Local.write
  · rfl
  · rfl

theorem local_activate :
    Local (ownPart orgId) (foreignRows orgId) (activate id) s := by
  apply Local.write
  · rfl
  · rfl

theorem local_tryUpdateDashboardStatus {drawn : DrawnCall} {status : String} {error : Option String}
    (hown : OwnDashboardId orgId s.tables id) :
    Local (ownPart orgId) (foreignRows orgId) (tryUpdateDashboardStatus drawn id status error)
      s := by
  rw [tryUpdateDashboardStatus]
  refine Local.tryCatch ?_ fun e s' _ => local_sendEvent
  exact local_modify_then hown (fun _ _ => rfl) fun _ _ _ => Local.pure

theorem local_dashboardClone {drawn : DrawnCall}
    (hown : ∀ d ∈ s.tables.dashboards,
      d.id = stringOr args "sourceDashboardId" "" ∨ d.id = drawn.dashboardId →
      ownDashboard identity.orgId d = true) :
    Local (ownPart identity.orgId) (foreignRows identity.orgId)
      (handleDashboardClone (ctx.asking access identity) drawn args) s := by
  have hsource : OwnDashboardId identity.orgId s.tables (stringOr args "sourceDashboardId" "") :=
    fun d hd hid => hown d hd (Or.inl hid)
  have hnew : OwnDashboardId identity.orgId s.tables drawn.dashboardId :=
    fun d hd hid => hown d hd (Or.inr hid)
  rw [handleDashboardClone]
  dsimp only
  split
  · exact Local.pure
  split
  · exact Local.pure
  have hfind : Local (ownPart identity.orgId) (foreignRows identity.orgId)
      ((DashboardRepository.findById (stringOr args "sourceDashboardId" "")).zoom Session.db) s :=
    local_zoom (Local.read (congrArg (Option.map rowToDashboard) (findDashboardById_own hsource)))
  refine hfind.bind_reading (a := (s.tables.findDashboardById _).map rowToDashboard) rfl ?_
  cases (s.tables.findDashboardById (stringOr args "sourceDashboardId" "")).map rowToDashboard with
  | none => exact Local.pure
  | some source =>
    dsimp only
    cases readable source.panels "queries" with
    | error e => exact Local.throw
    | ok panels =>
      dsimp only
      obtain ⟨hlocal, hkeeps⟩ := @local_createDashboard _ _ _ drawn.now
        (newDashboard (ctx.asking access identity) _ source.description source.prompt
          (stringOr args "targetDatasourceId" "")) hnew rfl
      refine (local_zoom hlocal).bind fun created s₁ hrun => ?_
      have htables := tables_zoom hrun
      rw [htables] at hkeeps
      rw [created_id htables]
      refine local_modify_then hkeeps (fun _ _ => rfl) fun _ s₂ hown₂ => ?_
      refine local_modify_then hown₂ (fun _ _ => rfl) fun _ s₃ hown₃ => ?_
      refine (local_tryUpdateDashboardStatus hown₃).bind fun _ s₄ _ => ?_
      exact local_activate.bind fun _ _ _ => Local.pure

end Clones

end OpenObs.Agent
