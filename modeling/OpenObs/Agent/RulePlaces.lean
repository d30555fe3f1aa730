import OpenObs.Agent.DashboardPlaces

/-!
# The places of rules

An update and a delete find the rule the gate has looked up. A create may find a
rule of its name in another folder, and falls back to the default folder where the
gate has read something else from the same argument.
-/

namespace OpenObs.Agent

open OpenObs.Foundation OpenObs.Resources OpenObs.Rules OpenObs.Dashboards
open OpenObs.Rbac hiding Folder

section AlertRules

variable {ctx : ActionContext} {s : Session} {t : Tables} {args : Json.Record}

theorem touches_rules (s s' : Session) {folderPlace : Folder → Option String} {place : Place}
    (hdashboards : s'.tables.dashboards = s.tables.dashboards)
    (hinvestigations : s'.investigations = s.investigations)
    (hreports : s'.investigationReports = s.investigationReports)
    (hsections : s'.investigationSections = s.investigationSections) :
    Touches folderPlace s s' place ↔
      (∃ f, Touched s.tables.folders s'.tables.folders f ∧ place = .folder (folderPlace f)) ∨
      ∃ r, Touched s.tables.alertRules s'.tables.alertRules r ∧ place = .folder r.folderUid := by
  constructor
  · intro htouch
    cases htouch with
    | dashboard hd =>
      rw [hdashboards] at hd
      exact absurd hd not_touched_self
    | folder hf => exact Or.inl ⟨_, hf, rfl⟩
    | alertRule hr => exact Or.inr ⟨_, hr, rfl⟩
    | investigation hi =>
      rw [hinvestigations] at hi
      exact absurd hi not_touched_self
    | report hr =>
      rw [hreports] at hr
      exact absurd hr not_touched_self
    | reportSection hid =>
      rw [sectionsOf, sectionsOf, hsections] at hid
      exact absurd rfl hid
  · rintro (⟨f, hf, rfl⟩ | ⟨r, hr, rfl⟩)
    · exact Touches.folder hf
    · exact Touches.alertRule hr

theorem touched_editRules (hkeys : RuleKeys t) {id : String} {row r : AlertRule}
    (hrow : t.findRuleById id = some row) {edit : AlertRule → AlertRule}
    (hedit : ∀ r, (edit r).id = r.id ∧ (edit r).folderUid = r.folderUid)
    (h : Touched t.alertRules (editRules id edit t).alertRules r) :
    edit row ≠ row ∧ r.folderUid = row.folderUid := by
  obtain ⟨b, hmem, hb, hrb⟩ := touched_map h
  have hbid : b.id = id := by
    by_contra hne
    exact hb (if_neg hne)
  rw [if_pos hbid] at hb hrb
  have hbrow : b = row := eq_of_findRuleById hkeys hrow hmem hbid
  rw [hbrow] at hb hrb
  refine ⟨hb, ?_⟩
  rcases hrb with rfl | rfl
  · rfl
  · exact (hedit row).2

theorem touched_edited (hkeys : RuleKeys t) {id : String} {row : AlertRule}
    (hrow : t.findRuleById id = some row) {edit : AlertRule → AlertRule}
    (hedit : ∀ r, (edit r).id = r.id) (hne : edit row ≠ row) :
    Touched t.alertRules (editRules id edit t).alertRules (edit row) := by
  obtain ⟨hmem, hid⟩ := findRuleById_eq_some hrow
  refine Or.inl ⟨List.mem_map.mpr ⟨row, hmem, if_pos hid⟩, fun h => hne ?_⟩
  exact eq_of_findRuleById hkeys hrow h ((hedit row).trans hid)

/-! ### Update and delete -/

theorem gate_names_rule (hkeys : RuleKeys t) {orgId id : String} {row : AlertRule}
    (hrow : t.findRuleById id = some row) :
    (t.ruleFolderUid orgId id).getD "*" = "*" ∨
      row.folderUid = some ((t.ruleFolderUid orgId id).getD "*") := by
  rw [Tables.ruleFolderUid]
  cases hfind : t.alertRules.find? fun r => r.orgId = orgId ∧ r.id = id with
  | none => exact Or.inl rfl
  | some r =>
    have hr : r.id = id := by
      have hmatch := List.find?_some hfind
      simp only [decide_eq_true_eq] at hmatch
      exact hmatch.2
    have hsame : r = row :=
      eq_of_findRuleById hkeys hrow (List.mem_of_find?_eq_some hfind) hr
    rw [hsame, Option.bind_some]
    cases row.folderUid with
    | none => exact Or.inl rfl
    | some folderUid => exact Or.inr rfl

theorem run_updateAlertRule {now : String} :
    ((updateAlertRule ctx now args).run s).2 = s ∨
    ∃ row edit, s.tables.findRuleById (stringOr args "ruleId" "") = some row ∧
      (∀ r : AlertRule, (edit r).id = r.id ∧ (edit r).folderUid = r.folderUid) ∧
      ((updateAlertRule ctx now args).run s).2 =
        Session.db.set (editRules (stringOr args "ruleId" "") edit s.tables) s := by
  rw [updateAlertRule, Prog.run_bind]
  have hfind : ((AlertRuleRepository.findById (stringOr args "ruleId" "")).zoom Session.db).run s =
      (.ok ((s.tables.findRuleById (stringOr args "ruleId" "")).map rowToRule), s) := rfl
  rw [hfind]
  cases hrow : s.tables.findRuleById (stringOr args "ruleId" "") with
  | none => exact Or.inl rfl
  | some row =>
    dsimp only [Option.map_some]
    split
    · exact Or.inl rfl
    · rw [Prog.run_bind]
      have heval : ∃ allowed, (evalAlertRuleWrite ctx "alert.rules:write"
          (stringOr args "ruleId" "")).run s = (.ok allowed, s) := ⟨_, rfl⟩
      obtain ⟨allowed, heval⟩ := heval
      rw [heval]
      cases allowed with
      | false => exact Or.inl rfl
      | true =>
        dsimp only
        rw [if_pos rfl, Prog.run_discard, Prog.run_zoom]
        rcases @run_updateRule s.tables ctx.platform.driver now (stringOr args "ruleId" "")
          (updatePatch (rowToRule row) (orDefault (Json.field args "patch") (.obj args))) row hrow
          with ⟨e, -, herr⟩ | ⟨edit, hmerge, hok⟩
        · exact Or.inl (congrArg (Session.db.set · s) (congrArg Prod.snd herr))
        · obtain ⟨_, -, hedit⟩ := AlertRuleRepository.merge_ok hmerge
          exact Or.inr ⟨row, edit, rfl, fun r => ⟨(hedit r).1, (hedit r).2.2.1⟩,
            congrArg (Session.db.set · s) (congrArg Prod.snd hok)⟩

theorem run_deleteAlertRule :
    ((deleteAlertRule ctx args).run s).2 = s ∨
    ∃ row, s.tables.findRuleById (stringOr args "ruleId" "") = some row ∧
      ((deleteAlertRule ctx args).run s).2 = Session.db.set
        (Folders.FolderService.deleteRules (·.id == stringOr args "ruleId" "") s.tables) s := by
  rw [deleteAlertRule]
  dsimp only
  rw [Prog.run_bind]
  have hfind : ((AlertRuleRepository.findById (stringOr args "ruleId" "")).zoom Session.db).run s =
      (.ok ((s.tables.findRuleById (stringOr args "ruleId" "")).map rowToRule), s) := rfl
  rw [hfind]
  dsimp only
  split
  · exact Or.inl rfl
  · rw [Prog.run_bind]
    have heval : ∃ allowed, (evalAlertRuleWrite ctx "alert.rules:delete"
        (stringOr args "ruleId" "")).run s = (.ok allowed, s) := ⟨_, rfl⟩
    obtain ⟨allowed, heval⟩ := heval
    rw [heval]
    cases allowed with
    | false => exact Or.inl rfl
    | true =>
      dsimp only
      rw [if_pos rfl, Prog.run_discard, Prog.run_zoom]
      show Session.db.set ((AlertRuleRepository.delete _).run s.tables).2 s = s ∨
        ∃ row, _ ∧ Session.db.set ((AlertRuleRepository.delete _).run s.tables).2 s = _
      rw [AlertRuleRepository.delete, AlertRuleRepository.findById, Prog.run_bind, Prog.run_read]
      cases hrow : s.tables.findRuleById (stringOr args "ruleId" "") with
      | none => exact Or.inl rfl
      | some row => exact Or.inr ⟨row, rfl, rfl⟩

theorem confined_of_rule {call : ScopedCall} {action id : String} (hkeys : RuleKeys s.tables)
    (hbuilt : ((buildToolEvaluator ctx call.tool call.args).run s).1 = .ok (some (.action action
      ["folders:uid:" ++ (s.tables.ruleFolderUid ctx.caller.orgId id).getD "*"])))
    {row : AlertRule} (hrow : s.tables.findRuleById id = some row)
    (htouches : ∀ place, Touches call.folderPlace s ((call.handler ctx).run s).2 place →
      place = .folder row.folderUid) :
    call.Confined ctx s := by
  rw [confined_iff hbuilt]
  intro place htouch
  rw [htouches place htouch]
  exact names_folder.mpr (gate_names_rule hkeys hrow)

/-! ### Create -/

section Create

variable {drawn : DrawnRule} {drawnFolder : Folders.Drawn} {spec : AlertRuleCreateSpec}

structure MakesFolder (ctx : ActionContext) (drawnFolder : Folders.Drawn) (args : Json.Record)
    (t : Tables) : Prop where
  requested : trimmed (Json.field args "folderUid") = ""
  backend : ctx.hasFolders = true
  fits : Fits t ctx.caller.orgId ctx.caller.userId drawnFolder.id defaultFolderUid

def Resolved (ctx : ActionContext) (drawnFolder : Folders.Drawn) (args : Json.Record)
    (s s₁ : Session) : Prop :=
  (¬ MakesFolder ctx drawnFolder args s.tables ∧ s₁ = s) ∨
  (MakesFolder ctx drawnFolder args s.tables ∧ ∃ row : Folder, row.uid = defaultFolderUid ∧
    row ∉ s.tables.folders ∧
    s₁ = Session.db.set { s.tables with folders := s.tables.folders ++ [row] } s)

def defaultFolder (ctx : ActionContext) : Folders.NewFolder where
  uid := defaultFolderUid
  orgId := ctx.caller.orgId
  title := "Alerts"
  description := some "Default folder for alert rules created without an explicit folder."
  parentUid := none
  createdBy := ctx.caller.userId
  updatedBy := ctx.caller.userId
  source := some .aiGenerated

theorem run_resolveFolder :
    ((∀ folderUid, ¬ RuleFolder ctx drawnFolder args s.tables folderUid) ∧
      ¬ MakesFolder ctx drawnFolder args s.tables ∧
      ∃ e, (resolveAlertRuleFolderUid ctx drawnFolder args).run s = (.error e, s)) ∨
    ∃ folderUid s₁, RuleFolder ctx drawnFolder args s.tables folderUid ∧
      (∀ other, RuleFolder ctx drawnFolder args s.tables other → other = folderUid) ∧
      (resolveAlertRuleFolderUid ctx drawnFolder args).run s = (.ok folderUid, s₁) ∧
      Resolved ctx drawnFolder args s s₁ := by
  rw [resolveAlertRuleFolderUid]
  by_cases hrequested : trimmed (Json.field args "folderUid") = ""
  · rw [if_neg (not_not.mpr hrequested)]
    have hfolder : ∀ folderUid, RuleFolder ctx drawnFolder args s.tables folderUid ↔
        folderUid = defaultFolderUid ∧ ctx.hasFolders = true ∧
          ((s.tables.findFolderByUid ctx.caller.orgId defaultFolderUid).isSome = true ∨
            Fits s.tables ctx.caller.orgId ctx.caller.userId drawnFolder.id defaultFolderUid) := by
      intro folderUid
      rw [RuleFolder, if_pos hrequested]
    by_cases hbackend : ctx.hasFolders = false
    · rw [if_pos hbackend]
      refine Or.inl ⟨fun folderUid h => ?_, fun h => ?_, _, rfl⟩
      · have htrue := ((hfolder folderUid).mp h).2.1
        rw [hbackend] at htrue
        cases htrue
      · have htrue := h.backend
        rw [hbackend] at htrue
        cases htrue
    · have hbackend' : ctx.hasFolders = true := by simpa using hbackend
      rw [if_neg hbackend, Prog.run_bind]
      have hfind : ((Folders.FolderRepository.findByUid ctx.caller.orgId defaultFolderUid).zoom
          Session.db).run s =
          (.ok (s.tables.findFolderByUid ctx.caller.orgId defaultFolderUid), s) := rfl
      rw [hfind]
      cases hexisting : s.tables.findFolderByUid ctx.caller.orgId defaultFolderUid with
      | some existing =>
        have huid : existing.uid = defaultFolderUid :=
          (Folders.findFolderByUid_eq_some hexisting).2.2
        refine Or.inr ⟨defaultFolderUid, s, (hfolder _).mpr ⟨rfl, hbackend', Or.inl ?_⟩,
          fun other h => ((hfolder other).mp h).1, ?_, Or.inl ⟨fun h => ?_, rfl⟩⟩
        · rw [hexisting]
          rfl
        · rw [← huid]
          rfl
        · have hnone := h.fits.uid
          rw [hexisting] at hnone
          cases hnone
      | none =>
        dsimp only
        rw [Prog.run_bind, Prog.run_zoom]
        rcases @run_createFolder s.tables drawnFolder.id drawnFolder.now
          (defaultFolder ctx) ctx.caller.userId rfl rfl with
          ⟨hfits, e, herr⟩ | ⟨hfits, hok⟩
        · have hfits' : ¬ Fits s.tables ctx.caller.orgId ctx.caller.userId drawnFolder.id
              defaultFolderUid := fun h => hfits ⟨rfl, h⟩
          refine Or.inl ⟨fun folderUid h => ?_, fun h => hfits' h.fits, e, ?_⟩
          · rcases ((hfolder folderUid).mp h).2.2 with h | h
            · rw [hexisting] at h
              cases h
            · exact hfits' h
          · rw [defaultFolder] at herr
            rw [show Session.db.get s = s.tables from rfl, herr]
            rfl
        · have hnew : Folders.FolderRepository.newRow drawnFolder.id drawnFolder.now
              (defaultFolder ctx) ∉ s.tables.folders :=
            fun hmem => hfits.id (List.mem_map_of_mem hmem)
          refine Or.inr ⟨defaultFolderUid, _, (hfolder _).mpr ⟨rfl, hbackend', Or.inr hfits⟩,
            fun other h => ((hfolder other).mp h).1, ?_,
            Or.inr ⟨⟨hrequested, hbackend', hfits⟩, _, rfl, hnew, rfl⟩⟩
          rw [defaultFolder] at hok
          rw [show Session.db.get s = s.tables from rfl, hok]
          rfl
  · rw [if_pos hrequested]
    have hfolder : ∀ folderUid, RuleFolder ctx drawnFolder args s.tables folderUid ↔
        folderUid = trimmed (Json.field args "folderUid") := by
      intro folderUid
      rw [RuleFolder, if_neg hrequested]
    exact Or.inr ⟨_, s, (hfolder _).mpr rfl, fun other h => (hfolder other).mp h, rfl,
      Or.inl ⟨fun h => hrequested h.requested, rfl⟩⟩

inductive RuleStep (ctx : ActionContext) (drawn : DrawnRule) (args : Json.Record)
    (spec : AlertRuleCreateSpec) (folderUid : String) (t : Tables) : List AlertRule → Prop
  | same
      (hupdated : ∀ r, namesake ctx t spec.name = some r → isProvisioned r.source = false →
        ∀ edit, AlertRuleRepository.merge ctx.platform.driver drawn.now (upsertPatch spec)
          (rowToRule r) ≠ .ok edit)
      (hcreated : namesake ctx t spec.name = none → "alert_" ++ drawn.uuid ∉ t.alertRules.map (·.id) →
        ¬ ∃ row, AlertRuleRepository.newRow ctx.platform.driver drawn (generatedRule ctx folderUid
          (stringOr args "dashboardId" "") spec) = .ok row) :
      RuleStep ctx drawn args spec folderUid t t.alertRules
  | updated (r : AlertRule) (edit : AlertRule → AlertRule)
      (hname : namesake ctx t spec.name = some r) (hsource : isProvisioned r.source = false)
      (hmerge : AlertRuleRepository.merge ctx.platform.driver drawn.now (upsertPatch spec)
        (rowToRule r) = .ok edit) :
      RuleStep ctx drawn args spec folderUid t (editRules r.id edit t).alertRules
  | created (row : AlertRule) (hname : namesake ctx t spec.name = none)
      (hid : "alert_" ++ drawn.uuid ∉ t.alertRules.map (·.id))
      (hrow : AlertRuleRepository.newRow ctx.platform.driver drawn (generatedRule ctx folderUid
        (stringOr args "dashboardId" "") spec) = .ok row) :
      RuleStep ctx drawn args spec folderUid t (t.alertRules ++ [row])

theorem find_findByWorkspace {name : String} :
    ((t.alertRules.filter (·.workspaceId = some ctx.caller.orgId)).map rowToRule).find?
      (·.name = name) = (namesake ctx t name).map rowToRule := by
  have hname : ((fun r : AlertRule => decide (r.name = name)) ∘ rowToRule) =
      fun r => decide (r.name = name) := rfl
  rw [List.find?_map, hname, List.find?_filter, namesake]
  congr 2
  ext r
  by_cases h : r.workspaceId = some ctx.caller.orgId <;> simp [h]

theorem findRuleById_of_mem (hkeys : RuleKeys t) {r : AlertRule} (hr : r ∈ t.alertRules) :
    t.findRuleById r.id = some r := by
  cases hfind : t.findRuleById r.id with
  | none =>
    rw [Tables.findRuleById, List.find?_eq_none] at hfind
    exact absurd (decide_eq_true rfl) (hfind r hr)
  | some row =>
    rw [eq_of_findRuleById hkeys hfind hr rfl]

theorem run_createRest (hkeys : RuleKeys s.tables) {folderUid : String} :
    ∃ rules, RuleStep ctx drawn args spec folderUid s.tables rules ∧
      ((do
        match ← upsert ctx drawn.now spec with
        | .error refusal => return refusal
        | .ok (some rule) => return describeRule ctx "Updated" rule
        | .ok none => do
            let rule ← (AlertRuleRepository.create ctx.platform.driver drawn
              (generatedRule ctx folderUid (stringOr args "dashboardId" "") spec)).zoom Session.db
            return describeRule ctx "Created" rule : Prog Session String).run s).2 =
        Session.db.set { s.tables with alertRules := rules } s := by
  have hlist : ((findByWorkspace ctx.caller.orgId).zoom Session.db).run s =
      (.ok ((s.tables.alertRules.filter (·.workspaceId = some ctx.caller.orgId)).map rowToRule),
        s) := rfl
  rw [Prog.run_bind, upsert, Prog.run_bind, hlist]
  dsimp only
  rw [find_findByWorkspace]
  cases hname : namesake ctx s.tables spec.name with
  | none =>
    dsimp only [Option.map_none]
    rw [Prog.run_pure]
    dsimp only
    rw [Prog.run_discard, Prog.run_zoom]
    rcases AlertRuleRepository.run_create ctx.platform.driver drawn
      (generatedRule ctx folderUid (stringOr args "dashboardId" "") spec) s.tables with
      ⟨e, herr⟩ | ⟨row, hrow, hid, hok⟩
    · refine ⟨s.tables.alertRules, .same ?_ ?_, congrArg (Session.db.set · s)
        (congrArg Prod.snd herr)⟩
      · intro r hr
        rw [hname] at hr
        cases hr
      · rintro - hfresh ⟨row, hrow⟩
        rw [AlertRuleRepository.create, Prog.run_attempt, hrow] at herr
        dsimp only at herr
        rw [if_neg (by rw [(AlertRuleRepository.newRow_ok hrow).1]; exact hfresh)] at herr
        cases herr
    · rw [(AlertRuleRepository.newRow_ok hrow).1] at hid
      exact ⟨_, .created row hname hid hrow, congrArg (Session.db.set · s)
        (congrArg Prod.snd hok)⟩
  | some r =>
    have hmem : r ∈ s.tables.alertRules := List.mem_of_find?_eq_some hname
    have hfound := findRuleById_of_mem hkeys hmem
    have hfind : ((AlertRuleRepository.findById (rowToRule r).id).zoom Session.db).run s =
        (.ok ((s.tables.findRuleById r.id).map rowToRule), s) := rfl
    dsimp only [Option.map_some]
    rw [Prog.run_bind, hfind, hfound]
    dsimp only [Option.map_some, Option.getD_some]
    by_cases hsource : isProvisioned r.source = true
    · refine ⟨s.tables.alertRules, .same ?_ ?_, ?_⟩
      · intro r' hr' hwritable
        rw [hname] at hr'
        cases hr'
        rw [hsource] at hwritable
        cases hwritable
      · intro hnone
        rw [hname] at hnone
        cases hnone
      · have hprov : isProvisioned (rowToRule r).source = true := hsource
        rw [if_pos hprov]
        rfl
    · have hprov : ¬ isProvisioned (rowToRule r).source = true := hsource
      rw [if_neg hprov, Prog.run_bind, Prog.run_zoom]
      rcases @run_updateRule s.tables ctx.platform.driver drawn.now r.id (upsertPatch spec) r hfound
        with ⟨e, hmerge, herr⟩ | ⟨edit, hmerge, hok⟩
      · refine ⟨s.tables.alertRules, .same ?_ ?_, ?_⟩
        · intro r' hr' _ edit hok
          rw [hname] at hr'
          cases hr'
          rw [hmerge] at hok
          cases hok
        · intro hnone
          rw [hname] at hnone
          cases hnone
        · rw [show Session.db.get s = s.tables from rfl, show (rowToRule r).id = r.id from rfl,
            herr]
      · refine ⟨_, .updated r edit hname (by simpa using hsource) hmerge, ?_⟩
        rw [show Session.db.get s = s.tables from rfl, show (rowToRule r).id = r.id from rfl, hok]
        rfl

theorem run_ruleCreate (hkeys : RuleKeys s.tables) (hop : opOf args = "create")
    (hspec : parseCreateSpec (Json.field args "spec") = .ok spec) :
    (((handleAlertRuleWrite ctx drawn drawnFolder args).run s).2 = s ∧
      (∀ folderUid, ¬ RuleFolder ctx drawnFolder args s.tables folderUid) ∧
      ¬ MakesFolder ctx drawnFolder args s.tables) ∨
    ∃ folderUid s₁ rules, RuleFolder ctx drawnFolder args s.tables folderUid ∧
      (∀ other, RuleFolder ctx drawnFolder args s.tables other → other = folderUid) ∧
      Resolved ctx drawnFolder args s s₁ ∧
      RuleStep ctx drawn args spec folderUid s.tables rules ∧
      ((handleAlertRuleWrite ctx drawn drawnFolder args).run s).2 =
        Session.db.set { s₁.tables with alertRules := rules } s₁ := by
  have hcode : handleAlertRuleWrite ctx drawn drawnFolder args =
      createAlertRule ctx drawn drawnFolder args := by
    rw [handleAlertRuleWrite, hop, if_neg (by decide), if_pos rfl, hspec]
  rw [hcode, createAlertRule, Prog.run_bind]
  rcases @run_resolveFolder ctx s args drawnFolder with
    ⟨hnone, hmakes, e, herr⟩ | ⟨folderUid, s₁, hfolder, hunique, hok, hresolved⟩
  · rw [herr]
    exact Or.inl ⟨rfl, hnone, hmakes⟩
  · rw [hok]
    dsimp only
    rw [hspec]
    have hrules : s₁.tables.alertRules = s.tables.alertRules := by
      rcases hresolved with ⟨-, rfl⟩ | ⟨-, row, -, -, rfl⟩ <;> rfl
    have hkeys₁ : RuleKeys s₁.tables := by
      rw [RuleKeys, hrules]
      exact hkeys
    obtain ⟨rules, hstep, hrun⟩ := @run_createRest ctx s₁ args drawn spec hkeys₁ folderUid
    refine Or.inr ⟨folderUid, s₁, rules, hfolder, hunique, hresolved, ?_, hrun⟩
    have hname : namesake ctx s₁.tables spec.name = namesake ctx s.tables spec.name := by
      rw [namesake, namesake, hrules]
    cases hstep with
    | same hupdated hcreated =>
      rw [hname] at hupdated hcreated
      rw [hrules] at hcreated ⊢
      exact .same hupdated hcreated
    | updated r edit hfound hsource hmerge =>
      rw [hname] at hfound
      rw [editRules, hrules]
      exact .updated r edit hfound hsource hmerge
    | created row hfound hid hrow =>
      rw [hname] at hfound
      rw [hrules] at hid ⊢
      exact .created row hfound hid hrow

theorem touches_ruleCreate {s₁ : Session} {rules : List AlertRule}
    (hresolved : Resolved ctx drawnFolder args s s₁) {place : Place} :
    Touches (ScopedCall.alertRuleWrite drawn drawnFolder args).folderPlace s
        (Session.db.set { s₁.tables with alertRules := rules } s₁) place ↔
      (MakesFolder ctx drawnFolder args s.tables ∧ place = .folder (some defaultFolderUid)) ∨
      ∃ r, Touched s.tables.alertRules rules r ∧ place = .folder r.folderUid := by
  have hsame : s₁.tables.dashboards = s.tables.dashboards ∧ s₁.investigations = s.investigations ∧
      s₁.investigationReports = s.investigationReports ∧
      s₁.investigationSections = s.investigationSections := by
    rcases hresolved with ⟨-, rfl⟩ | ⟨-, row, -, -, rfl⟩ <;> exact ⟨rfl, rfl, rfl, rfl⟩
  obtain ⟨hdashboards, hinvestigations, hreports, hsections⟩ := hsame
  rw [touches_rules s (Session.db.set { s₁.tables with alertRules := rules } s₁) hdashboards
    hinvestigations hreports hsections]
  apply or_congr_left
  rcases hresolved with ⟨hmakes, rfl⟩ | ⟨hmakes, row, huid, hrow, rfl⟩
  · constructor
    · rintro ⟨f, hf, -⟩
      exact absurd hf not_touched_self
    · rintro ⟨h, -⟩
      exact absurd h hmakes
  · constructor
    · rintro ⟨f, hf, rfl⟩
      rw [(touched_append hrow).mp hf]
      exact ⟨hmakes, congrArg (Place.folder ∘ some) huid⟩
    · rintro ⟨-, rfl⟩
      exact ⟨row, (touched_append hrow).mpr rfl, congrArg (Place.folder ∘ some) huid.symm⟩

theorem namesake_found (hkeys : RuleKeys t) {name : String} {r : AlertRule}
    (h : namesake ctx t name = some r) : t.findRuleById r.id = some r :=
  findRuleById_of_mem hkeys (List.mem_of_find?_eq_some h)

theorem confined_ruleCreate (hkeys : RuleKeys s.tables) (hop : opOf args = "create")
    (hspec : parseCreateSpec (Json.field args "spec") = .ok spec) :
    (ScopedCall.alertRuleWrite drawn drawnFolder args).Confined ctx s ↔
      stringOr args "folderUid" defaultFolderUid = "*" ∨
        CreatesIn ctx drawn drawnFolder args spec s.tables
          (stringOr args "folderUid" defaultFolderUid) := by
  rcases @run_ruleCreate ctx s args drawn drawnFolder spec hkeys hop hspec with
    ⟨hsame, hnone, hmakes⟩ | ⟨folderUid, s₁, rules, hfolder, hunique, hresolved, hstep, hset⟩
  · constructor
    · intro _
      exact Or.inr ⟨fun hrequested hbackend hfits => absurd ⟨hrequested, hbackend, hfits⟩ hmakes,
        fun folderUid hfolder => absurd hfolder (hnone folderUid),
        fun folderUid hfolder => absurd hfolder (hnone folderUid)⟩
    · intro _
      exact confined_of_unchanged hsame
  · have hbuilt : ((buildToolEvaluator ctx (ScopedCall.alertRuleWrite drawn drawnFolder args).tool
        args).run s).1 = .ok (some (.action "alert.rules:create"
          ["folders:uid:" ++ stringOr args "folderUid" defaultFolderUid])) := by
      show ((do
        let e ← alertRuleWriteEvaluator ctx args
        return some e : Prog Session (Option Evaluator)).run s).1 = _
      rw [alertRuleWriteEvaluator, hop, if_pos rfl]
      rfl
    rw [confined_iff hbuilt, ScopedCall.handler, hset]
    simp only [touches_ruleCreate hresolved]
    constructor
    · intro h
      by_cases hstar : stringOr args "folderUid" defaultFolderUid = "*"
      · exact Or.inl hstar
      have hnamed : ∀ uid, Names ("folders:uid:" ++ stringOr args "folderUid" defaultFolderUid)
          (.folder uid) → uid = some (stringOr args "folderUid" defaultFolderUid) := by
        intro uid hnames
        exact (names_folder.mp hnames).resolve_left hstar
      refine Or.inr ⟨fun hrequested hbackend hfits => ?_, ?_, ?_⟩
      · have hmade := hnamed _ (h _ (Or.inl ⟨⟨hrequested, hbackend, hfits⟩, rfl⟩))
        exact (Option.some.inj hmade).symm
      · intro _ _ r hname hsource edit hmerge hne
        obtain ⟨_, -, hedit⟩ := AlertRuleRepository.merge_ok hmerge
        cases hstep with
        | same hupdated _ => exact absurd hmerge (hupdated r hname hsource edit)
        | updated r' edit' hname' _ hmerge' =>
          rw [hname] at hname'
          cases hname'
          rw [hmerge] at hmerge'
          cases hmerge'
          have htouched := touched_edited hkeys (namesake_found hkeys hname)
            (fun r => (hedit r).1) hne
          rw [← (hedit r).2.2.1]
          exact hnamed _ (h _ (Or.inr ⟨_, htouched, rfl⟩))
        | created row hname' _ _ =>
          rw [hname] at hname'
          cases hname'
      · rintro other hother hname hid ⟨row, hrow⟩
        rw [hunique other hother] at hrow ⊢
        cases hstep with
        | same _ hcreated => exact absurd ⟨row, hrow⟩ (hcreated hname hid)
        | updated r' edit' hname' _ _ =>
          rw [hname] at hname'
          cases hname'
        | created row' _ _ hrow' =>
          rw [hrow] at hrow'
          cases hrow'
          obtain ⟨hrowid, -, -, hrowfolder⟩ := AlertRuleRepository.newRow_ok hrow
          have hnew : row ∉ s.tables.alertRules := by
            intro hmem
            rw [← hrowid] at hid
            exact hid (List.mem_map_of_mem hmem)
          have hplace := hnamed _ (h _ (Or.inr ⟨row, (touched_append hnew).mpr rfl, rfl⟩))
          rw [hrowfolder] at hplace
          exact Option.some.inj hplace
    · rintro hcond place htouch
      rcases hcond with hstar | hcreates
      · rcases htouch with ⟨-, rfl⟩ | ⟨r, -, rfl⟩
        · exact names_folder.mpr (Or.inl hstar)
        · exact names_folder.mpr (Or.inl hstar)
      · rcases htouch with ⟨hmakes, rfl⟩ | ⟨r, hr, rfl⟩
        · rw [hcreates.folder hmakes.requested hmakes.backend hmakes.fits]
          exact names_folder.mpr (Or.inr rfl)
        · apply names_folder.mpr
          right
          cases hstep with
          | same _ _ => exact absurd hr not_touched_self
          | updated r' edit hname hsource hmerge =>
            obtain ⟨_, -, hedit⟩ := AlertRuleRepository.merge_ok hmerge
            obtain ⟨hne, hplace⟩ := touched_editRules hkeys (namesake_found hkeys hname)
              (fun r => ⟨(hedit r).1, (hedit r).2.2.1⟩) hr
            rw [hplace]
            exact hcreates.updated folderUid hfolder r' hname hsource edit hmerge hne
          | created row hname hid hrow =>
            obtain ⟨hrowid, -, -, hrowfolder⟩ := AlertRuleRepository.newRow_ok hrow
            have hnew : row ∉ s.tables.alertRules := by
              intro hmem
              rw [← hrowid] at hid
              exact hid (List.mem_map_of_mem hmem)
            rw [(touched_append hnew).mp hr, hrowfolder]
            exact congrArg some (hcreates.created folderUid hfolder hname hid ⟨row, hrow⟩)

theorem unchanged_ruleWrite (hop : opOf args ≠ "update") (hop' : opOf args ≠ "delete")
    (hspec : opOf args = "create" → ∀ spec, parseCreateSpec (Json.field args "spec") ≠ .ok spec) :
    ((handleAlertRuleWrite ctx drawn drawnFolder args).run s).2 = s := by
  rw [handleAlertRuleWrite]
  split
  · rfl
  · split
    · rename_i hcreate
      cases hparse : parseCreateSpec (Json.field args "spec") with
      | error e => rfl
      | ok spec => exact absurd hparse (hspec hcreate spec)
    · rfl

theorem built_ofRule {action : String} (hop : opOf args = "update" ∧ action = "alert.rules:write" ∨
      opOf args = "delete" ∧ action = "alert.rules:delete")
    (hid : stringOr args "ruleId" "" ≠ "") :
    ((buildToolEvaluator ctx .alertRuleWrite args).run s).1 = .ok (some (.action action
      ["folders:uid:" ++
        (s.tables.ruleFolderUid ctx.caller.orgId (stringOr args "ruleId" "")).getD "*"])) := by
  show ((do
    let e ← alertRuleWriteEvaluator ctx args
    return some e : Prog Session (Option Evaluator)).run s).1 = _
  rw [alertRuleWriteEvaluator]
  rcases hop with ⟨hop, rfl⟩ | ⟨hop, rfl⟩
  · rw [hop, if_neg (by decide), if_pos (Or.inl rfl), lookupAlertRuleFolderUid, if_neg hid]
    rfl
  · rw [hop, if_neg (by decide), if_pos (Or.inr rfl), lookupAlertRuleFolderUid, if_neg hid]
    rfl

theorem ruleId_ne_empty (h : hasRuleId args = true) : stringOr args "ruleId" "" ≠ "" := by
  rw [hasRuleId, Option.isSome_iff_exists] at h
  obtain ⟨id, hid⟩ := h
  obtain ⟨htext, hne⟩ := Folders.truthy_eq_some.mp hid
  rw [stringOr_of_str (asText_eq_some htext)]
  exact hne

theorem confined_ruleUpdate (hkeys : RuleKeys s.tables) (hop : opOf args = "update") :
    (ScopedCall.alertRuleWrite drawn drawnFolder args).Confined ctx s := by
  have hcode : (ScopedCall.alertRuleWrite drawn drawnFolder args).handler ctx =
      if hasRuleId args then updateAlertRule ctx drawn.now args
      else return "Error: alert_rule_write with op=\"update\" requires \"ruleId\"." := by
    rw [ScopedCall.handler, handleAlertRuleWrite, hop, if_neg (by decide), if_neg (by decide),
      if_pos rfl]
  by_cases hid : hasRuleId args = true
  · rw [if_pos hid] at hcode
    rcases @run_updateAlertRule ctx s args drawn.now with hsame | ⟨row, edit, hrow, hedit, hset⟩
    · apply confined_of_unchanged
      rw [hcode, hsame]
    · apply confined_of_rule hkeys (built_ofRule (Or.inl ⟨hop, rfl⟩) (ruleId_ne_empty hid)) hrow
      intro place htouch
      rw [hcode, hset, touches_rules s (Session.db.set (editRules _ edit s.tables) s) rfl rfl rfl
        rfl] at htouch
      rcases htouch with ⟨f, hf, -⟩ | ⟨r, hr, rfl⟩
      · exact absurd hf not_touched_self
      · rw [(touched_editRules hkeys hrow hedit hr).2]
  · rw [if_neg hid] at hcode
    apply confined_of_unchanged
    rw [hcode]
    rfl

theorem confined_ruleDelete (hkeys : RuleKeys s.tables) (hop : opOf args = "delete") :
    (ScopedCall.alertRuleWrite drawn drawnFolder args).Confined ctx s := by
  have hcode : (ScopedCall.alertRuleWrite drawn drawnFolder args).handler ctx =
      if hasRuleId args then deleteAlertRule ctx args
      else return "Error: alert_rule_write with op=\"delete\" requires \"ruleId\"." := by
    rw [ScopedCall.handler, handleAlertRuleWrite, hop, if_neg (by decide), if_neg (by decide),
      if_neg (by decide), if_pos rfl]
  by_cases hid : hasRuleId args = true
  · rw [if_pos hid] at hcode
    rcases @run_deleteAlertRule ctx s args with hsame | ⟨row, hrow, hset⟩
    · apply confined_of_unchanged
      rw [hcode, hsame]
    · apply confined_of_rule hkeys (built_ofRule (Or.inr ⟨hop, rfl⟩) (ruleId_ne_empty hid)) hrow
      intro place htouch
      rw [hcode, hset, touches_rules s (Session.db.set (Folders.FolderService.deleteRules _ s.tables)
        s) rfl rfl rfl rfl] at htouch
      rcases htouch with ⟨f, hf, -⟩ | ⟨r, hr, rfl⟩
      · exact absurd hf not_touched_self
      · -- the one row that is gone
        rcases hr with ⟨hin, hout⟩ | ⟨hin, hout⟩
        · exact absurd (List.mem_of_mem_filter hin) hout
        · have hrid : r.id = stringOr args "ruleId" "" := by
            by_contra hne
            exact hout (List.mem_filter.mpr ⟨hin, by simpa using hne⟩)
          rw [eq_of_findRuleById hkeys hrow hin hrid]
  · rw [if_neg hid] at hcode
    apply confined_of_unchanged
    rw [hcode]
    rfl

theorem confined_ruleWrite (hkeys : RuleKeys s.tables) :
    (ScopedCall.alertRuleWrite drawn drawnFolder args).Confined ctx s ↔
      (ScopedCall.alertRuleWrite drawn drawnFolder args).NamesPlaces ctx s := by
  rw [ScopedCall.NamesPlaces]
  by_cases hcreate : opOf args = "create"
  · cases hparse : parseCreateSpec (Json.field args "spec") with
    | error e =>
      have hconfined : (ScopedCall.alertRuleWrite drawn drawnFolder args).Confined ctx s := by
        apply confined_of_unchanged
        apply unchanged_ruleWrite
        · rw [hcreate]
          decide
        · rw [hcreate]
          decide
        · intro _ spec hspec
          rw [hparse] at hspec
          cases hspec
      constructor
      · intro _ _ spec hspec
        cases hspec
      · intro _
        exact hconfined
    | ok spec =>
      rw [confined_ruleCreate hkeys hcreate hparse]
      constructor
      · intro h _ spec' hspec'
        cases hspec'
        exact h
      · intro h
        exact h hcreate spec rfl
  · constructor
    · intro _ h
      exact absurd h hcreate
    · intro _
      by_cases hupdate : opOf args = "update"
      · exact confined_ruleUpdate hkeys hupdate
      · by_cases hdelete : opOf args = "delete"
        · exact confined_ruleDelete hkeys hdelete
        · exact confined_of_unchanged (unchanged_ruleWrite hupdate hdelete fun h => absurd h hcreate)

end Create

end AlertRules

end OpenObs.Agent
