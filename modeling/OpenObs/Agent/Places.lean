import OpenObs.Agent.Gate
import OpenObs.Agent.SharedDashboards
import OpenObs.Rules.Isolation

/-!
# The places a call writes to

Gate and handler read the same arguments, each in its own way.
-/

namespace OpenObs.Agent

open OpenObs.Foundation OpenObs.Resources OpenObs.Rules OpenObs.Dashboards
open OpenObs.Rbac hiding Folder

/-! ## Calls -/

/-- The calls of the tools that write under a scope of their arguments, with what their
handlers draw. -/
inductive ScopedCall : Type where
  | dashboardCreate (drawn : DrawnCall) (args : Json.Record)
  | dashboardClone (drawn : DrawnCall) (args : Json.Record)
  | folderCreate (drawn : Folders.Drawn) (args : Json.Record)
  | investigationAddSection (args : Json.Record)
  | investigationComplete (uuid now : String) (args : Json.Record)
  | alertRuleWrite (drawn : DrawnRule) (drawnFolder : Folders.Drawn) (args : Json.Record)

namespace ScopedCall

def tool : ScopedCall → AgentTool
  | .dashboardCreate _ _ => .dashboardCreate
  | .dashboardClone _ _ => .dashboardClone
  | .folderCreate _ _ => .folderCreate
  | .investigationAddSection _ => .investigationAddSection
  | .investigationComplete _ _ _ => .investigationComplete
  | .alertRuleWrite _ _ _ => .alertRuleWrite

def args : ScopedCall → Json.Record
  | .dashboardCreate _ args => args
  | .dashboardClone _ args => args
  | .folderCreate _ args => args
  | .investigationAddSection args => args
  | .investigationComplete _ _ args => args
  | .alertRuleWrite _ _ args => args

def handler (ctx : ActionContext) : ScopedCall → Prog Session String
  | .dashboardCreate drawn args => handleDashboardCreate ctx drawn args
  | .dashboardClone drawn args => handleDashboardClone ctx drawn args
  | .folderCreate drawn args => handleFolderCreate ctx drawn args
  | .investigationAddSection args => handleInvestigationAddSection ctx args
  | .investigationComplete uuid now args => handleInvestigationComplete ctx uuid now args
  | .alertRuleWrite drawn drawnFolder args => handleAlertRuleWrite ctx drawn drawnFolder args

end ScopedCall

/-! ## Places -/

inductive Place : Type where
  | folder (uid : Option String)
  | investigation (id : String)

def Names (scope : String) : Place → Prop
  | .folder uid => scope = "folders:uid:*" ∨ ∃ u, uid = some u ∧ scope = "folders:uid:" ++ u
  | .investigation id => scope = "investigations:uid:*" ∨ scope = "investigations:uid:" ++ id

def NamedBy (e : Evaluator) (place : Place) : Prop :=
  match e with
  | .action _ scopes => ∃ scope ∈ scopes, Names scope place
  | _ => False

def Touched {α : Type} (before after : List α) (row : α) : Prop :=
  (row ∈ after ∧ row ∉ before) ∨ (row ∈ before ∧ row ∉ after)

inductive Touches (folderPlace : Folder → Option String) (s s' : Session) : Place → Prop
  | dashboard {d : Dashboard} (h : Touched s.tables.dashboards s'.tables.dashboards d) :
      Touches folderPlace s s' (.folder d.folderUid)
  | folder {f : Folder} (h : Touched s.tables.folders s'.tables.folders f) :
      Touches folderPlace s s' (.folder (folderPlace f))
  | alertRule {r : AlertRule} (h : Touched s.tables.alertRules s'.tables.alertRules r) :
      Touches folderPlace s s' (.folder r.folderUid)
  | investigation {i : Investigation} (h : Touched s.investigations s'.investigations i) :
      Touches folderPlace s s' (.investigation i.id)
  | report {r : SavedInvestigationReport}
      (h : Touched s.investigationReports s'.investigationReports r) :
      Touches folderPlace s s' (.investigation r.dashboardId)
  | reportSection {id : String} (h : sectionsOf s' id ≠ sectionsOf s id) :
      Touches folderPlace s s' (.investigation id)

namespace ScopedCall

def folderPlace : ScopedCall → Folder → Option String
  | .alertRuleWrite _ _ _, f => some f.uid
  | _, f => f.parentUid

def Confined (ctx : ActionContext) (call : ScopedCall) (s : Session) : Prop :=
  ∀ e, ((buildToolEvaluator ctx call.tool call.args).run s).1 = .ok (some e) →
    ∀ place, Touches call.folderPlace s ((call.handler ctx).run s).2 place → NamedBy e place

def ConfinedByGrant (ctx : ActionContext) (call : ScopedCall) (s : Session) : Prop :=
  ∀ (db : Db) (orgId : String), FolderForest db orgId → ∀ g, g ≠ "*" → ∀ action scope,
    ((buildToolEvaluator ctx call.tool call.args).run s).1 = .ok (some (.action action [scope])) →
    authorises db orgId ⟨action, "folders:uid:" ++ g⟩ action scope = true →
    ∀ place, Touches call.folderPlace s ((call.handler ctx).run s).2 place →
      ∃ uid, place = .folder (some uid) ∧ (g = uid ∨ IsAncestor db orgId uid g)

end ScopedCall

/-! ## When the check names the place -/

structure Fits (t : Tables) (orgId : String) (userId : Option String) (id uid : String) : Prop where
  id : id ∉ t.folders.map (·.id)
  uid : t.findFolderByUid orgId uid = none
  org : orgId ∈ t.orgs
  user : Folders.FolderRepository.knownUser t userId = true

/-- The uid `folder_create` gives its folder. -/
def newFolderUid (ctx : ActionContext) (drawn : Folders.Drawn) (args : Json.Record) (t : Tables) :
    String :=
  let slug := folderSlug drawn.random (Rbac.trim (stringOr args "title" ""))
  if (t.findFolderByUid ctx.caller.orgId slug).isSome then slug ++ "-" ++ drawn.suffix else slug

def sectionTypeOf (args : Json.Record) : String :=
  (asText (some (orDefault (Json.field args "type") (.str "text")))).getD ""

/-- A completion that would change nothing: its report is stored, and the investigation
completed at that time. -/
structure Completed (s : Session) (report : SavedInvestigationReport) : Prop where
  taken : report.id ∈ s.investigationReports.map (·.id)
  same : ∀ r ∈ s.investigationReports, r.id = report.id →
    r = { report with createdAt := r.createdAt }
  status : ∀ i ∈ s.investigations, i.id = report.dashboardId →
    i.status = "completed" ∧ i.updatedAt = report.createdAt
  sections : report.sections = []

def reportOf (s : Session) (uuid now id summary : String) : SavedInvestigationReport :=
  ⟨uuid, id, summary, summary, sectionsOf s id, now⟩

def RuleFolder (ctx : ActionContext) (drawnFolder : Folders.Drawn) (args : Json.Record) (t : Tables)
    (folderUid : String) : Prop :=
  if trimmed (Json.field args "folderUid") = "" then
    folderUid = defaultFolderUid ∧ ctx.hasFolders = true ∧
      ((t.findFolderByUid ctx.caller.orgId defaultFolderUid).isSome = true ∨
        Fits t ctx.caller.orgId ctx.caller.userId drawnFolder.id defaultFolderUid)
  else folderUid = trimmed (Json.field args "folderUid")

def namesake (ctx : ActionContext) (t : Tables) (name : String) : Option AlertRule :=
  t.alertRules.find? fun r => r.workspaceId = some ctx.caller.orgId ∧ r.name = name

/-- What a create has to write in the folder `named`. -/
structure CreatesIn (ctx : ActionContext) (drawn : DrawnRule) (drawnFolder : Folders.Drawn)
    (args : Json.Record) (spec : AlertRuleCreateSpec) (t : Tables) (named : String) : Prop where
  /-- The default folder is made for the rule. -/
  folder : trimmed (Json.field args "folderUid") = "" → ctx.hasFolders = true →
    Fits t ctx.caller.orgId ctx.caller.userId drawnFolder.id defaultFolderUid →
    named = defaultFolderUid
  /-- A rule of the name is there, and the update changes it. -/
  updated : ∀ folderUid, RuleFolder ctx drawnFolder args t folderUid →
    ∀ r, namesake ctx t spec.name = some r → isProvisioned r.source = false →
    ∀ edit, AlertRuleRepository.merge ctx.platform.driver drawn.now (upsertPatch spec)
      (rowToRule r) = .ok edit → edit r ≠ r → r.folderUid = some named
  /-- A new row is inserted. -/
  created : ∀ folderUid, RuleFolder ctx drawnFolder args t folderUid →
    namesake ctx t spec.name = none → "alert_" ++ drawn.uuid ∉ t.alertRules.map (·.id) →
    (∃ row, AlertRuleRepository.newRow ctx.platform.driver drawn (generatedRule ctx folderUid
      (stringOr args "dashboardId" "") spec) = .ok row) → folderUid = named

/-- A call whose check names every folder, or every investigation; or that writes nothing; or
that writes in the place its check names. -/
def ScopedCall.NamesPlaces (ctx : ActionContext) (s : Session) : ScopedCall → Prop
  | .dashboardCreate drawn args =>
    trimmed (Json.field args "datasourceId") ≠ "" →
    drawn.dashboardId ∉ s.tables.dashboards.map (·.id) → stringOr args "folderUid" "*" = "*"
  | .dashboardClone drawn args =>
    stringOr args "sourceDashboardId" "" ≠ "" → stringOr args "targetDatasourceId" "" ≠ "" →
    ∀ source, s.tables.findDashboardById (stringOr args "sourceDashboardId" "") = some source →
    source.panels.any isNull = false →
    drawn.dashboardId ∉ s.tables.dashboards.map (·.id) → stringOr args "folderUid" "*" = "*"
  | .folderCreate drawn args =>
    requestedParent args = none → ctx.hasFolders = true →
    Rbac.trim (stringOr args "title" "") ≠ "" →
    Fits s.tables ctx.caller.orgId ctx.caller.userId drawn.id
      (newFolderUid ctx drawn args s.tables) →
    stringOr args "parentUid" "*" = "*"
  | .investigationAddSection args =>
    ∀ id, Folders.truthy s.activeInvestigationId = some id →
    (sectionTypeOf args = "text" ∨ sectionTypeOf args = "evidence") →
    stringOr args "content" "" ≠ "" →
    (∃ panel, sectionPanel ctx (sectionTypeOf args) args = .ok panel) →
    stringOr args "investigationId" "*" = "*" ∨ stringOr args "investigationId" "*" = id
  | .investigationComplete uuid now args =>
    ∀ id, Folders.truthy s.activeInvestigationId = some id → stringOr args "summary" "" ≠ "" →
    ∀ i, s.investigations.find? (·.id = id) = some i → i.workspaceId = some ctx.caller.orgId →
    ¬ Completed s (reportOf s uuid now id (stringOr args "summary" "")) →
    stringOr args "investigationId" "*" = "*" ∨
      stringOr args "investigationId" "*" = id ∧
        ∀ r ∈ s.investigationReports, r.id = uuid → r.dashboardId = id
  | .alertRuleWrite drawn drawnFolder args =>
    opOf args = "create" → ∀ spec, parseCreateSpec (Json.field args "spec") = .ok spec →
    stringOr args "folderUid" defaultFolderUid = "*" ∨
      CreatesIn ctx drawn drawnFolder args spec s.tables
        (stringOr args "folderUid" defaultFolderUid)

/-! ## Names -/

section Naming

variable {x : String} {place : Place}

theorem names_folder {uid : Option String} :
    Names ("folders:uid:" ++ x) (.folder uid) ↔ x = "*" ∨ uid = some x := by
  have hstar : "folders:uid:" ++ x = "folders:uid:*" ↔ x = "*" :=
    @String.append_right_inj "folders:uid:" x "*"
  rw [Names, hstar]
  apply or_congr_right
  constructor
  · rintro ⟨u, rfl, h⟩
    rw [(String.append_right_inj _).mp h]
  · intro h
    exact ⟨x, h, rfl⟩

theorem names_investigation {id : String} :
    Names ("investigations:uid:" ++ x) (.investigation id) ↔ x = "*" ∨ x = id := by
  have hstar : "investigations:uid:" ++ x = "investigations:uid:*" ↔ x = "*" :=
    @String.append_right_inj "investigations:uid:" x "*"
  rw [Names, hstar, String.append_right_inj]

theorem namedBy_action {action scope : String} :
    NamedBy (.action action [scope]) place ↔ Names scope place := by
  simp [NamedBy]

theorem place_under_grant {db : Db} {orgId g : String} (hforest : FolderForest db orgId)
    (hg : g ≠ "*") {action scope : String} (hnames : Names scope place)
    (hauth : authorises db orgId ⟨action, "folders:uid:" ++ g⟩ action scope = true) :
    ∃ uid, place = .folder (some uid) ∧ (g = uid ∨ IsAncestor db orgId uid g) := by
  have hall : authorises db orgId ⟨action, "folders:uid:" ++ g⟩ action "folders:uid:*" ≠ true := by
    intro h
    obtain ⟨want, hwant, hcov⟩ := authorises_iff.mp h
    refine not_covers_wildcard hg ?_ hwant hcov
    intro want hwant
    have hreg : registry db orgId "folders:uid:*" =
        ["folders:uid:*", "folders:*", "folders:uid:*"].eraseDups := rfl
    rw [hreg, List.mem_eraseDups] at hwant
    revert want
    decide
  have hother : ∀ ident, authorises db orgId ⟨action, "folders:uid:" ++ g⟩ action
      ("investigations:uid:" ++ ident) ≠ true := by
    intro ident h
    have hscope : "investigations:uid:" ++ ident = "investigations" ++ ":uid:" ++ ident := rfl
    obtain ⟨want, hwant, hcov⟩ := authorises_iff.mp h
    rw [hscope, resolve_other (by decide) (by decide), List.mem_singleton] at hwant
    rw [hwant, scopeCovers_folder hg, parseScope_uid (by decide)] at hcov
    have hkind : "investigations" = "folders" := congrArg ParsedScope.kind hcov
    exact absurd hkind (by decide)
  cases place with
  | folder uid =>
    rcases hnames with rfl | ⟨u, rfl, rfl⟩
    · exact absurd hauth hall
    · by_cases hu : u = "*"
      · rw [hu] at hauth
        exact absurd hauth hall
      · exact ⟨u, rfl, (covers_folders hforest hg hu).mp (authorises_iff.mp hauth)⟩
  | investigation id =>
    rcases hnames with rfl | rfl
    · exact absurd hauth (hother "*")
    · exact absurd hauth (hother id)

end Naming

section Tables

variable {α : Type} {l : List α} {a r : α}

theorem not_touched_self : ¬ Touched l l r := by
  rintro (⟨hin, hout⟩ | ⟨hin, hout⟩)
  · exact hout hin
  · exact hout hin

theorem touched_append (ha : a ∉ l) : Touched l (l ++ [a]) r ↔ r = a := by
  constructor
  · rintro (⟨hin, hout⟩ | ⟨hin, hout⟩)
    · rcases List.mem_append.mp hin with hin | hin
      · exact absurd hin hout
      · exact List.mem_singleton.mp hin
    · exact absurd (List.mem_append_left _ hin) hout
  · rintro rfl
    exact Or.inl ⟨List.mem_append_right _ (List.mem_singleton.mpr rfl), ha⟩

theorem touched_map {f : α → α} (h : Touched l (l.map f) r) :
    ∃ b ∈ l, f b ≠ b ∧ (r = b ∨ r = f b) := by
  rcases h with ⟨hin, hout⟩ | ⟨hin, hout⟩
  · obtain ⟨b, hb, hr⟩ := List.mem_map.mp hin
    refine ⟨b, hb, fun heq => hout ?_, Or.inr hr.symm⟩
    rw [← hr, heq]
    exact hb
  · refine ⟨r, hin, fun heq => hout ?_, Or.inl rfl⟩
    exact List.mem_map.mpr ⟨r, hin, heq⟩

end Tables

/-! ## Calls and their checks -/

section Confinement

variable {ctx : ActionContext} {s : Session} {call : ScopedCall} {x action : String}

theorem not_touches_self {folderPlace : Folder → Option String} {place : Place} :
    ¬ Touches folderPlace s s place := by
  intro h
  cases h with
  | reportSection hid => exact hid rfl
  | dashboard hd => exact not_touched_self hd
  | folder hf => exact not_touched_self hf
  | alertRule hr => exact not_touched_self hr
  | investigation hi => exact not_touched_self hi
  | report hr => exact not_touched_self hr

theorem confined_iff {scope : String}
    (hbuilt : ((buildToolEvaluator ctx call.tool call.args).run s).1 =
      .ok (some (.action action [scope]))) :
    call.Confined ctx s ↔
      ∀ place, Touches call.folderPlace s ((call.handler ctx).run s).2 place →
        Names scope place := by
  constructor
  · intro h place htouch
    exact namedBy_action.mp (h _ hbuilt place htouch)
  · intro h e he place htouch
    rw [hbuilt] at he
    cases he
    exact namedBy_action.mpr (h place htouch)

theorem confined_of_unchanged (h : ((call.handler ctx).run s).2 = s) : call.Confined ctx s := by
  intro e he place htouch
  rw [h] at htouch
  exact absurd htouch not_touches_self

end Confinement

end OpenObs.Agent
