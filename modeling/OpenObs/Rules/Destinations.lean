import OpenObs.Dashboards.Fork
import OpenObs.Rules.Isolation

/-!
# Where a creation lands

The three requests that make a rule or a dashboard in a folder. `POST` checks the
folder it then writes, though both are read from the body on their own. The forks check
that the source may be read; nothing asks for the folder of the copy.
-/

namespace OpenObs.Rules

open OpenObs.Foundation OpenObs.Resources OpenObs.Folders OpenObs.Dashboards

/-! ## Requests -/

inductive CreateRequest : Type where
  | postRule (drawn : DrawnRule) (drawnFolder : Drawn) (body : Json.Record)
  | forkRule (drawn : DrawnRule) (id : String) (body : Json.Record)
  | forkDashboard (drawn : DrawnDashboard) (id : String) (body : Json.Record)

def CreateRequest.after (driver : Driver) (caller : Caller) (t : Tables) : CreateRequest → Tables
  | .postRule drawn drawnFolder body =>
    ((Rules.postRule driver drawn drawnFolder caller body).run t).2
  | .forkRule drawn id body => ((Rules.forkRule driver drawn caller id body).run t).2
  | .forkDashboard drawn id body => ((Dashboards.forkDashboard drawn caller id body).run t).2

structure LandsWhereAllowed (caller : Caller) (t t' : Tables) : Prop where
  rules : ∀ r ∈ t'.alertRules, r ∉ t.alertRules → ∀ f, r.folderUid = some f →
    caller.allows t (.action "alert.rules:create" ["folders:uid:" ++ f]) = true
  dashboards : ∀ d ∈ t'.dashboards, d ∉ t.dashboards →
    ∀ f, d.folder = some f ∨ d.folderUid = some f →
    caller.allows t (.action "dashboards:create" ["folders:uid:" ++ f]) = true

def forkFolder (caller : Caller) (body : Json.Record) : String :=
  let requested := trimmed (Json.field body "folderUid")
  if requested = "" then personalFolder caller else requested

structure CopiesRule (driver : Driver) (drawn : DrawnRule) (caller : Caller) (t : Tables)
    (id : String) (body : Json.Record) (source copy : AlertRule) : Prop where
  allowed : caller.allows t (.action "alert.rules:read" (ruleScope id)) = true
  found : t.findRuleById id = some source
  owned : source.workspaceId = some caller.orgId
  fits : AlertRuleRepository.newRow driver drawn (forkedRule caller.orgId
    (caller.userId.getD "anonymous") (forkFolder caller body)
    (if trimmed (Json.field body "newTitle") = "" then source.name ++ " (forked)"
      else trimmed (Json.field body "newTitle")) (rowToRule source)) = .ok copy
  fresh : copy.id ∉ t.alertRules.map (·.id)

def CreateRequest.DestinationAllowed (driver : Driver) (caller : Caller) (t : Tables) :
    CreateRequest → Prop
  | .postRule _ _ _ => True
  | .forkRule drawn id body =>
    (∃ source copy, CopiesRule driver drawn caller t id body source copy) →
    caller.allows t (.action "alert.rules:create" ["folders:uid:" ++ forkFolder caller body]) = true
  | .forkDashboard drawn id _ =>
    (∃ source, ReadsSource caller t id source) ∧ drawn.id ∉ t.dashboards.map (·.id) →
    caller.allows t (.action "dashboards:create" ["folders:uid:" ++ personalFolder caller]) = true

/-! ## Folders of a request -/

section Requests

variable {driver : Driver} {caller : Caller} {t : Tables}

theorem landsWhereAllowed_same {t' : Tables} (hrules : t'.alertRules = t.alertRules)
    (hdashboards : t'.dashboards = t.dashboards) : LandsWhereAllowed caller t t' where
  rules _ hr hnew := absurd (hrules ▸ hr) hnew
  dashboards _ hd hnew := absurd (hdashboards ▸ hd) hnew

theorem landsWhereAllowed_rule {t' : Tables} {row : AlertRule}
    (hrules : t'.alertRules = t.alertRules ++ [row]) (hdashboards : t'.dashboards = t.dashboards)
    (hfresh : row.id ∉ t.alertRules.map (·.id)) {f : String} (hfolder : row.folderUid = some f) :
    LandsWhereAllowed caller t t' ↔
      caller.allows t (.action "alert.rules:create" ["folders:uid:" ++ f]) = true := by
  have hnew : row ∉ t.alertRules := fun hmem => hfresh (List.mem_map_of_mem hmem)
  constructor
  · intro h
    refine h.rules row ?_ hnew f hfolder
    rw [hrules]
    simp
  · intro hallowed
    constructor
    · intro r hr hold f' hf'
      rw [hrules, List.mem_append, List.mem_singleton] at hr
      rcases hr with hr | rfl
      · exact absurd hr hold
      · rw [hfolder] at hf'
        cases hf'
        exact hallowed
    · intro d hd hold
      rw [hdashboards] at hd
      exact absurd hd hold

theorem landsWhereAllowed_dashboard {t' : Tables} {row : Dashboard} (hadds : Adds t t' row)
    {f : String} (hfolder : row.folder = some f) (huid : row.folderUid = none) :
    LandsWhereAllowed caller t t' ↔
      caller.allows t (.action "dashboards:create" ["folders:uid:" ++ f]) = true := by
  have hnew : row ∉ t.dashboards := fun hmem => hadds.fresh (List.mem_map_of_mem hmem)
  constructor
  · intro h
    refine h.dashboards row ?_ hnew f (Or.inl hfolder)
    rw [hadds.tables]
    simp
  · intro hallowed
    constructor
    · intro r hr hold
      rw [hadds.tables] at hr
      exact absurd hr hold
    · intro d hd hold f' hf'
      rw [hadds.tables, List.mem_append, List.mem_singleton] at hd
      rcases hd with hd | rfl
      · exact absurd hd hold
      · rw [hfolder, huid] at hf'
        rcases hf' with hf' | hf'
        · cases hf'
          exact hallowed
        · cases hf'

theorem run_resolveAlertRuleFolderUid {drawnFolder : Drawn} {orgId : String}
    {userId : Option String} {body : Json.Record} {folderUid : String} {t' : Tables}
    (hrun : (resolveAlertRuleFolderUid drawnFolder orgId userId
      ((Json.field body "folderUid").bind Json.asString)).run t = (.ok folderUid, t')) :
    folderUid = if trimmed (Json.field body "folderUid") = "" then defaultFolderUid
      else trimmed (Json.field body "folderUid") := by
  have htext : truthy (((Json.field body "folderUid").bind Json.asString).map Rbac.trim) =
      if trimmed (Json.field body "folderUid") = "" then none
      else some (trimmed (Json.field body "folderUid")) := by
    cases Json.field body "folderUid" with
    | none => rfl
    | some v =>
      cases v with
      | str s =>
        show Option.filter _ (some (Rbac.trim s)) = _
        by_cases h : Rbac.trim s = ""
        · simp [trimmed, h]
        · simp [trimmed, h]
      | _ => rfl
  rw [resolveAlertRuleFolderUid, htext] at hrun
  by_cases hempty : trimmed (Json.field body "folderUid") = ""
  · rw [if_pos hempty] at hrun
    rw [if_pos hempty]
    dsimp only at hrun
    rw [FolderRepository.findByUid, Prog.run_bind, Prog.run_read] at hrun
    cases hexisting : t.findFolderByUid orgId defaultFolderUid with
    | some existing =>
      rw [hexisting] at hrun
      cases hrun
      exact (findFolderByUid_eq_some hexisting).2.2
    | none =>
      rw [hexisting] at hrun
      dsimp only at hrun
      rw [Prog.run_bind] at hrun
      rcases run_create drawnFolder.id drawnFolder.now _ with ⟨e, herr⟩ | ⟨-, -, hok⟩
      · rw [herr] at hrun
        cases hrun
      · rw [hok] at hrun
        cases hrun
        rfl
  · rw [if_neg hempty] at hrun
    rw [if_neg hempty]
    cases hrun
    rfl

theorem lands_postRule {drawn : DrawnRule} {drawnFolder : Drawn} {body : Json.Record} :
    LandsWhereAllowed caller t ((postRule driver drawn drawnFolder caller body).run t).2 := by
  rw [postRule, requirePermission, Prog.run_bind, Prog.run_read]
  have hresolved := @run_resolveAlertRuleFolderUid t drawnFolder caller.orgId caller.userId body
  generalize hfolder : (if trimmed (Json.field body "folderUid") = "" then defaultFolderUid
    else trimmed (Json.field body "folderUid")) = folder at hresolved
  dsimp only
  by_cases hpass :
      caller.allows t (.action "alert.rules:create" ["folders:uid:" ++ folder]) = true
  · rw [if_pos hpass]
    split
    · exact landsWhereAllowed_same rfl rfl
    · rw [Prog.run_bind]
      have hrules := @keeps_resolveAlertRuleFolderUid t _ (·.alertRules) (fun _ _ => rfl)
        drawnFolder caller.orgId caller.userId ((Json.field body "folderUid").bind Json.asString)
      have hdashboards := @keeps_resolveAlertRuleFolderUid t _ (·.dashboards) (fun _ _ => rfl)
        drawnFolder caller.orgId caller.userId ((Json.field body "folderUid").bind Json.asString)
      cases hrun : (resolveAlertRuleFolderUid drawnFolder caller.orgId caller.userId
          ((Json.field body "folderUid").bind Json.asString)).run t with
      | mk r t' =>
        rw [hrun] at hrules hdashboards
        cases r with
        | error e => exact landsWhereAllowed_same hrules hdashboards
        | ok folderUid =>
          dsimp only at hrules hdashboards ⊢
          rw [Prog.run_bind]
          rcases AlertRuleRepository.run_create driver drawn
            (postedRule caller.orgId folderUid body) t' with ⟨e, herr⟩ | ⟨row, hrow, hid, hok⟩
          · rw [herr]
            exact landsWhereAllowed_same hrules hdashboards
          · rw [hok]
            obtain ⟨-, -, -, hrowfolder⟩ := AlertRuleRepository.newRow_ok hrow
            rw [hrules] at hid
            refine (@landsWhereAllowed_rule caller t
              { t' with alertRules := t'.alertRules ++ [row] } row ?_ hdashboards hid _
              hrowfolder).mpr ?_
            · exact congrArg (· ++ [row]) hrules
            · rw [hresolved hrun]
              exact hpass
  · rw [if_neg hpass]
    exact landsWhereAllowed_same rfl rfl

theorem run_forkRule {drawn : DrawnRule} {id : String} {body : Json.Record} :
    ((∀ source copy, ¬ CopiesRule driver drawn caller t id body source copy) ∧
      ((forkRule driver drawn caller id body).run t).2 = t) ∨
    ∃ source copy, CopiesRule driver drawn caller t id body source copy ∧
      ((forkRule driver drawn caller id body).run t).2 =
        { t with alertRules := t.alertRules ++ [copy] } := by
  rw [forkRule, requirePermission, Prog.run_bind, Prog.run_read]
  dsimp only
  by_cases hpass : caller.allows t (.action "alert.rules:read" (ruleScope id)) = true
  · rw [if_pos hpass, Prog.run_bind, loadOwnedRule, AlertRuleRepository.findById,
      Prog.run_bind, Prog.run_read]
    cases hfound : t.findRuleById id with
    | none =>
      refine Or.inl ⟨?_, rfl⟩
      intro source copy h
      rw [h.found] at hfound
      cases hfound
    | some source =>
      dsimp only [Option.map_some]
      by_cases hown : source.workspaceId = some caller.orgId
      · have hown' : ¬ (rowToRule source).workspaceId ≠ some caller.orgId := not_not.mpr hown
        rw [if_neg hown', Prog.run_pure]
        dsimp only
        rw [Prog.run_bind]
        rcases AlertRuleRepository.run_create driver drawn (forkedRule caller.orgId
          (caller.userId.getD "anonymous") (forkFolder caller body)
          (if trimmed (Json.field body "newTitle") = "" then source.name ++ " (forked)"
            else trimmed (Json.field body "newTitle")) (rowToRule source)) t with
          ⟨e, herr⟩ | ⟨copy, hcopy, hid, hok⟩
        · refine Or.inl ⟨?_, ?_⟩
          · intro source' copy h
            have hsource := h.found
            rw [hfound] at hsource
            cases hsource
            rw [AlertRuleRepository.create, Prog.run_attempt, h.fits] at herr
            dsimp only at herr
            rw [if_neg h.fresh] at herr
            cases herr
          · erw [herr]
        · refine Or.inr ⟨source, copy, ⟨hpass, hfound, hown, hcopy, hid⟩, ?_⟩
          erw [hok]
          rfl
      · have hown' : (rowToRule source).workspaceId ≠ some caller.orgId := hown
        rw [if_pos hown', Prog.run_pure]
        refine Or.inl ⟨?_, rfl⟩
        intro source' copy h
        have hsource := h.found
        rw [hfound] at hsource
        cases hsource
        exact hown h.owned
  · rw [if_neg hpass]
    exact Or.inl ⟨fun source copy h => hpass h.allowed, rfl⟩

theorem lands_forkRule {drawn : DrawnRule} {id : String} {body : Json.Record} :
    LandsWhereAllowed caller t ((forkRule driver drawn caller id body).run t).2 ↔
      (CreateRequest.forkRule drawn id body).DestinationAllowed driver caller t := by
  rcases run_forkRule with ⟨hcopies, hsame⟩ | ⟨source, copy, hcopy, hset⟩
  · rw [hsame]
    constructor
    · rintro - ⟨source, copy, hcopy⟩
      exact absurd hcopy (hcopies source copy)
    · exact fun _ => landsWhereAllowed_same rfl rfl
  · obtain ⟨-, -, -, hfolder⟩ := AlertRuleRepository.newRow_ok hcopy.fits
    have hiff := @landsWhereAllowed_rule caller t { t with alertRules := t.alertRules ++ [copy] }
      copy rfl rfl hcopy.fresh _ hfolder
    rw [hset, hiff]
    constructor
    · exact fun hallowed _ => hallowed
    · exact fun h => h ⟨source, copy, hcopy⟩

theorem lands_forkDashboard {drawn : DrawnDashboard} {id : String} {body : Json.Record} :
    LandsWhereAllowed caller t ((forkDashboard drawn caller id body).run t).2 ↔
      (CreateRequest.forkDashboard drawn id body).DestinationAllowed driver caller t := by
  rcases @run_forkDashboard t drawn caller id body with
    ⟨hnone, hsame⟩ | ⟨hforks, row, hadds, hfolder, huid⟩
  · rw [hsame]
    constructor
    · exact fun _ h => absurd h hnone
    · exact fun _ => landsWhereAllowed_same rfl rfl
  · rw [landsWhereAllowed_dashboard hadds hfolder huid]
    constructor
    · exact fun hallowed _ => hallowed
    · exact fun h => h hforks

end Requests

/-- **Creation lands where it is authorised.** A request puts its rule or dashboard into a folder
the caller may create it in, exactly if it is a `POST`, or a fork that copies nothing, or one
of a caller who happens to hold the grant on the destination. -/
theorem creation_lands_where_allowed_iff (driver : Driver) (caller : Caller) (t : Tables)
    (req : CreateRequest) :
    LandsWhereAllowed caller t (req.after driver caller t) ↔
      req.DestinationAllowed driver caller t := by
  cases req with
  | postRule drawn drawnFolder body =>
    constructor
    · exact fun _ => trivial
    · exact fun _ => lands_postRule
  | forkRule drawn id body => exact lands_forkRule
  | forkDashboard drawn id body => exact lands_forkDashboard

/-- An identity of `org_a` whose only grant is to read the alert rules. -/
def readerOfA : Caller where
  orgId := "org_a"
  userId := some "ann"
  allows t e := Rbac.AccessControl.evaluate (.gateway t.accessDb) t.accessDb
    ⟨"ann", "org_a", .viewer, false, some [⟨"alert.rules:read", "alert.rules:*"⟩]⟩ e

def forkToPayments : CreateRequest :=
  .forkRule ⟨"9", "2026-01-01"⟩ "alert_a" [("folderUid", .str "payments")]

/-- The reader puts a rule where it may create none. -/
theorem fork_lands_anywhere :
    ¬ ∀ (driver : Driver) (caller : Caller) (t : Tables) (req : CreateRequest),
      LandsWhereAllowed caller t (req.after driver caller t) := by
  intro hall
  have hlands := hall sqliteDriver readerOfA sharedStore forkToPayments
  have hrows : ("alert_9", some "payments") ∈ (forkToPayments.after sqliteDriver readerOfA
      sharedStore).alertRules.map fun r => (r.id, r.folderUid) := by
    decide +kernel
  obtain ⟨r, hr, hkey⟩ := List.mem_map.mp hrows
  obtain ⟨hid, hfolder⟩ := Prod.mk.inj hkey
  have hnew : r ∉ sharedStore.alertRules := by
    intro hold
    have hids : r.id ∈ sharedStore.alertRules.map (·.id) := List.mem_map_of_mem hold
    rw [hid] at hids
    exact absurd hids (by decide)
  have hallowed := hlands.rules r hr hnew "payments" hfolder
  exact absurd hallowed (by decide +kernel)

end OpenObs.Rules
