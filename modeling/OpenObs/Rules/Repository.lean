import OpenObs.Folders.Service

/-!
# The alert-rule repository

`repository/sqlite/alert-rule.ts`. What the REST layer hands on is JSON: a text column takes
whatever the driver makes of a value, which is a parameter here.
-/

namespace OpenObs.Rules

open OpenObs.Foundation OpenObs.Resources

/-! ## Binding -/

/-- What the driver stores for a value bound to a text column (`none` is `NULL`), and for
one bound to a number column. -/
structure Driver where
  text : Json → Except String (Option String)
  number : Json → Except String Json

namespace Driver

variable (driver : Driver)

/-- A column declared `NOT NULL`. -/
def notNull (column : String) (v : Json) : Except String String := do
  match ← driver.text v with
  | some s => return s
  | none => throw ("NOT NULL constraint failed: alert_rules." ++ column)

/-- `value ?? null`. -/
def nullable : Option Json → Except String (Option String)
  | none => return none
  | some .null => return none
  | some v => driver.text v

end Driver

/-! ## Rows -/

structure NewAlertRule where
  name : Json
  description : Json
  originalPrompt : Option Json := none
  condition : Json
  evaluationIntervalSec : Json
  severity : Json
  labels : Option Json := none
  createdBy : Json
  notificationPolicyId : Option Json := none
  investigationId : Option Json := none
  workspaceId : Option String := none
  folderUid : Option String := none
  lastEvaluatedAt : Option Json := none
  lastFiredAt : Option Json := none
  source : Option ResourceSource := none
  provenance : Option Json := none

structure DrawnRule where
  uuid : String
  now : String

/-- `stringifyJsonOrNull`: the columns keep JSON as it was. -/
def jsonOrNull : Option Json → Option Json
  | some .null => none
  | v => v

def rowToRule (row : AlertRule) : AlertRule := { row with folderUid := none }

namespace AlertRuleRepository

/-- The values of the `INSERT`. -/
def newRow (driver : Driver) (drawn : DrawnRule) (data : NewAlertRule) :
    Except String AlertRule := do
  let name ← driver.notNull "name" data.name
  let description ← driver.notNull "description" data.description
  let originalPrompt ← driver.nullable data.originalPrompt
  let evaluationIntervalSec ← driver.number data.evaluationIntervalSec
  let severity ← driver.notNull "severity" data.severity
  let notificationPolicyId ← driver.nullable data.notificationPolicyId
  let investigationId ← driver.nullable data.investigationId
  let createdBy ← driver.notNull "created_by" data.createdBy
  let lastEvaluatedAt ← driver.nullable data.lastEvaluatedAt
  let lastFiredAt ← driver.nullable data.lastFiredAt
  return {
    id := "alert_" ++ drawn.uuid
    name
    description
    originalPrompt
    condition := data.condition
    evaluationIntervalSec
    severity
    labels := jsonOrNull data.labels
    state := "normal"
    stateChangedAt := drawn.now
    pendingSince := none
    notificationPolicyId
    investigationId
    workspaceId := data.workspaceId
    folderUid := data.folderUid
    orgId := "org_main"
    createdBy
    lastEvaluatedAt
    lastFiredAt
    fireCount := .num 0
    source := data.source.getD .manual
    provenance := jsonOrNull data.provenance
    createdAt := drawn.now
    updatedAt := drawn.now }

/-- The `INSERT` and the read-back. -/
def create (driver : Driver) (drawn : DrawnRule) (data : NewAlertRule) : Prog Tables AlertRule :=
  Prog.attempt fun t =>
    match newRow driver drawn data with
    | .error e => (.error e, t)
    | .ok row =>
      if row.id ∈ t.alertRules.map (·.id) then
        (.error "UNIQUE constraint failed: alert_rules.id", t)
      else (.ok (rowToRule row), { t with alertRules := t.alertRules ++ [row] })

def findById (id : String) : Prog Tables (Option AlertRule) :=
  Prog.read fun t => (t.findRuleById id).map rowToRule

def getFolderUid (orgId ruleId : String) : Prog Tables (Option String) :=
  Prog.read (·.ruleFolderUid orgId ruleId)

/-- `patch.x ?? existing.x` of a text column. -/
def required (driver : Driver) (patch : Json.Record) (column key : String) (existing : String) :
    Except String String :=
  match Json.field patch key with
  | none => return existing
  | some .null => return existing
  | some v => driver.notNull column v

/-- `hasKey(x) ? patch.x ?? null : existing.x ?? null`. -/
def optional (driver : Driver) (patch : Json.Record) (key : String) (existing : Option String) :
    Except String (Option String) :=
  match Json.field patch key with
  | none => return existing
  | some v => driver.nullable (some v)

/-- `patch.x ?? existing.x` of a number column. -/
def number (driver : Driver) (patch : Json.Record) (key : String) (existing : Json) :
    Except String Json :=
  match Json.field patch key with
  | none => return existing
  | some .null => return existing
  | some v => driver.number v

/-- The columns of the `UPDATE`. -/
def merge (driver : Driver) (now : String) (patch : Json.Record) (existing : AlertRule) :
    Except String (AlertRule → AlertRule) := do
  let name ← required driver patch "name" "name" existing.name
  let description ← required driver patch "description" "description" existing.description
  let originalPrompt ← optional driver patch "originalPrompt" existing.originalPrompt
  let evaluationIntervalSec ←
    number driver patch "evaluationIntervalSec" existing.evaluationIntervalSec
  let severity ← required driver patch "severity" "severity" existing.severity
  let state ← required driver patch "state" "state" existing.state
  let stateChangedAt ←
    required driver patch "state_changed_at" "stateChangedAt" existing.stateChangedAt
  let pendingSince ← optional driver patch "pendingSince" existing.pendingSince
  let notificationPolicyId ←
    optional driver patch "notificationPolicyId" existing.notificationPolicyId
  let investigationId ← optional driver patch "investigationId" existing.investigationId
  let workspaceId ← optional driver patch "workspaceId" existing.workspaceId
  let lastEvaluatedAt ← optional driver patch "lastEvaluatedAt" existing.lastEvaluatedAt
  let lastFiredAt ← optional driver patch "lastFiredAt" existing.lastFiredAt
  let fireCount ← number driver patch "fireCount" existing.fireCount
  return fun row => { row with
    name
    description
    originalPrompt
    condition :=
      match Json.field patch "condition" with
      | none => existing.condition
      | some .null => existing.condition
      | some v => v
    evaluationIntervalSec
    severity
    labels :=
      match Json.field patch "labels" with
      | none => existing.labels
      | some v => jsonOrNull (some v)
    state
    stateChangedAt
    pendingSince
    notificationPolicyId
    investigationId
    workspaceId
    lastEvaluatedAt
    lastFiredAt
    fireCount
    updatedAt := now }

/-- The `UPDATE` and the read-back. -/
def store (driver : Driver) (now id : String) (patch : Json.Record) (existing : AlertRule) :
    Prog Tables (Option AlertRule) :=
  Prog.attempt fun t =>
    match merge driver now patch existing with
    | .error e => (.error e, t)
    | .ok edit =>
      let alertRules := t.alertRules.map fun r => if r.id = id then edit r else r
      (.ok ((alertRules.find? (·.id = id)).map rowToRule), { t with alertRules })

def update (driver : Driver) (now id : String) (patch : Json.Record) :
    Prog Tables (Option AlertRule) := do
  match ← findById id with
  | none => return none
  | some existing => store driver now id patch existing

def delete (id : String) : Prog Tables Bool := do
  match ← findById id with
  | none => return false
  | some _ => do
      Prog.write (Folders.FolderService.deleteRules (·.id == id))
      return true

/-! ## What a row keeps -/

theorem bind_eq_ok {α β : Type} {x : Except String α} {f : α → Except String β} {b : β}
    (h : (x >>= f) = .ok b) : ∃ a, x = .ok a ∧ f a = .ok b := by
  cases x with
  | error e => cases h
  | ok a => exact ⟨a, rfl, h⟩

theorem newRow_ok {driver : Driver} {drawn : DrawnRule} {data : NewAlertRule} {row : AlertRule}
    (h : newRow driver drawn data = .ok row) :
    row.id = "alert_" ++ drawn.uuid ∧ row.orgId = "org_main" ∧
      row.workspaceId = data.workspaceId ∧ row.folderUid = data.folderUid := by
  obtain ⟨name, -, h⟩ := bind_eq_ok h
  obtain ⟨description, -, h⟩ := bind_eq_ok h
  obtain ⟨originalPrompt, -, h⟩ := bind_eq_ok h
  obtain ⟨evaluationIntervalSec, -, h⟩ := bind_eq_ok h
  obtain ⟨severity, -, h⟩ := bind_eq_ok h
  obtain ⟨notificationPolicyId, -, h⟩ := bind_eq_ok h
  obtain ⟨investigationId, -, h⟩ := bind_eq_ok h
  obtain ⟨createdBy, -, h⟩ := bind_eq_ok h
  obtain ⟨lastEvaluatedAt, -, h⟩ := bind_eq_ok h
  obtain ⟨lastFiredAt, -, h⟩ := bind_eq_ok h
  cases h
  exact ⟨rfl, rfl, rfl, rfl⟩

theorem run_create (driver : Driver) (drawn : DrawnRule) (data : NewAlertRule) (t : Tables) :
    (∃ e, (create driver drawn data).run t = (.error e, t)) ∨
    ∃ row, newRow driver drawn data = .ok row ∧ row.id ∉ t.alertRules.map (·.id) ∧
      (create driver drawn data).run t =
        (.ok (rowToRule row), { t with alertRules := t.alertRules ++ [row] }) := by
  rw [create, Prog.run_attempt]
  cases hrow : newRow driver drawn data with
  | error e => exact Or.inl ⟨e, rfl⟩
  | ok row =>
    dsimp only
    split
    · exact Or.inl ⟨_, rfl⟩
    · rename_i hid
      exact Or.inr ⟨row, rfl, hid, rfl⟩

theorem merge_ok {driver : Driver} {now : String} {patch : Json.Record} {existing : AlertRule}
    {edit : AlertRule → AlertRule} (h : merge driver now patch existing = .ok edit) :
    ∃ workspaceId, optional driver patch "workspaceId" existing.workspaceId = .ok workspaceId ∧
      ∀ row, (edit row).id = row.id ∧ (edit row).orgId = row.orgId ∧
        (edit row).folderUid = row.folderUid ∧ (edit row).workspaceId = workspaceId := by
  obtain ⟨name, -, h⟩ := bind_eq_ok h
  obtain ⟨description, -, h⟩ := bind_eq_ok h
  obtain ⟨originalPrompt, -, h⟩ := bind_eq_ok h
  obtain ⟨evaluationIntervalSec, -, h⟩ := bind_eq_ok h
  obtain ⟨severity, -, h⟩ := bind_eq_ok h
  obtain ⟨state, -, h⟩ := bind_eq_ok h
  obtain ⟨stateChangedAt, -, h⟩ := bind_eq_ok h
  obtain ⟨pendingSince, -, h⟩ := bind_eq_ok h
  obtain ⟨notificationPolicyId, -, h⟩ := bind_eq_ok h
  obtain ⟨investigationId, -, h⟩ := bind_eq_ok h
  obtain ⟨workspaceId, hworkspace, h⟩ := bind_eq_ok h
  obtain ⟨lastEvaluatedAt, -, h⟩ := bind_eq_ok h
  obtain ⟨lastFiredAt, -, h⟩ := bind_eq_ok h
  obtain ⟨fireCount, -, h⟩ := bind_eq_ok h
  cases h
  exact ⟨workspaceId, hworkspace, fun row => ⟨rfl, rfl, rfl, rfl⟩⟩

end AlertRuleRepository

/-- The rows after an `UPDATE` of one. -/
def editRules (id : String) (edit : AlertRule → AlertRule) (t : Tables) : Tables :=
  { t with alertRules := t.alertRules.map fun r => if r.id = id then edit r else r }

section Edited

variable {t : Tables} {id : String} {edit : AlertRule → AlertRule}

theorem find?_editRules (hedit : ∀ r, (edit r).id = r.id) (id' : String) :
    (editRules id edit t).findRuleById id' =
      (t.findRuleById id').map fun r => if r.id = id then edit r else r := by
  have hsame : ((fun r : AlertRule => decide (r.id = id')) ∘
      fun r => if r.id = id then edit r else r) = fun r => decide (r.id = id') := by
    ext r
    show decide ((if r.id = id then edit r else r).id = id') = decide (r.id = id')
    split
    · rw [hedit r]
    · rfl
  rw [editRules, Tables.findRuleById, List.find?_map, hsame]
  rfl

theorem findRuleById_editRules (hedit : ∀ r, (edit r).id = r.id) :
    (editRules id edit t).findRuleById id = (t.findRuleById id).map edit := by
  rw [find?_editRules hedit]
  cases hrow : t.findRuleById id with
  | none => rfl
  | some row =>
    have hid : row.id = id := by simpa using List.find?_some hrow
    rw [Option.map_some, Option.map_some, if_pos hid]

theorem findRuleById_editRules_other (hedit : ∀ r, (edit r).id = r.id) {id' : String}
    (hne : id' ≠ id) : (editRules id edit t).findRuleById id' = t.findRuleById id' := by
  rw [find?_editRules hedit]
  cases hrow : t.findRuleById id' with
  | none => rfl
  | some row =>
    have hid : row.id = id' := by simpa using List.find?_some hrow
    rw [Option.map_some, if_neg fun h => hne (hid.symm.trans h)]

end Edited

theorem run_updateRule {t : Tables} {driver : Driver} {now id : String} {patch : Json.Record}
    {row : AlertRule} (hrow : t.findRuleById id = some row) :
    (∃ e, AlertRuleRepository.merge driver now patch (rowToRule row) = .error e ∧
      (AlertRuleRepository.update driver now id patch).run t = (.error e, t)) ∨
    ∃ edit, AlertRuleRepository.merge driver now patch (rowToRule row) = .ok edit ∧
      (AlertRuleRepository.update driver now id patch).run t =
        (.ok (some (rowToRule (edit row))), editRules id edit t) := by
  rw [AlertRuleRepository.update, AlertRuleRepository.findById, Prog.run_bind, Prog.run_read, hrow]
  dsimp only [Option.map_some]
  rw [AlertRuleRepository.store, Prog.run_attempt]
  cases hmerge : AlertRuleRepository.merge driver now patch (rowToRule row) with
  | error e => exact Or.inl ⟨e, rfl, rfl⟩
  | ok edit =>
    refine Or.inr ⟨edit, rfl, ?_⟩
    obtain ⟨_, -, hedit⟩ := AlertRuleRepository.merge_ok hmerge
    have hfind := @findRuleById_editRules t id edit fun r => (hedit r).1
    rw [hrow, Option.map_some] at hfind
    show (Except.ok (((editRules id edit t).findRuleById id).map rowToRule), _) = _
    rw [hfind]
    rfl

end OpenObs.Rules
