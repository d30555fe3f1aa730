import OpenObs.Rules.Repository

/-!
# The columns of an update

An `UPDATE` of a rule writes sixteen columns. What it writes into a column depends
on the patch and on the value the writer has read there: a key the patch does not
have writes that value back.
-/

namespace OpenObs.Rules

open OpenObs.Foundation OpenObs.Resources

/-- A column the `UPDATE` takes from the patch. -/
inductive Column : Type where
  | name | description | originalPrompt | condition | evaluationIntervalSec | severity | labels
  | state | stateChangedAt | pendingSince | notificationPolicyId | investigationId | workspaceId
  | lastEvaluatedAt | lastFiredAt | fireCount
deriving DecidableEq

inductive Cell : Type where
  | text (s : String)
  | textOrNull (s : Option String)
  | json (v : Json)
  | jsonOrNull (v : Option Json)

namespace Column

def key : Column → String
  | .name => "name"
  | .description => "description"
  | .originalPrompt => "originalPrompt"
  | .condition => "condition"
  | .evaluationIntervalSec => "evaluationIntervalSec"
  | .severity => "severity"
  | .labels => "labels"
  | .state => "state"
  | .stateChangedAt => "stateChangedAt"
  | .pendingSince => "pendingSince"
  | .notificationPolicyId => "notificationPolicyId"
  | .investigationId => "investigationId"
  | .workspaceId => "workspaceId"
  | .lastEvaluatedAt => "lastEvaluatedAt"
  | .lastFiredAt => "lastFiredAt"
  | .fireCount => "fireCount"

def cell (row : AlertRule) : Column → Cell
  | .name => .text row.name
  | .description => .text row.description
  | .originalPrompt => .textOrNull row.originalPrompt
  | .condition => .json row.condition
  | .evaluationIntervalSec => .json row.evaluationIntervalSec
  | .severity => .text row.severity
  | .labels => .jsonOrNull row.labels
  | .state => .text row.state
  | .stateChangedAt => .text row.stateChangedAt
  | .pendingSince => .textOrNull row.pendingSince
  | .notificationPolicyId => .textOrNull row.notificationPolicyId
  | .investigationId => .textOrNull row.investigationId
  | .workspaceId => .textOrNull row.workspaceId
  | .lastEvaluatedAt => .textOrNull row.lastEvaluatedAt
  | .lastFiredAt => .textOrNull row.lastFiredAt
  | .fireCount => .json row.fireCount

open AlertRuleRepository

def written (driver : Driver) (patch : Json.Record) (existing : AlertRule) :
    Column → Except String Cell
  | .name => .text <$> required driver patch "name" "name" existing.name
  | .description => .text <$> required driver patch "description" "description" existing.description
  | .originalPrompt => .textOrNull <$> optional driver patch "originalPrompt" existing.originalPrompt
  | .condition => .ok (.json (match Json.field patch "condition" with
      | none => existing.condition
      | some .null => existing.condition
      | some v => v))
  | .evaluationIntervalSec => .json <$>
      number driver patch "evaluationIntervalSec" existing.evaluationIntervalSec
  | .severity => .text <$> required driver patch "severity" "severity" existing.severity
  | .labels => .ok (.jsonOrNull (match Json.field patch "labels" with
      | none => existing.labels
      | some v => Rules.jsonOrNull (some v)))
  | .state => .text <$> required driver patch "state" "state" existing.state
  | .stateChangedAt => .text <$>
      required driver patch "state_changed_at" "stateChangedAt" existing.stateChangedAt
  | .pendingSince => .textOrNull <$> optional driver patch "pendingSince" existing.pendingSince
  | .notificationPolicyId => .textOrNull <$>
      optional driver patch "notificationPolicyId" existing.notificationPolicyId
  | .investigationId => .textOrNull <$>
      optional driver patch "investigationId" existing.investigationId
  | .workspaceId => .textOrNull <$> optional driver patch "workspaceId" existing.workspaceId
  | .lastEvaluatedAt => .textOrNull <$>
      optional driver patch "lastEvaluatedAt" existing.lastEvaluatedAt
  | .lastFiredAt => .textOrNull <$> optional driver patch "lastFiredAt" existing.lastFiredAt
  | .fireCount => .json <$> number driver patch "fireCount" existing.fireCount

variable {driver : Driver} {patch patch' : Json.Record} {existing existing' : AlertRule}
  {col : Column}

theorem written_of_field_none (h : Json.field patch col.key = none) :
    written driver patch existing col = .ok (cell existing col) := by
  cases col with
  | condition =>
    simp only [key] at h
    simp only [written, cell, h]
  | labels =>
    simp only [key] at h
    simp only [written, cell, h]
  | _ =>
    simp only [key] at h
    simp only [written, cell, required, AlertRuleRepository.optional, number, h]
    rfl

theorem written_congr (hfield : Json.field patch col.key = Json.field patch' col.key)
    (hcell : cell existing col = cell existing' col) :
    written driver patch existing col = written driver patch' existing' col := by
  cases col with
  | _ =>
    simp only [key] at hfield
    simp only [cell, Cell.text.injEq, Cell.textOrNull.injEq, Cell.json.injEq,
      Cell.jsonOrNull.injEq] at hcell
    simp only [written, required, AlertRuleRepository.optional, number, hfield, hcell]

end Column

namespace AlertRuleRepository

variable {driver : Driver} {now : String} {patch : Json.Record} {existing : AlertRule}

theorem map_eq_ok {α β : Type} {f : α → β} {x : Except String α} {b : β}
    (h : f <$> x = .ok b) : ∃ a, x = .ok a ∧ f a = b := by
  cases x with
  | error e => cases h
  | ok a =>
    cases h
    exact ⟨a, rfl, rfl⟩

theorem written_of_merge {edit : AlertRule → AlertRule}
    (h : merge driver now patch existing = .ok edit) (row : AlertRule) (col : Column) :
    Column.written driver patch existing col = .ok (Column.cell (edit row) col) := by
  obtain ⟨name, hname, h⟩ := bind_eq_ok h
  obtain ⟨description, hdescription, h⟩ := bind_eq_ok h
  obtain ⟨originalPrompt, horiginalPrompt, h⟩ := bind_eq_ok h
  obtain ⟨evaluationIntervalSec, hevaluationIntervalSec, h⟩ := bind_eq_ok h
  obtain ⟨severity, hseverity, h⟩ := bind_eq_ok h
  obtain ⟨state, hstate, h⟩ := bind_eq_ok h
  obtain ⟨stateChangedAt, hstateChangedAt, h⟩ := bind_eq_ok h
  obtain ⟨pendingSince, hpendingSince, h⟩ := bind_eq_ok h
  obtain ⟨notificationPolicyId, hnotificationPolicyId, h⟩ := bind_eq_ok h
  obtain ⟨investigationId, hinvestigationId, h⟩ := bind_eq_ok h
  obtain ⟨workspaceId, hworkspaceId, h⟩ := bind_eq_ok h
  obtain ⟨lastEvaluatedAt, hlastEvaluatedAt, h⟩ := bind_eq_ok h
  obtain ⟨lastFiredAt, hlastFiredAt, h⟩ := bind_eq_ok h
  obtain ⟨fireCount, hfireCount, h⟩ := bind_eq_ok h
  cases h
  cases col with
  | condition => rfl
  | labels => rfl
  | name => exact congrArg (Cell.text <$> ·) hname
  | description => exact congrArg (Cell.text <$> ·) hdescription
  | originalPrompt => exact congrArg (Cell.textOrNull <$> ·) horiginalPrompt
  | evaluationIntervalSec => exact congrArg (Cell.json <$> ·) hevaluationIntervalSec
  | severity => exact congrArg (Cell.text <$> ·) hseverity
  | state => exact congrArg (Cell.text <$> ·) hstate
  | stateChangedAt => exact congrArg (Cell.text <$> ·) hstateChangedAt
  | pendingSince => exact congrArg (Cell.textOrNull <$> ·) hpendingSince
  | notificationPolicyId => exact congrArg (Cell.textOrNull <$> ·) hnotificationPolicyId
  | investigationId => exact congrArg (Cell.textOrNull <$> ·) hinvestigationId
  | workspaceId => exact congrArg (Cell.textOrNull <$> ·) hworkspaceId
  | lastEvaluatedAt => exact congrArg (Cell.textOrNull <$> ·) hlastEvaluatedAt
  | lastFiredAt => exact congrArg (Cell.textOrNull <$> ·) hlastFiredAt
  | fireCount => exact congrArg (Cell.json <$> ·) hfireCount

theorem merge_of_written
    (h : ∀ col, ∃ c, Column.written driver patch existing col = .ok c) :
    ∃ edit, merge driver now patch existing = .ok edit := by
  obtain ⟨_, hname, -⟩ := map_eq_ok (h .name).choose_spec
  obtain ⟨_, hdescription, -⟩ := map_eq_ok (h .description).choose_spec
  obtain ⟨_, horiginalPrompt, -⟩ := map_eq_ok (h .originalPrompt).choose_spec
  obtain ⟨_, hevaluationIntervalSec, -⟩ := map_eq_ok (h .evaluationIntervalSec).choose_spec
  obtain ⟨_, hseverity, -⟩ := map_eq_ok (h .severity).choose_spec
  obtain ⟨_, hstate, -⟩ := map_eq_ok (h .state).choose_spec
  obtain ⟨_, hstateChangedAt, -⟩ := map_eq_ok (h .stateChangedAt).choose_spec
  obtain ⟨_, hpendingSince, -⟩ := map_eq_ok (h .pendingSince).choose_spec
  obtain ⟨_, hnotificationPolicyId, -⟩ := map_eq_ok (h .notificationPolicyId).choose_spec
  obtain ⟨_, hinvestigationId, -⟩ := map_eq_ok (h .investigationId).choose_spec
  obtain ⟨_, hworkspaceId, -⟩ := map_eq_ok (h .workspaceId).choose_spec
  obtain ⟨_, hlastEvaluatedAt, -⟩ := map_eq_ok (h .lastEvaluatedAt).choose_spec
  obtain ⟨_, hlastFiredAt, -⟩ := map_eq_ok (h .lastFiredAt).choose_spec
  obtain ⟨_, hfireCount, -⟩ := map_eq_ok (h .fireCount).choose_spec
  rw [merge, hname, hdescription, horiginalPrompt, hevaluationIntervalSec, hseverity, hstate,
    hstateChangedAt, hpendingSince, hnotificationPolicyId, hinvestigationId, hworkspaceId,
    hlastEvaluatedAt, hlastFiredAt, hfireCount]
  exact ⟨_, rfl⟩

end AlertRuleRepository

end OpenObs.Rules
