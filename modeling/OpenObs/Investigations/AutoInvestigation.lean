import OpenObs.Foundation.Pool
import Mathlib.Data.List.Sort

/-!
# Automatic investigations

`services/auto-investigation-consumer.ts` over the investigations table and the link of an alert
rule.
-/

namespace OpenObs.Investigations

open OpenObs.Foundation

/-! ## Rows -/

inductive InvestigationStatus : Type where
  | planning
  | investigating
  | evidencing
  | explaining
  | acting
  | verifying
  | completed
  | failed
deriving DecidableEq

/-- `RUNNING_STATUSES`. -/
def InvestigationStatus.running : InvestigationStatus → Bool
  | .completed | .failed => false
  | _ => true

def InvestigationStatus.terminal (status : InvestigationStatus) : Bool :=
  status = .completed ∨ status = .failed

structure Investigation where
  id : String
  workspaceId : Option String
  status : InvestigationStatus := .planning
  archived : Bool := false
  createdAt : ℤ
  updatedAt : ℤ
  startedBy : Option String := none
deriving DecidableEq

structure AlertRule where
  id : String
  investigationId : Option String := none

structure InvestigationTable where
  rows : List Investigation := []
  ids_unique : (rows.map (·.id)).Nodup := by simp

namespace InvestigationTable

def find (t : InvestigationTable) (id : String) : Option Investigation := t.rows.find? (·.id = id)

/-- `INSERT`; a row whose id is taken is not inserted. -/
def insert (t : InvestigationTable) (row : Investigation) : InvestigationTable :=
  if h : row.id ∈ t.rows.map (·.id) then t
  else {
    rows := t.rows ++ [row]
    ids_unique := by
      rw [List.map_append, List.nodup_append]
      refine ⟨t.ids_unique, List.nodup_singleton _, ?_⟩
      rintro id hid id' hid' rfl
      rw [List.mem_singleton.mp hid'] at hid
      exact h hid }

def touch (id : String) (status : InvestigationStatus) (now : ℤ) (row : Investigation) :
    Investigation :=
  if row.id = id then { row with status := status, updatedAt := now } else row

/-- `UPDATE … SET status, updated_at WHERE id = …`. -/
def setStatus (t : InvestigationTable) (id : String) (status : InvestigationStatus) (now : ℤ) :
    InvestigationTable where
  rows := t.rows.map (touch id status now)
  ids_unique := by
    have hsame : (t.rows.map (touch id status now)).map (·.id) = t.rows.map (·.id) := by
      rw [List.map_map]
      apply List.map_congr_left
      intro row _
      simp only [Function.comp_apply, touch]
      split <;> rfl
    rw [hsame]
    exact t.ids_unique

end InvestigationTable

/-- A run of the agent: for which rule, when it began, and when the investigation of the last
run for the rule had been updated. -/
structure RunStart where
  ruleId : String
  startedAt : ℤ
  previous : Option ℤ

structure Desk where
  clock : ℤ := 0
  rules : List AlertRule := []
  investigations : InvestigationTable := {}
  running : List String := []
  starts : List RunStart := []

namespace Desk

def findRule (s : Desk) (id : String) : Option AlertRule := s.rules.find? (·.id = id)

def link (s : Desk) (ruleId : String) : Option String :=
  (s.findRule ruleId).bind (·.investigationId)

def last (s : Desk) (ruleId : String) : Option Investigation :=
  (s.investigations.rows.filter (·.startedBy = some ruleId)).getLast?

end Desk

/-! ## Repositories -/

def findRuleById (id : String) : Prog Desk (Option AlertRule) := Prog.read (·.findRule id)

/-- `alertRules.update(id, { investigationId })`. -/
def linkRule (id investigationId : String) : Prog Desk Unit := do
  let existing ← findRuleById id
  match existing with
  | none => pure ()
  | some _ => Prog.write fun s => { s with
      rules := s.rules.map fun r =>
        if r.id = id then { r with investigationId := some investigationId } else r }

def findInvestigationById (id : String) : Prog Desk (Option Investigation) :=
  Prog.read (·.investigations.find id)

/-- `ORDER BY created_at DESC`, and the sort by `localeCompare`; both keep the order of rows that
were created at the same time. -/
def newestFirst (rows : List Investigation) : List Investigation :=
  rows.insertionSort fun a b => b.createdAt ≤ a.createdAt

def ofWorkspace (workspaceId : String) (s : Desk) : List Investigation :=
  s.investigations.rows.filter fun r => r.archived = false ∧ r.workspaceId = some workspaceId

def findByWorkspace (workspaceId : String) : Prog Desk (List Investigation) :=
  Prog.read fun s => newestFirst (ofWorkspace workspaceId s)

def createInvestigation (row : ℤ → Investigation) : Prog Desk Unit :=
  Prog.write fun s => { s with investigations := s.investigations.insert (row s.clock) }

def updateStatus (id : String) (status : InvestigationStatus) : Prog Desk Unit := do
  let existing ← findInvestigationById id
  match existing with
  | none => pure ()
  | some _ => Prog.write fun s => { s with
      investigations := s.investigations.setStatus id status s.clock }

/-! ## Deliveries -/

/-- What an agent does between two `await`s: it creates an investigation, with a random id, it
sets the status of the one it has created, or nothing of the kind. -/
inductive AgentAct : Type where
  | create (uuid : String)
  | setStatus (status : InvestigationStatus)
  | think

def AgentAct.created : AgentAct → Option String
  | .create uuid => some ("inv_" ++ uuid)
  | _ => none

/-- An event `alert.fired`, the answer of `resolveSaIdentity`, what the agent does, and whether
it throws in the end. -/
structure Delivery where
  ruleId : String
  identity : Except String (Option String)
  agent : List AgentAct := []
  agentFails : Bool := false
  creates_once : (agent.filterMap AgentAct.created).length ≤ 1 := by decide

def Delivery.own (d : Delivery) : List String := d.agent.filterMap AgentAct.created

structure AutoInvestigationConsumer where
  cooldownMs : ℤ := 5 * 60 * 1000

namespace AutoInvestigationConsumer

variable (o : AutoInvestigationConsumer) (d : Delivery)

def shouldRun (ruleId : String) : Prog Desk Bool := do
  let rule ← findRuleById ruleId
  match (rule.bind (·.investigationId)).filter (· ≠ "") with
  | none => pure true
  | some investigationId => do
      let inv ← findInvestigationById investigationId
      match inv with
      | none => pure true
      | some inv =>
        if inv.status.running then pure false
        else do
          let now ← Prog.read (·.clock)
          pure (decide (o.cooldownMs < now - inv.updatedAt))

def resolveSaIdentity : Prog Desk (Option String) :=
  tryCatch (Prog.attempt fun s => (d.identity, s)) fun _ => pure none

def startRun : Prog Desk ℤ :=
  Prog.atomic fun s => (s.clock, { s with
    running := d.ruleId :: s.running
    starts := s.starts ++ [⟨d.ruleId, s.clock, (s.last d.ruleId).map (·.updatedAt)⟩] })

def endRun : Prog Desk Unit :=
  Prog.write fun s => { s with running := s.running.erase d.ruleId }

/-- What the agent does, `active` being the investigation it has created. -/
def runAgent (orgId : String) : List AgentAct → Option String → Prog Desk Unit
  | [], _ => pure ()
  | .create uuid :: rest, _ => do
      createInvestigation fun now =>
        { id := "inv_" ++ uuid, workspaceId := some orgId, createdAt := now, updatedAt := now
          startedBy := some d.ruleId }
      runAgent orgId rest (some ("inv_" ++ uuid))
  | .setStatus _ :: rest, none => runAgent orgId rest none
  | .setStatus status :: rest, some id => do
      updateStatus id status
      runAgent orgId rest (some id)
  | .think :: rest, active => do
      Prog.read fun _ => ()
      runAgent orgId rest active

/-- What is taken for the row of a run that began at `startedAt`. -/
def newestSince (startedAt : ℤ) (list : List Investigation) : Option Investigation :=
  (newestFirst (list.filter fun r => startedAt ≤ r.createdAt)).head?

def finishStatus (inv : Investigation) : Prog Desk Unit :=
  if inv.status.terminal then pure ()
  else updateStatus inv.id (if d.agentFails then .failed else .completed)

/-- What is left of `finalizeInvestigation` once it has found its row. -/
def writeBack (inv : Investigation) : Prog Desk Unit := do
  finishStatus d inv
  linkRule d.ruleId inv.id

def finalizeInvestigation (orgId : String) (startedAt : ℤ) : Prog Desk Unit := do
  let list ← findByWorkspace orgId
  match newestSince startedAt list with
  | none => pure ()
  | some inv => writeBack d inv

def onAlertFired : Prog Desk Unit := do
  let allowed ← o.shouldRun d.ruleId
  if allowed then do
    let identity ← resolveSaIdentity d
    match identity with
    | none => pure ()
    | some orgId => do
        let startedAt ← startRun d
        runAgent d orgId d.agent none
        endRun d
        finalizeInvestigation d orgId startedAt
  else pure ()

end AutoInvestigationConsumer

/-! ## Everything that goes on -/

inductive DeskOp : Type where
  | alertFired (d : Delivery)
  | userCreates (uuid workspaceId : String)
  | tick (ms : ℕ)

def DeskOp.draws : DeskOp → List String
  | .alertFired d => d.own
  | .userCreates uuid _ => ["inv_" ++ uuid]
  | .tick _ => []

def DeskOp.code (o : AutoInvestigationConsumer) : DeskOp → Prog Desk Unit
  | .alertFired d => o.onAlertFired d
  | .userCreates uuid workspaceId => createInvestigation fun now =>
    { id := "inv_" ++ uuid, workspaceId := some workspaceId, createdAt := now, updatedAt := now }
  | .tick ms => Prog.write fun s => { s with clock := s.clock + ms }

/-! ## Rows and links -/

namespace InvestigationTable

variable {t : InvestigationTable} {id : String} {status : InvestigationStatus} {now : ℤ}
  {row : Investigation} {p : Investigation → Bool}

theorem find_eq_some_iff : t.find id = some row ↔ row ∈ t.rows ∧ row.id = id := by
  constructor
  · exact fun h => ⟨List.mem_of_find?_eq_some h, by simpa using List.find?_some h⟩
  · rintro ⟨hmem, hid⟩
    cases h : t.find id with
    | none => exact absurd hid (by simpa using List.find?_eq_none.mp h row hmem)
    | some r =>
      have hr := List.mem_of_find?_eq_some h
      have hrid : r.id = id := by simpa using List.find?_some h
      rw [List.inj_on_of_nodup_map t.ids_unique hr hmem (hrid.trans hid.symm)]

theorem rows_insert (row : Investigation) : (t.insert row).rows =
    if row.id ∈ t.rows.map (·.id) then t.rows else t.rows ++ [row] := by
  unfold insert
  split <;> rfl

@[simp] theorem touch_id : (touch id status now row).id = row.id := by
  unfold touch
  split <;> rfl

@[simp] theorem touch_startedBy : (touch id status now row).startedBy = row.startedBy := by
  unfold touch
  split <;> rfl

@[simp] theorem touch_workspaceId :
    (touch id status now row).workspaceId = row.workspaceId := by
  unfold touch
  split <;> rfl

@[simp] theorem touch_archived : (touch id status now row).archived = row.archived := by
  unfold touch
  split <;> rfl

@[simp] theorem touch_createdAt : (touch id status now row).createdAt = row.createdAt := by
  unfold touch
  split <;> rfl

theorem touch_of_ne (h : row.id ≠ id) : touch id status now row = row := if_neg h

theorem filter_setStatus (hp : ∀ r ∈ t.rows, p (touch id status now r) = p r)
    (hnot : ∀ r ∈ t.rows, p r = true → r.id ≠ id) :
    (t.setStatus id status now).rows.filter p = t.rows.filter p := by
  show (t.rows.map (touch id status now)).filter p = _
  have hsame : t.rows.filter (p ∘ touch id status now) = t.rows.filter p :=
    List.filter_congr fun r hr => hp r hr
  rw [List.filter_map, hsame]
  refine (List.map_congr_left fun r hr => ?_).trans (List.map_id _)
  obtain ⟨hmem, hr⟩ := List.mem_filter.mp hr
  exact touch_of_ne (hnot r hmem hr)

theorem filter_insert (hp : p row = false) : (t.insert row).rows.filter p = t.rows.filter p := by
  rw [rows_insert]
  split
  · rfl
  · rw [List.filter_append, List.filter_singleton, hp]
    simp

end InvestigationTable

end OpenObs.Investigations
