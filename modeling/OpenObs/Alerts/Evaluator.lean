import Mathlib.Algebra.Order.Ring.Rat
import OpenObs.Agent.Values
import OpenObs.Foundation.Exclusion
import OpenObs.Foundation.Parts

/-!
# The alert evaluator

`transition` of `repository/sqlite/alert-rule.ts` and `tickRule` of
`services/alert-evaluator-service.ts`.
-/

namespace OpenObs.Alerts

open OpenObs.Foundation OpenObs.Resources OpenObs.Rules

/-! ## Conditions -/

/-- A time, in milliseconds, that a `Date` can hold. -/
structure Date where
  ms : Int
  inRange : ms.natAbs ≤ 8640000000000000

structure Platform where
  driver : Driver
  toNumber : Option Json → Option ℚ
  valueColumn : ℚ → Except String Int
  thresholdColumn : Option Json → Except String Int
  toISOString : Date → String
  parseDate : String → Option Date

inductive AlertOperator : Type where
  | gt | ge | lt | le | eq | ne
deriving DecidableEq

def AlertOperator.ofJson : Option Json → Option AlertOperator
  | some (.str ">") => some .gt
  | some (.str ">=") => some .ge
  | some (.str "<") => some .lt
  | some (.str "<=") => some .le
  | some (.str "==") => some .eq
  | some (.str "!=") => some .ne
  | _ => none

namespace Platform

variable (p : Platform)

/-- `n === v`. -/
def strictEq (n : ℚ) (v : Option Json) : Bool :=
  match v with
  | some (.num m) => p.toNumber (some (.num m)) = some n
  | _ => false

/-- A comparison of numbers; with `NaN` it is false. -/
def compare (r : ℚ → ℚ → Bool) (n : ℚ) (v : Option Json) : Bool :=
  match p.toNumber v with
  | some m => r n m
  | none => false

def evaluatePredicate (operator : AlertOperator) (value : ℚ) (threshold : Option Json) : Bool :=
  match operator with
  | .gt => p.compare (fun a b => a > b) value threshold
  | .ge => p.compare (fun a b => a ≥ b) value threshold
  | .lt => p.compare (fun a b => a < b) value threshold
  | .le => p.compare (fun a b => a ≤ b) value threshold
  | .eq => p.strictEq value threshold
  | .ne => !p.strictEq value threshold

/-- `elapsedMs >= condition.forDurationSec * 1000`. -/
def lasted (now : Date) (pendingSince : String) (forDurationSec : Option Json) : Bool :=
  match p.parseDate pendingSince, p.toNumber forDurationSec with
  | some since, some d => d * 1000 ≤ ((now.ms - since.ms : Int) : ℚ)
  | _, _ => false

def decideTransition (rule : AlertRule) (predicateTrue : Bool) (now : Date) : Option String :=
  if rule.state = "disabled" then none
  else if predicateTrue then
    if rule.state = "firing" then none
    else if rule.state = "pending" then
      match Folders.truthy rule.pendingSince with
      | none => none
      | some since =>
        if p.lasted now since (Agent.member rule.condition "forDurationSec") then some "firing"
        else none
    else if p.strictEq 0 (Agent.member rule.condition "forDurationSec") then some "firing"
    else some "pending"
  else if rule.state = "firing" then some "resolved"
  else if rule.state = "pending" then some "normal"
  else none

end Platform

/-! ## Transitions -/

/-- What a transition draws: the id of the history row, and the clock of the repository, read
again by `update`. -/
structure DrawnTransition where
  uuid : String
  now : String
  updated : String

/-- `v + 1`. -/
def plusOne : Json → Json
  | .num n => .num (n + 1)
  | .null => .num 1
  | .bool b => .num (if b then 2 else 1)
  | v => .str (Agent.stringOf v ++ "1")

/-- A key that is present and `undefined` clears its column, as `null` does. -/
def transitionPatch (now newState : String) (rule : AlertRule) : Json.Record :=
  [("state", .str newState), ("stateChangedAt", .str now), ("lastEvaluatedAt", .str now)] ++
    (if newState = "pending" then [("pendingSince", .str now)]
      else if newState = "firing" then
        [("lastFiredAt", .str now), ("fireCount", plusOne rule.fireCount), ("pendingSince", .null)]
      else if newState = "normal" ∨ newState = "resolved" then [("pendingSince", .null)]
      else [])

namespace AlertRuleRepository

/-- The values of the `INSERT` into `alert_history`. -/
def historyEntry (p : Platform) (drawn : DrawnTransition) (id newState : String)
    (value : Option ℚ) (rule : AlertRule) : Except String AlertHistoryEntry := do
  let value ← p.valueColumn (value.getD 0)
  if Agent.isNull rule.condition then throw (Agent.nullAccess "threshold")
  let threshold ← p.thresholdColumn (Agent.member rule.condition "threshold")
  return {
    id := drawn.uuid
    ruleId := id
    ruleName := rule.name
    fromState := rule.state
    toState := newState
    value
    threshold
    timestamp := drawn.now
    labels := rule.labels.getD (.obj []) }

/-- The `INSERT`; the row names a rule, and its id is the primary key. -/
def insertHistory (entry : Except String AlertHistoryEntry) : Prog Tables Unit :=
  Prog.attempt fun t =>
    match entry with
    | .error e => (.error e, t)
    | .ok entry =>
      if entry.ruleId ∉ t.alertRules.map (·.id) then (.error "FOREIGN KEY constraint failed", t)
      else if entry.id ∈ t.alertHistory.map (·.id) then
        (.error "UNIQUE constraint failed: alert_history.id", t)
      else (.ok (), { t with alertHistory := t.alertHistory ++ [entry] })

/-- The source inserts the row and makes the first read of `update` without an `await` between
them; here others may run there, too. -/
def transition (p : Platform) (drawn : DrawnTransition) (id newState : String)
    (value : Option ℚ) : Prog Tables (Option AlertRule) := do
  match ← Rules.AlertRuleRepository.findById id with
  | none => return none
  | some rule =>
    if rule.state = newState then return some rule
    else do
      insertHistory (historyEntry p drawn id newState value rule)
      Rules.AlertRuleRepository.update p.driver drawn.updated id
        (transitionPatch drawn.now newState rule)

end AlertRuleRepository

/-! ## Ticks -/

structure AlertFiredPayload where
  ruleId : String
  ruleName : String
  severity : String
  value : ℚ
  threshold : Option Json
  operator : Option Json
  labels : Json
  firedAt : String

/-- The tables, the rules a tick of this evaluator is under way for, and the `alert.fired`
events it has emitted, oldest first. -/
structure Evaluation where
  db : Tables
  inFlightRules : List String := []
  fired : List AlertFiredPayload := []

def Evaluation.tables : Part Evaluation Tables where
  get s := s.db
  set db s := { s with db }
  get_set _ _ := rfl
  set_get _ := rfl
  set_set _ _ _ := rfl

def Evaluation.emit (payload : AlertFiredPayload) (s : Evaluation) : Evaluation :=
  { s with fired := s.fired ++ [payload] }

/-- `inFlightRules.has(id)`. -/
def Evaluation.inFlight (id : String) (s : Evaluation) : Bool := id ∈ s.inFlightRules

def Evaluation.enter (id : String) (s : Evaluation) : Evaluation :=
  { s with inFlightRules := s.inFlightRules ++ [id] }

def Evaluation.leave (id : String) (s : Evaluation) : Evaluation :=
  { s with inFlightRules := s.inFlightRules.filter (· ≠ id) }

/-- A call of `tickRule`: the rule, what its query will answer, what it draws (its own clock and
the clock of the repository), and what publishing on the bus comes to. -/
structure Tick where
  id : String
  query : AlertRule → Except String (Option ℚ)
  uuid : String
  now : Date
  stamp : Date
  updated : Date
  publish : Except String Unit := .ok ()

def Tick.drawn (p : Platform) (tick : Tick) : DrawnTransition :=
  ⟨tick.uuid, p.toISOString tick.stamp, p.toISOString tick.updated⟩

namespace AlertEvaluatorService

variable (p : Platform) (tick : Tick)

def next (fresh : AlertRule) (value : ℚ) : Except String (Option String) :=
  if Agent.isNull fresh.condition then .error (Agent.nullAccess "operator")
  else
    match AlertOperator.ofJson (Agent.member fresh.condition "operator") with
    | none => .error ("unknown alert operator: " ++
        ((Agent.member fresh.condition "operator").map Agent.stringOf).getD "undefined")
    | some operator =>
      let predicate := p.evaluatePredicate operator value
        (Agent.member fresh.condition "threshold")
      match p.decideTransition fresh predicate tick.now with
      | none => .ok none
      | some next => .ok (if next = fresh.state then none else some next)

def firedPayload (value : ℚ) (updated : AlertRule) : AlertFiredPayload where
  ruleId := updated.id
  ruleName := updated.name
  severity := updated.severity
  value
  threshold := Agent.member updated.condition "threshold"
  operator := Agent.member updated.condition "operator"
  labels := updated.labels.getD (.obj [])
  firedAt := p.toISOString tick.now

def settle (value : ℚ) (next : Option String) : Prog Evaluation Unit :=
  match next with
  | none => return
  | some next => do
      let updated ← (AlertRuleRepository.transition p (tick.drawn p) tick.id next
        (some value)).zoom Evaluation.tables
      match updated with
      | none => return
      | some updated =>
        if next = "firing" then do
          Prog.write (Evaluation.emit (firedPayload p tick value updated))
          Prog.attempt fun s => (tick.publish, s)
        else return

/-- The `try` block. -/
def evaluate : Prog Evaluation Unit := do
  match ← (Rules.AlertRuleRepository.findById tick.id).zoom Evaluation.tables with
  | none => return
  | some fresh =>
    if fresh.state = "disabled" then return
    else do
      match ← Prog.attempt fun s => (tick.query fresh, s) with
      | none => return
      | some value =>
        match next p tick fresh value with
        | .error e => throw e
        | .ok next => settle p tick value next

def tickRule : Prog Evaluation Unit :=
  Prog.exclusive (Evaluation.inFlight tick.id) (Evaluation.enter tick.id)
    (Evaluation.leave tick.id) () (evaluate p tick)

end AlertEvaluatorService

end OpenObs.Alerts
