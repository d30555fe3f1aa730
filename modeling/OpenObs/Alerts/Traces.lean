import OpenObs.Alerts.Transitions
import OpenObs.Foundation.HoldDown
import OpenObs.Rules.Tenancy

/-!
# The law of a trace

What the ticks of a rule are for is a hold-down: a condition that is met has to stay met for
`forDurationSec` before the rule fires.
-/

namespace OpenObs.Alerts

open OpenObs.Foundation OpenObs.Resources OpenObs.Rules
open HoldDown (Phase)

/-- What the evaluator may rely on: texts and numbers reach their columns, and a date is read
back from its text, which is not empty. -/
structure Platform.Reliable (p : Platform) : Prop where
  stores : Stores p.driver
  value : ∀ v, ∃ n, p.valueColumn v = .ok n
  threshold : ∀ m, ∃ n, p.thresholdColumn (some (.num m)) = .ok n
  parses : ∀ d, p.parseDate (p.toISOString d) = some d
  text : ∀ d, p.toISOString d ≠ ""

structure Condition (p : Platform) where
  json : Json
  operator : AlertOperator
  threshold : Int
  duration : Int
  forDurationSec : ℚ
  operator_eq : AlertOperator.ofJson (Agent.member json "operator") = some operator
  threshold_eq : Agent.member json "threshold" = some (.num threshold)
  duration_eq : Agent.member json "forDurationSec" = some (.num duration)
  forDurationSec_eq : p.toNumber (some (.num duration)) = some forDurationSec
  nonneg : 0 ≤ forDurationSec

structure Reading where
  sample : Option ℚ
  uuid : String
  now : Date
  stamp : Date
  updated : Date
  publish : Except String Unit := .ok ()

def Reading.tick (id : String) (r : Reading) : Tick where
  id
  query := fun _ => .ok r.sample
  uuid := r.uuid
  now := r.now
  stamp := r.stamp
  updated := r.updated
  publish := r.publish

section Trace

variable (p : Platform) (id : String) (c : Condition p) (readings : ℕ → Reading)
  (s₀ : Evaluation)

/-- `none` for a tick without a sample, else whether the condition is met. -/
def verdict (k : ℕ) : Option Bool :=
  (readings k).sample.map fun v =>
    p.evaluatePredicate c.operator v (Agent.member c.json "threshold")

/-- The state before tick `k`. -/
def states : ℕ → Evaluation
  | 0 => s₀
  | k + 1 => ((AlertEvaluatorService.tickRule p ((readings k).tick id)).run (states k)).2

def stateOf (s : Evaluation) : Option String := (s.db.findRuleById id).map (·.state)

def fireCountOf (s : Evaluation) : Option Json := (s.db.findRuleById id).map (·.fireCount)

/-- The `alert.fired` events of the rule. -/
def firedEvents (s : Evaluation) : ℕ := s.fired.countP (·.ruleId = id)

def firedRows (t : Tables) : ℕ :=
  t.alertHistory.countP fun h => h.ruleId = id ∧ h.toState = "firing"

/-- The rule is there in state `normal`, no tick of it is under way, and its counters agree. -/
structure Starts (s : Evaluation) : Prop where
  row : ∃ row, s.db.findRuleById id = some row ∧ row.condition = c.json ∧ row.state = "normal" ∧
    row.fireCount = .num (firedRows id s.db)
  events : firedEvents id s = firedRows id s.db
  free : s.inFlight id = false

structure FreshIds (t : Tables) : Prop where
  injective : ∀ j k, (readings j).uuid = (readings k).uuid → j = k
  new : ∀ k, (readings k).uuid ∉ t.alertHistory.map (·.id)

/-- Tick `k` emits an event for the rule, and the rule becomes firing. -/
def Fires (k : ℕ) : Prop :=
  (∃ payload, payload.ruleId = id ∧
    (states p id readings s₀ (k + 1)).fired = (states p id readings s₀ k).fired ++ [payload]) ∧
  stateOf id (states p id readings s₀ k) ≠ some "firing" ∧
  stateOf id (states p id readings s₀ (k + 1)) = some "firing"

structure TraceLaw : Prop where
  fires : ∀ k, Fires p id readings s₀ k ↔
    verdict p c readings k = some true ∧
      stateOf id (states p id readings s₀ k) ≠ some "firing" ∧
      (c.forDurationSec = 0 ∨ ∃ j, j < k ∧ verdict p c readings j ≠ none ∧
        HoldDown.Streak (verdict p c readings) j k ∧
        stateOf id (states p id readings s₀ j) ≠ some "firing" ∧
        HoldDown.AfterFalse (verdict p c readings) j ∧
        1000 * c.forDurationSec ≤ (((readings k).now.ms - (readings j).stamp.ms : Int) : ℚ))
  otherwise : ∀ k, ¬ Fires p id readings s₀ k →
    (states p id readings s₀ (k + 1)).fired = (states p id readings s₀ k).fired ∧
      (stateOf id (states p id readings s₀ (k + 1)) = some "firing" →
        stateOf id (states p id readings s₀ k) = some "firing")
  null : ∀ k, (readings k).sample = none →
    states p id readings s₀ (k + 1) = states p id readings s₀ k
  counts : ∀ k, ∃ n : ℕ, fireCountOf id (states p id readings s₀ k) = some (.num n) ∧
    firedEvents id (states p id readings s₀ k) = n ∧
    firedRows id (states p id readings s₀ k).db = n

end Trace

/-! ## One decision -/

section Decision

variable {p : Platform} {id : String} {c : Condition p} {readings : ℕ → Reading}

def Condition.immediate (c : Condition p) : Bool := c.forDurationSec = 0

/-- Tick `k` comes long enough after tick `j` has found the condition met. -/
def due (c : Condition p) (readings : ℕ → Reading) (j k : ℕ) : Bool :=
  c.forDurationSec * 1000 ≤ (((readings k).now.ms - (readings j).stamp.ms : Int) : ℚ)

def InPhase (p : Platform) (readings : ℕ → Reading) (row : AlertRule) : Phase → Prop
  | .quiet => row.state = "normal" ∨ row.state = "resolved"
  | .pending j => row.state = "pending" ∧
      row.pendingSince = some (p.toISOString (readings j).stamp)
  | .active => row.state = "firing"

def asked (c : Condition p) (readings : ℕ → Reading) (k : ℕ) : Phase → Bool → Option String
  | .quiet, true => some (if c.immediate then "firing" else "pending")
  | .quiet, false => none
  | .pending j, true => if due c readings j k then some "firing" else none
  | .pending _, false => some "normal"
  | .active, true => none
  | .active, false => some "resolved"

theorem Condition.isNull_json (c : Condition p) : Agent.isNull c.json = false := by
  cases hjson : c.json with
  | null =>
    have hop := c.operator_eq
    rw [hjson] at hop
    cases hop
  | _ => rfl

theorem strictEq_duration :
    p.strictEq 0 (Agent.member c.json "forDurationSec") = c.immediate := by
  rw [c.duration_eq, Platform.strictEq, c.forDurationSec_eq, Condition.immediate]
  simp

theorem lasted_eq (hp : p.Reliable) {j k : ℕ} :
    p.lasted (readings k).now (p.toISOString (readings j).stamp)
      (Agent.member c.json "forDurationSec") = due c readings j k := by
  rw [c.duration_eq, Platform.lasted, c.forDurationSec_eq, hp.parses, due]

theorem decideTransition_eq (hp : p.Reliable) {row : AlertRule} (hcond : row.condition = c.json)
    {ph : Phase} (hph : InPhase p readings row ph) (b : Bool) (k : ℕ) :
    p.decideTransition row b (readings k).now = asked c readings k ph b := by
  unfold Platform.decideTransition
  cases ph with
  | quiet =>
    rw [hcond, strictEq_duration]
    rcases hph with hst | hst <;> cases b <;> simp [hst, asked] <;> split <;> rfl
  | pending j =>
    obtain ⟨hst, hsince⟩ := hph
    have htruthy : Folders.truthy row.pendingSince =
        some (p.toISOString (readings j).stamp) := by
      rw [hsince]
      exact Folders.truthy_eq_some.mpr ⟨rfl, hp.text _⟩
    rw [hcond, htruthy]
    dsimp only
    rw [lasted_eq hp]
    cases b <;> simp [hst, asked]
  | active =>
    have hst : row.state = "firing" := hph
    cases b <;> simp [hst, asked]

theorem asked_ne {row : AlertRule} {ph : Phase} (hph : InPhase p readings row ph) {b : Bool}
    {k : ℕ} {newState : String} (h : asked c readings k ph b = some newState) :
    newState ≠ row.state := by
  rintro rfl
  cases ph <;> cases b <;> grind [asked, InPhase]

theorem InPhase.enabled {row : AlertRule} {ph : Phase} (hph : InPhase p readings row ph) :
    row.state ≠ "disabled" := by
  cases ph <;> grind [InPhase]

theorem decision_eq (hp : p.Reliable) {row : AlertRule} (hcond : row.condition = c.json)
    {ph : Phase} (hph : InPhase p readings row ph) (k : ℕ) :
    decision p ((readings k).tick id) (rowToRule row) =
      (readings k).sample.bind fun v =>
        (asked c readings k ph
          (p.evaluatePredicate c.operator v (Agent.member c.json "threshold"))).map (v, ·) := by
  have hcond' : (rowToRule row).condition = c.json := hcond
  have hph' : InPhase p readings (rowToRule row) ph := hph
  rw [decision, if_neg hph'.enabled]
  have hquery : ((readings k).tick id).query (rowToRule row) = .ok (readings k).sample := rfl
  rw [hquery]
  cases (readings k).sample with
  | none => rfl
  | some v =>
    have hdecide : p.decideTransition (rowToRule row)
        (p.evaluatePredicate c.operator v (Agent.member c.json "threshold"))
        ((readings k).tick id).now = _ := decideTransition_eq hp hcond' hph' _ k
    have hnext : AlertEvaluatorService.next p ((readings k).tick id) (rowToRule row) v =
        .ok (asked c readings k ph
          (p.evaluatePredicate c.operator v (Agent.member c.json "threshold"))) := by
      rw [AlertEvaluatorService.next, hcond', c.isNull_json, if_neg Bool.false_ne_true, c.operator_eq]
      dsimp only
      rw [hdecide]
      cases hasked : asked c readings k ph
          (p.evaluatePredicate c.operator v (Agent.member c.json "threshold")) with
      | none => rfl
      | some newState =>
        dsimp only
        rw [if_neg (asked_ne hph' hasked)]
    dsimp only
    rw [hnext, Option.bind_some]
    cases asked c readings k ph
      (p.evaluatePredicate c.operator v (Agent.member c.json "threshold")) <;> rfl

theorem InPhase.stays {row : AlertRule} {ph : Phase} (hph : InPhase p readings row ph) {b : Bool}
    {k : ℕ} (h : asked c readings k ph b = none) :
    InPhase p readings row (HoldDown.step c.immediate (due c readings) k (some b) ph) := by
  cases ph <;> cases b <;> grind [asked, InPhase, HoldDown.step]

theorem InPhase.moves {row row' : AlertRule} {ph : Phase} {b : Bool} {k : ℕ} {newState : String}
    (h : asked c readings k ph b = some newState) (hst : row'.state = newState)
    (hpend : row'.pendingSince =
      pendingAfter (p.toISOString (readings k).stamp) newState row.pendingSince) :
    InPhase p readings row' (HoldDown.step c.immediate (due c readings) k (some b) ph) := by
  cases ph <;> cases b <;>
    grind [asked, InPhase, HoldDown.step, pendingAfter, clearsPending]

theorem asked_firing {ph : Phase} {b : Bool} {k : ℕ} :
    asked c readings k ph b = some "firing" ↔
      ph ≠ .active ∧ HoldDown.step c.immediate (due c readings) k (some b) ph = .active := by
  cases ph <;> cases b <;> grind [asked, HoldDown.step]

end Decision

/-! ## The run -/

section Run

open AlertEvaluatorService

variable {p : Platform} {id : String} {c : Condition p} {readings : ℕ → Reading}
  {s₀ s : Evaluation} {k : ℕ}

/-- The phase of the machine before tick `k`. -/
def phaseAt (c : Condition p) (readings : ℕ → Reading) (k : ℕ) : Phase :=
  HoldDown.phase c.immediate (due c readings) (verdict p c readings) k

/-- The state before tick `k` is that of the machine. -/
structure Tracks (c : Condition p) (id : String) (readings : ℕ → Reading) (k : ℕ)
    (s : Evaluation) : Prop where
  row : ∃ row, s.db.findRuleById id = some row ∧ row.condition = c.json ∧
    InPhase p readings row (phaseAt c readings k) ∧ row.fireCount = .num (firedRows id s.db)
  events : firedEvents id s = firedRows id s.db
  free : s.inFlight id = false
  new : ∀ j, k ≤ j → (readings j).uuid ∉ s.db.alertHistory.map (·.id)

theorem Tracks.start (h : Starts p id c s₀) (hids : FreshIds readings s₀.db) :
    Tracks c id readings 0 s₀ := by
  obtain ⟨row, hrow, hcond, hst, hcount⟩ := h.row
  exact ⟨⟨row, hrow, hcond, Or.inl hst, hcount⟩, h.events, h.free, fun j _ => hids.new j⟩

/-- What tick `k` does: nothing, or what it asks for. -/
inductive Does (c : Condition p) (id : String) (readings : ℕ → Reading) (k : ℕ)
    (s s' : Evaluation) : Prop
  | nothing : s' = s → (∀ b, verdict p c readings k = some b →
      asked c readings k (phaseAt c readings k) b = none) → Does c id readings k s s'
  | moves (b : Bool) (value : ℚ) (newState : String) (row : AlertRule) (entry : AlertHistoryEntry)
      (edit : AlertRule → AlertRule) : verdict p c readings k = some b →
      asked c readings k (phaseAt c readings k) b = some newState →
      s.db.findRuleById id = some row →
      Ticked p ((readings k).tick id) value newState row s s' entry edit → Does c id readings k s s'

theorem inserted (hp : p.Reliable) (h : Tracks c id readings k s) {row : AlertRule}
    (hrow : s.db.findRuleById id = some row) (hcond : row.condition = c.json) (newState : String)
    (value : ℚ) :
    ∃ entry, AlertRuleRepository.historyEntry p (((readings k).tick id).drawn p) id newState
        (some value) (rowToRule row) = .ok entry ∧
      (AlertRuleRepository.insertHistory (.ok entry)).run s.db =
        (.ok (), { s.db with alertHistory := s.db.alertHistory ++ [entry] }) := by
  have hcond' : (rowToRule row).condition = c.json := hcond
  obtain ⟨n, hn⟩ := hp.value value
  obtain ⟨m, hm⟩ := hp.threshold c.threshold
  have hentry : ∃ entry, AlertRuleRepository.historyEntry p (((readings k).tick id).drawn p) id
      newState (some value) (rowToRule row) = .ok entry := by
    rw [AlertRuleRepository.historyEntry, Option.getD_some, hn, hcond', c.isNull_json, c.threshold_eq, hm]
    exact ⟨_, rfl⟩
  obtain ⟨entry, hentry⟩ := hentry
  obtain ⟨hid, hrule, -, -⟩ := historyEntry_fields hentry
  refine ⟨entry, hentry, ?_⟩
  have hmem : entry.ruleId ∈ s.db.alertRules.map (·.id) := by
    rw [hrule]
    exact List.mem_map.mpr ⟨row, List.mem_of_find?_eq_some hrow, by simpa using List.find?_some hrow⟩
  have hnew : entry.id ∉ s.db.alertHistory.map (·.id) := by
    rw [hid]
    exact h.new k (Nat.le_refl k)
  rw [AlertRuleRepository.insertHistory, Prog.run_attempt]
  dsimp only
  rw [if_neg (not_not.mpr hmem), if_neg hnew]

theorem does_tick (hp : p.Reliable) (h : Tracks c id readings k s) :
    Does c id readings k s ((tickRule p ((readings k).tick id)).run s).2 := by
  obtain ⟨row, hrow, hcond, hph, hcount⟩ := h.row
  have hdec := @decision_eq p id c readings hp row hcond _ hph k
  have hrow' : s.db.findRuleById ((readings k).tick id).id = some row := hrow
  cases hsample : (readings k).sample with
  | none =>
    rw [hsample] at hdec
    refine Does.nothing (run_tickRule_idle hrow' hdec) fun b hb => ?_
    rw [verdict, hsample] at hb
    cases hb
  | some value =>
    have hverdict : verdict p c readings k = some
        (p.evaluatePredicate c.operator value (Agent.member c.json "threshold")) := by
      rw [verdict, hsample]
      rfl
    rw [hsample, Option.bind_some] at hdec
    cases hasked : asked c readings k (phaseAt c readings k)
        (p.evaluatePredicate c.operator value (Agent.member c.json "threshold")) with
    | none =>
      rw [hasked] at hdec
      refine Does.nothing (run_tickRule_idle hrow' hdec) fun b hb => ?_
      rw [hverdict] at hb
      cases hb
      exact hasked
    | some newState =>
      rw [hasked] at hdec
      obtain ⟨entry, hentry, hinsert⟩ := inserted hp h hrow hcond newState value
      have hne : row.state ≠ newState := (asked_ne hph hasked).symm
      obtain ⟨t', edit, htr, hrun⟩ := run_transition_of_inserted hp.stores hrow hcount hne hentry
        hinsert
      exact Does.moves _ value newState row entry edit hverdict hasked hrow
        (run_tickRule_moved h.free hrow' hdec htr hrun)

theorem counts_ticked {tick : Tick} {value : ℚ} {newState : String} {row : AlertRule}
    {s' : Evaluation} {entry : AlertHistoryEntry} {edit : AlertRule → AlertRule}
    (hrow : s.db.findRuleById tick.id = some row)
    (h : Ticked p tick value newState row s s' entry edit) :
    firedRows tick.id s'.db = firedRows tick.id s.db + (if newState = "firing" then 1 else 0) ∧
      firedEvents tick.id s' = firedEvents tick.id s + (if newState = "firing" then 1 else 0) := by
  obtain ⟨-, hrule, -, hto⟩ := historyEntry_fields h.transitions.entry_ok
  have hid : row.id = tick.id := by simpa using List.find?_some hrow
  constructor
  · rw [firedRows, firedRows, h.transitions.history, List.countP_append, List.countP_singleton,
      hrule, hto]
    simp
  · rw [firedEvents, firedEvents, h.fired, List.countP_append, firedBy]
    split
    · have hpayload : (firedPayload p tick value (rowToRule (edit row))).ruleId = tick.id :=
        (h.transitions.id_edit row).trans hid
      rw [List.countP_singleton, hpayload]
      simp
    · simp

theorem Tracks.next (hp : p.Reliable) (hids : FreshIds readings s₀.db)
    (h : Tracks c id readings k s) :
    Tracks c id readings (k + 1) ((tickRule p ((readings k).tick id)).run s).2 := by
  obtain ⟨row₀, hrow₀, hcond₀, hph₀, hcount₀⟩ := h.row
  cases does_tick hp h with
  | nothing hsame hasked =>
    rw [hsame]
    refine ⟨⟨row₀, hrow₀, hcond₀, ?_, hcount₀⟩, h.events, h.free, fun j hj => h.new j (by omega)⟩
    rw [phaseAt, HoldDown.phase]
    cases hv : verdict p c readings k with
    | none => exact hph₀
    | some b => exact hph₀.stays (hasked b hv)
  | moves b value newState row entry edit hv hasked hrow hticked =>
    rw [hrow] at hrow₀
    cases hrow₀
    obtain ⟨hrows, hevents⟩ := @counts_ticked p s ((readings k).tick id) _ _ _ _ _ _ hrow hticked
    have hmoved := hticked.transitions.moved row₀
    refine ⟨⟨edit row₀, hticked.transitions.found hrow, hmoved.condition.trans hcond₀, ?_, ?_⟩,
      ?_, ?_, ?_⟩
    · rw [phaseAt, HoldDown.phase, hv]
      exact InPhase.moves hasked hmoved.state hmoved.pendingSince
    · have hcount' : (rowToRule row₀).fireCount = .num (firedRows id s.db) := hcount₀
      rw [hmoved.fireCount, hcount']
      refine Eq.trans ?_ (congrArg (fun n : ℕ => Json.num n) hrows.symm)
      split
      · rw [plusOne]
        exact congrArg Json.num (by push_cast; rfl)
      · rfl
    · refine hevents.trans (Eq.trans ?_ hrows.symm)
      rw [show firedEvents ((readings k).tick id).id s = firedRows ((readings k).tick id).id s.db
        from h.events]
    · rw [Evaluation.inFlight, hticked.inFlight]
      exact h.free
    · intro j hj hmem
      rw [hticked.transitions.history, List.map_append, List.mem_append] at hmem
      rcases hmem with hold | hnew
      · exact h.new j (by omega) hold
      · rw [List.map_singleton, List.mem_singleton,
          (historyEntry_fields hticked.transitions.entry_ok).1] at hnew
        have hjk := hids.injective j k hnew
        omega

theorem tracks_states (hp : p.Reliable) (hs : Starts p id c s₀) (hids : FreshIds readings s₀.db) :
    ∀ k, Tracks c id readings k (states p id readings s₀ k) := by
  intro k
  induction k with
  | zero => exact Tracks.start hs hids
  | succ k ih => exact ih.next hp hids

theorem Tracks.firing_iff (h : Tracks c id readings k s) :
    stateOf id s = some "firing" ↔ phaseAt c readings k = .active := by
  obtain ⟨row, hrow, -, hph, -⟩ := h.row
  rw [stateOf, hrow, Option.map_some, Option.some_inj]
  cases hphase : phaseAt c readings k with
  | active =>
    rw [hphase] at hph
    exact ⟨fun _ => rfl, fun _ => hph⟩
  | quiet =>
    rw [hphase] at hph
    refine ⟨fun hst => ?_, fun h => by cases h⟩
    rcases hph with h | h <;> rw [hst] at h <;> exact absurd h (by decide)
  | pending j =>
    rw [hphase] at hph
    refine ⟨fun hst => ?_, fun h => by cases h⟩
    have h := hph.1
    rw [hst] at h
    exact absurd h (by decide)

theorem emits_iff (hp : p.Reliable) (h : Tracks c id readings k s) :
    (∃ payload, payload.ruleId = id ∧
      ((tickRule p ((readings k).tick id)).run s).2.fired = s.fired ++ [payload]) ∧
      HoldDown.Raised c.immediate (due c readings) (verdict p c readings) k ∨
    ((tickRule p ((readings k).tick id)).run s).2.fired = s.fired ∧
      ¬ HoldDown.Raised c.immediate (due c readings) (verdict p c readings) k := by
  cases does_tick hp h with
  | nothing hsame hasked =>
    refine Or.inr ⟨by rw [hsame], fun hraised => ?_⟩
    obtain ⟨hoff, hon⟩ := hraised
    rw [HoldDown.phase] at hon
    cases hv : verdict p c readings k with
    | none =>
      rw [hv] at hon
      exact hoff hon
    | some b =>
      rw [hv] at hon
      have hfiring := asked_firing.mpr ⟨hoff, hon⟩
      have hnone := hasked b hv
      rw [phaseAt, hfiring] at hnone
      cases hnone
  | moves b value newState row entry edit hv hasked hrow hticked =>
    have hid : row.id = id := by simpa using List.find?_some hrow
    by_cases hfiring : newState = "firing"
    · subst hfiring
      refine Or.inl ⟨⟨_, ?_, hticked.fired⟩, ?_⟩
      · exact (hticked.transitions.id_edit row).trans hid
      · obtain ⟨hoff, hon⟩ := asked_firing.mp hasked
        refine ⟨hoff, ?_⟩
        rw [HoldDown.phase, hv]
        exact hon
    · refine Or.inr ⟨?_, fun hraised => hfiring ?_⟩
      · rw [hticked.fired, firedBy, if_neg hfiring, List.append_nil]
      · obtain ⟨hoff, hon⟩ := hraised
        rw [HoldDown.phase, hv] at hon
        have hask := asked_firing.mpr ⟨hoff, hon⟩
        exact Option.some.inj (hasked.symm.trans hask)

end Run

/-- **The trace law.** A rule in state `normal`, ticked one tick after the other by readings of
any clock, fires at a tick exactly when the condition has been met for long enough, and its
counters agree throughout. -/
theorem alert_trace_law (p : Platform) (hp : p.Reliable) (id : String) (c : Condition p)
    (readings : ℕ → Reading) (s₀ : Evaluation) (hs : Starts p id c s₀)
    (hids : FreshIds readings s₀.db) : TraceLaw p id c readings s₀ := by
  have htracks := tracks_states hp hs hids
  have hfiring : ∀ k, stateOf id (states p id readings s₀ k) = some "firing" ↔
      HoldDown.phase c.immediate (due c readings) (verdict p c readings) k = .active :=
    fun k => (htracks k).firing_iff
  have hfires : ∀ k, Fires p id readings s₀ k ↔
      HoldDown.Raised c.immediate (due c readings) (verdict p c readings) k := by
    intro k
    constructor
    · rintro ⟨-, hoff, hon⟩
      exact ⟨(hfiring k).not.mp hoff, (hfiring (k + 1)).mp hon⟩
    · intro hraised
      rcases emits_iff hp (htracks k) with ⟨hemits, -⟩ | ⟨-, hnot⟩
      · exact ⟨hemits, (hfiring k).not.mpr hraised.1, (hfiring (k + 1)).mpr hraised.2⟩
      · exact absurd hraised hnot
  constructor
  case fires =>
    intro k
    rw [hfires, HoldDown.raised_iff]
    refine and_congr_right fun _ => and_congr (hfiring k).not.symm (or_congr ?_ ?_)
    · exact decide_eq_true_iff
    · refine exists_congr fun j => and_congr_right fun _ => and_congr_right fun _ =>
        and_congr_right fun _ => and_congr (hfiring j).not.symm (and_congr_right fun _ => ?_)
      rw [due, decide_eq_true_iff, mul_comm]
  case otherwise =>
    intro k hnot
    rcases emits_iff hp (htracks k) with ⟨-, hraised⟩ | ⟨hsame, hraised⟩
    · exact absurd ((hfires k).mpr hraised) hnot
    · refine ⟨hsame, fun hnext => ?_⟩
      by_contra hoff
      exact hraised ⟨(hfiring k).not.mp hoff, (hfiring (k + 1)).mp hnext⟩
  case null =>
    intro k hnone
    cases does_tick hp (htracks k) with
    | nothing hsame _ => exact hsame
    | moves b value newState row entry edit hv _ _ _ =>
      rw [verdict, hnone] at hv
      cases hv
  case counts =>
    intro k
    obtain ⟨row, hrow, -, -, hcount⟩ := (htracks k).row
    refine ⟨firedRows id (states p id readings s₀ k).db, ?_, (htracks k).events, rfl⟩
    rw [fireCountOf, hrow, Option.map_some, hcount]

/-! ### Five minutes -/

def isoDates : List (Int × String) :=
  [(0, "1970-01-01T00:00:00.000Z"), (300000, "1970-01-01T00:05:00.000Z")]

def unary (ms : Int) : String :=
  String.ofList (List.replicate ms.natAbs (if 0 ≤ ms then '+' else '-'))

def ofUnary (s : String) : Int := (s.toList.count '+' : Int) - (s.toList.count '-' : Int)

def utc : Platform where
  driver := sqliteDriver
  toNumber
    | some (.num n) => some n
    | _ => none
  valueColumn v := .ok v.floor
  thresholdColumn
    | some (.num n) => .ok n
    | _ => .error "NOT NULL constraint failed: alert_history.threshold"
  toISOString d := ((isoDates.find? (·.1 = d.ms)).map (·.2)).getD (unary d.ms)
  parseDate s :=
    let ms := ((isoDates.find? (·.2 = s)).map (·.1)).getD (ofUnary s)
    if h : ms.natAbs ≤ 8640000000000000 then some ⟨ms, h⟩ else none

theorem ofUnary_unary (ms : Int) : ofUnary (unary ms) = ms := by
  rw [ofUnary, unary, String.toList_ofList]
  split
  · rw [List.count_replicate_self, List.count_replicate, if_neg (by decide)]
    omega
  · rw [List.count_replicate_self, List.count_replicate, if_neg (by decide)]
    omega

theorem unary_ne {s : String} (h : '1' ∈ s.toList) (ms : Int) : s ≠ unary ms := by
  rintro rfl
  rw [unary, String.toList_ofList] at h
  have hone := List.eq_of_mem_replicate h
  split at hone <;> exact absurd hone (by decide)

theorem utc_reliable : utc.Reliable := by
  have hfirst : ∀ ms, "1970-01-01T00:00:00.000Z" ≠ unary ms := unary_ne (by decide)
  have hsecond : ∀ ms, "1970-01-01T00:05:00.000Z" ≠ unary ms := unary_ne (by decide)
  constructor
  case stores => exact ⟨fun s => rfl, fun n => rfl⟩
  case value => exact fun v => ⟨_, rfl⟩
  case threshold => exact fun m => ⟨_, rfl⟩
  case parses =>
    rintro ⟨ms, hms⟩
    by_cases h₀ : ms = 0
    · subst h₀
      rfl
    · by_cases h₁ : ms = 300000
      · subst h₁
        rfl
      · simp [utc, isoDates, Ne.symm h₀, Ne.symm h₁, hfirst, hsecond, ofUnary_unary, hms]
  case text =>
    rintro ⟨ms, hms⟩ hempty
    by_cases h₀ : ms = 0
    · subst h₀
      have htext : "1970-01-01T00:00:00.000Z" = "" := hempty
      exact absurd htext (by decide)
    · by_cases h₁ : ms = 300000
      · subst h₁
        have htext : "1970-01-01T00:05:00.000Z" = "" := hempty
        exact absurd htext (by decide)
      · have hunary : unary ms = "" := by simpa [utc, isoDates, Ne.symm h₀, Ne.symm h₁] using hempty
        have hzero := ofUnary_unary ms
        rw [hunary] at hzero
        exact h₀ hzero.symm

def fiveMinutes : Condition utc where
  json := .obj [("query", .str "errors"), ("operator", .str ">"), ("threshold", .num 0),
    ("forDurationSec", .num 300)]
  operator := .gt
  threshold := 0
  duration := 300
  forDurationSec := 300
  operator_eq := rfl
  threshold_eq := rfl
  duration_eq := rfl
  forDurationSec_eq := rfl
  nonneg := by decide

def epoch : Date := ⟨0, by decide⟩

def errorReadings (k : ℕ) : Reading where
  sample := if k = 0 ∨ k = 2 then some 1 else none
  uuid := String.ofList (List.replicate k 'h')
  now := if k = 0 then epoch else ⟨300000, by decide⟩
  stamp := if k = 0 then epoch else ⟨300000, by decide⟩
  updated := epoch

def errorRule : AlertRule where
  id := "alert_1"
  name := "Errors"
  description := ""
  condition := fiveMinutes.json
  workspaceId := some "org_main"

def errorStore : Evaluation where
  db := { orgs := ["org_main"], alertRules := [errorRule] }

theorem errorStore_starts : Starts utc "alert_1" fiveMinutes errorStore :=
  ⟨⟨errorRule, rfl, rfl, rfl, rfl⟩, rfl, rfl⟩

theorem errorReadings_fresh : FreshIds errorReadings errorStore.db := by
  refine ⟨fun j k h => ?_, fun k h => by cases h⟩
  have hlist := congrArg List.length (String.ofList_injective h)
  simpa using hlist

/-- The third tick fires, five minutes after the first. -/
theorem alert_trace_law_fires :
    TraceLaw utc "alert_1" fiveMinutes errorReadings errorStore ∧
      Fires utc "alert_1" errorReadings errorStore 2 := by
  have hlaw := alert_trace_law utc utc_reliable "alert_1" fiveMinutes errorReadings errorStore
    errorStore_starts errorReadings_fresh
  refine ⟨hlaw, (hlaw.fires 2).mpr ⟨by decide +kernel, by decide +kernel, Or.inr ⟨0, by decide,
    by decide +kernel, ?_, by decide, fun i hi => absurd hi (Nat.not_lt_zero i), by decide +kernel⟩⟩⟩
  intro i _ hi
  have hcases : i = 0 ∨ i = 1 ∨ i = 2 := by omega
  rcases hcases with rfl | rfl | rfl <;> decide +kernel

end OpenObs.Alerts
