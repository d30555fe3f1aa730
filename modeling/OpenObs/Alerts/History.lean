import OpenObs.Alerts.Sections
import OpenObs.Alerts.Traces

/-!
# The history of a rule

The state of a rule is written on two ways. `transition` logs the step and keeps the side fields in
order; the three requests that edit a rule use the general update, which does neither.
-/

namespace OpenObs.Alerts

open OpenObs.Foundation OpenObs.Resources OpenObs.Rules

/-! ## Sessions -/

inductive RuleEdit : Type where
  | put (body : Json.Record)
  | disable
  | enable

namespace RuleEdit

def patch : RuleEdit → Json.Record
  | .put body => body
  | .disable => [("state", .str "disabled")]
  | .enable => [("state", .str "normal")]

/-- `enable` does not look at the source of the rule. -/
def refusesProvisioned : RuleEdit → Bool
  | .enable => false
  | _ => true

def code (driver : Driver) (now : String) (caller : Caller) (id : String) :
    RuleEdit → Prog Tables Reply
  | .put body => putRule driver now caller id body
  | .disable => disableRule driver now caller id
  | .enable => enableRule driver now caller id

def Admitted (edit : RuleEdit) (caller : Caller) (id : String) (t : Tables) (row : AlertRule) :
    Prop :=
  caller.allows t (.action "alert.rules:write" (ruleScope id)) = true ∧
    row.workspaceId = some caller.orgId ∧
    (edit.refusesProvisioned = true → isProvisioned row.source = false)

instance (edit : RuleEdit) (caller : Caller) (id : String) (t : Tables) (row : AlertRule) :
    Decidable (edit.Admitted caller id t row) :=
  inferInstanceAs (Decidable (_ ∧ _ ∧ _))

end RuleEdit

inductive LifecycleOp : Type where
  | tick (tick : Tick)
  | rest (caller : Caller) (now id : String) (edit : RuleEdit)

def LifecycleOp.code (p : Platform) : LifecycleOp → Prog Evaluation Unit
  | .tick t => AlertEvaluatorService.tickRule p t
  | .rest caller now id edit => do
      let _ ← (edit.code p.driver now caller id).zoom Evaluation.tables
      return ()

/-! ## The invariant -/

def ChainFrom : String → List AlertHistoryEntry → Prop
  | _, [] => True
  | state, h :: hs => h.fromState = state ∧ ChainFrom h.toState hs

def endState : String → List AlertHistoryEntry → String
  | state, [] => state
  | _, h :: hs => endState h.toState hs

def historyOf (id : String) (t : Tables) : List AlertHistoryEntry :=
  t.alertHistory.filter (·.ruleId = id)

/-- The history of the rule is a chain from `normal` to its state, and the side fields agree. -/
def FaithfulRow (hs : List AlertHistoryEntry) (row : AlertRule) : Prop :=
  ChainFrom "normal" hs ∧ endState "normal" hs = row.state ∧
    row.fireCount = .num (hs.countP (·.toState = "firing")) ∧
    (row.pendingSince.isSome = true ↔ row.state = "pending")

def Faithful (id : String) (s : Evaluation) : Prop :=
  ∃ row, s.db.findRuleById id = some row ∧ FaithfulRow (historyOf id s.db) row

structure KeepsLifecycle (driver : Driver) (patch : Json.Record) (row : AlertRule) : Prop where
  state : Column.written driver patch row .state = .ok (.text row.state)
  fireCount : Column.written driver patch row .fireCount = .ok (.json row.fireCount)
  pendingSince : ∃ since, Column.written driver patch row .pendingSince = .ok (.textOrNull since) ∧
    since.isSome = row.pendingSince.isSome

/-- A request that is admitted to the rule, and whose columns the driver takes, leaves the
lifecycle of the rule alone. -/
def LifecycleOp.Silent (p : Platform) (id : String) (op : LifecycleOp) (s : Evaluation) : Prop :=
  match op with
  | .tick _ => True
  | .rest caller _ id' edit => id' = id → ∀ row, s.db.findRuleById id = some row →
      edit.Admitted caller id s.db row →
      (∀ col, ∃ cell, Column.written p.driver edit.patch (rowToRule row) col = .ok cell) →
      KeepsLifecycle p.driver edit.patch (rowToRule row)

/-! ## One request -/

section Requests

variable {driver : Driver} {now id : String} {caller : Caller} {edit : RuleEdit} {t : Tables}
  {row : AlertRule}

theorem run_loadOwnedRule (hrow : t.findRuleById id = some row) :
    (loadOwnedRule caller id).run t =
      (.ok (if row.workspaceId = some caller.orgId then some (rowToRule row) else none), t) := by
  rw [loadOwnedRule, Rules.AlertRuleRepository.findById, Prog.run_bind, Prog.run_read, hrow]
  dsimp only [Option.map_some]
  have hsame : (rowToRule row).workspaceId = row.workspaceId := rfl
  rw [hsame]
  split <;> simp_all

theorem run_rest_missing (hrow : t.findRuleById id = none) :
    ((edit.code driver now caller id).run t).2 = t := by
  have hload : (loadOwnedRule caller id).run t = (.ok none, t) := by
    rw [loadOwnedRule, Rules.AlertRuleRepository.findById, Prog.run_bind, Prog.run_read, hrow]
    rfl
  cases edit <;>
    (simp only [RuleEdit.code, putRule, disableRule, enableRule, requirePermission]
     rw [Prog.run_bind, Prog.run_read]
     dsimp only
     split
     · rw [Prog.run_bind, hload]
       rfl
     · rfl)

theorem run_rest (hrow : t.findRuleById id = some row) :
    ((edit.code driver now caller id).run t).2 =
      if edit.Admitted caller id t row then
        ((Rules.AlertRuleRepository.update driver now id edit.patch).run t).2
      else t := by
  have hload := @run_loadOwnedRule id caller t row hrow
  have hsource : (rowToRule row).source = row.source := rfl
  have hgate : ∀ handler : Prog Tables Reply,
      ((requirePermission caller (.action "alert.rules:write" (ruleScope id)) handler).run t).2 =
        if caller.allows t (.action "alert.rules:write" (ruleScope id)) = true then
          (handler.run t).2 else t := by
    intro handler
    rw [requirePermission, Prog.run_bind, Prog.run_read]
    dsimp only
    split <;> rfl
  cases edit <;>
    (simp only [RuleEdit.code, putRule, disableRule, enableRule, RuleEdit.Admitted,
       RuleEdit.refusesProvisioned, RuleEdit.patch]
     rw [hgate, Prog.run_bind, hload]
     split_ifs <;> simp_all [Prog.run_discard])

end Requests

/-! ## Chains -/

section Chains

variable {state : String} {hs : List AlertHistoryEntry} {h : AlertHistoryEntry}

theorem chainFrom_snoc : ∀ {state : String},
    ChainFrom state (hs ++ [h]) ↔ ChainFrom state hs ∧ h.fromState = endState state hs := by
  induction hs with
  | nil => exact ⟨fun hc => ⟨trivial, hc.1⟩, fun hc => ⟨hc.2, trivial⟩⟩
  | cons g hs ih =>
    intro state
    show g.fromState = state ∧ ChainFrom g.toState (hs ++ [h]) ↔ _
    rw [ih, ← and_assoc]
    rfl

theorem endState_snoc : ∀ {state : String}, endState state (hs ++ [h]) = h.toState := by
  induction hs with
  | nil => exact rfl
  | cons g hs ih => exact ih

end Chains

/-! ## One step -/

section Steps

variable {p : Platform} {id : String} {s s' : Evaluation}

def Aside (id : String) (s s' : Evaluation) : Prop :=
  s'.db.findRuleById id = s.db.findRuleById id ∧ historyOf id s'.db = historyOf id s.db

theorem Aside.refl (s : Evaluation) : Aside id s s := ⟨rfl, rfl⟩

theorem Aside.trans (s s' s'' : Evaluation) (h : Aside id s s') (h' : Aside id s' s'') :
    Aside id s s'' := ⟨h'.1.trans h.1, h'.2.trans h.2⟩

theorem Aside.faithful (h : Aside id s s') : Faithful id s' ↔ Faithful id s := by
  rw [Faithful, Faithful, h.1, h.2]

theorem allows_aside {id' : String} (hne : id' ≠ id) : Allows (Aside id) id' where
  refl := Aside.refl
  insert s entry hrule := by
    refine ⟨rfl, ?_⟩
    show (s.db.alertHistory ++ [entry]).filter _ = s.db.alertHistory.filter _
    have hnot : entry.ruleId ≠ id := hrule ▸ hne
    rw [List.filter_append, List.filter_singleton]
    simp [hnot]
  store s edit hedit := ⟨findRuleById_editRules_other hedit (Ne.symm hne), rfl⟩
  emit s payload _ := Aside.refl s

theorem aside_tick {tick : Tick} (hne : tick.id ≠ id) :
    Aside id s ((AlertEvaluatorService.tickRule p tick).run s).2 :=
  Prog.run_related Aside.refl Aside.trans
    (holds_tickRule (allows_aside hne) (fun _ => ⟨rfl, rfl⟩) (fun _ => ⟨rfl, rfl⟩) s)

theorem run_restOp {caller : Caller} {now id' : String} {edit : RuleEdit} :
    (((LifecycleOp.rest caller now id' edit).code p).run s).2 =
      { s with db := ((edit.code p.driver now caller id').run s.db).2 } := by
  show ((((edit.code p.driver now caller id').zoom Evaluation.tables) >>= fun _ => pure ()).run
    s).2 = _
  rw [Prog.run_discard, Prog.run_zoom]
  rfl

theorem aside_rest {caller : Caller} {now id' : String} {edit : RuleEdit} (hne : id' ≠ id) :
    Aside id s (((LifecycleOp.rest caller now id' edit).code p).run s).2 := by
  rw [run_restOp]
  cases hrow : s.db.findRuleById id' with
  | none =>
    rw [run_rest_missing hrow]
    exact Aside.refl s
  | some row =>
    rw [run_rest hrow]
    split
    · rcases run_updateRule hrow with ⟨e, -, hrun⟩ | ⟨edit', hmerge, hrun⟩
      · rw [hrun]
        exact Aside.refl s
      · rw [hrun]
        obtain ⟨_, -, hkeys⟩ := Rules.AlertRuleRepository.merge_ok hmerge
        exact ⟨findRuleById_editRules_other (fun r => (hkeys r).1) (Ne.symm hne), rfl⟩
    · exact Aside.refl s

theorem faithful_tick (hd : Stores p.driver) {tick : Tick} (hid : tick.id = id)
    (h : Faithful id s) : Faithful id ((AlertEvaluatorService.tickRule p tick).run s).2 := by
  subst hid
  obtain ⟨row, hrow, hchain, hend, hcount, hpending⟩ := h
  rcases tick_effect hd hrow hcount with hsame | ⟨value, newState, entry, edit, hdec, hticked⟩
  · rw [hsame]
    exact ⟨row, hrow, hchain, hend, hcount, hpending⟩
  · have htr := hticked.transitions
    obtain ⟨-, hrule, hfrom, hto⟩ := historyEntry_fields htr.entry_ok
    have hmoved := htr.moved row
    have hhist : historyOf tick.id ((AlertEvaluatorService.tickRule p tick).run s).2.db =
        historyOf tick.id s.db ++ [entry] := by
      rw [historyOf, historyOf, htr.history, List.filter_append, List.filter_singleton]
      simp [hrule]
    refine ⟨edit row, htr.found hrow, ?_⟩
    rw [hhist]
    refine ⟨chainFrom_snoc.mpr ⟨hchain, hfrom.trans hend.symm⟩,
      endState_snoc.trans (hto.trans hmoved.state.symm), ?_, ?_⟩
    · have hcount' : (rowToRule row).fireCount = .num _ := hcount
      rw [hmoved.fireCount, hcount', List.countP_append, List.countP_singleton, hto]
      split
      · rename_i hfiring
        rw [plusOne, decide_eq_true hfiring]
        exact congrArg Json.num (by push_cast; rfl)
      · rename_i hfiring
        rw [decide_eq_false hfiring]
        rfl
    · rw [hmoved.pendingSince, hmoved.state, pendingAfter]
      rcases next_mem (decision_spec hdec) with hst | hclears
      · simp [hst]
      · have hne : newState ≠ "pending" := by
          rintro rfl
          revert hclears
          decide
        simp [hne, hclears]

theorem faithfulRow_edit {driver : Driver} {now : String} {patch : Json.Record}
    {hs : List AlertHistoryEntry} {row : AlertRule} {edit : AlertRule → AlertRule}
    (hmerge : Rules.AlertRuleRepository.merge driver now patch (rowToRule row) = .ok edit)
    (h : FaithfulRow hs row) :
    FaithfulRow hs (edit row) ↔ KeepsLifecycle driver patch (rowToRule row) := by
  have hcell := Rules.AlertRuleRepository.written_of_merge hmerge row
  obtain ⟨hchain, hend, hcount, hpending⟩ := h
  constructor
  · rintro ⟨-, hend', hcount', hpending'⟩
    have hstate : (edit row).state = row.state := hend'.symm.trans hend
    constructor
    case state =>
      rw [hcell .state]
      exact congrArg (fun s => Except.ok (Cell.text s)) hstate
    case fireCount =>
      rw [hcell .fireCount]
      exact congrArg (fun v => Except.ok (Cell.json v)) (hcount'.trans hcount.symm)
    case pendingSince =>
      refine ⟨_, hcell .pendingSince, ?_⟩
      rw [Bool.eq_iff_iff, hpending', hstate]
      exact hpending.symm
  · rintro ⟨hstate, hcount', since, hsince, hsome⟩
    have hstate' : (edit row).state = (rowToRule row).state := by
      simpa [Column.cell] using (hcell .state).symm.trans hstate
    have hfires : (edit row).fireCount = (rowToRule row).fireCount := by
      simpa [Column.cell] using (hcell .fireCount).symm.trans hcount'
    have hpend : (edit row).pendingSince = since := by
      simpa [Column.cell] using (hcell .pendingSince).symm.trans hsince
    refine ⟨hchain, hend.trans hstate'.symm, hfires.trans hcount, ?_⟩
    rw [hpend, hsome, hstate']
    exact hpending

theorem faithful_rest {caller : Caller} {now : String} {edit : RuleEdit} (h : Faithful id s) :
    Faithful id (((LifecycleOp.rest caller now id edit).code p).run s).2 ↔
      (LifecycleOp.rest caller now id edit).Silent p id s := by
  obtain ⟨row, hrow, hfaithful⟩ := h
  rw [run_restOp, run_rest hrow]
  by_cases hadm : edit.Admitted caller id s.db row
  · rw [if_pos hadm]
    rcases run_updateRule hrow with ⟨e, hmerge, hrun⟩ | ⟨edit', hmerge, hrun⟩
    · rw [hrun]
      refine iff_of_true ⟨row, hrow, hfaithful⟩ ?_
      rintro - row' hrow' - hwritten
      cases hrow.symm.trans hrow'
      obtain ⟨edit', hok⟩ := Rules.AlertRuleRepository.merge_of_written hwritten
      rw [hmerge] at hok
      cases hok
    · obtain ⟨_, -, hkeys⟩ := Rules.AlertRuleRepository.merge_ok hmerge
      have hfound : (editRules id edit' s.db).findRuleById id = some (edit' row) := by
        rw [findRuleById_editRules fun r => (hkeys r).1, hrow]
        rfl
      have hiff := faithfulRow_edit hmerge hfaithful
      rw [hrun]
      constructor
      · rintro ⟨row', hrow', hfaithful'⟩ - row'' hrow'' - -
        cases hfound.symm.trans hrow'
        cases hrow.symm.trans hrow''
        exact hiff.mp hfaithful'
      · intro hsilent
        refine ⟨edit' row, hfound, hiff.mpr (hsilent rfl row hrow hadm fun col => ?_)⟩
        exact ⟨_, Rules.AlertRuleRepository.written_of_merge hmerge row col⟩
  · rw [if_neg hadm]
    refine iff_of_true ⟨row, hrow, hfaithful⟩ ?_
    rintro - row' hrow' hadm' -
    cases hrow.symm.trans hrow'
    exact absurd hadm' hadm

theorem faithful_step (hd : Stores p.driver) (op : LifecycleOp) (h : Faithful id s) :
    Faithful id ((op.code p).run s).2 ↔ op.Silent p id s := by
  cases op with
  | tick tick =>
    refine iff_of_true ?_ trivial
    by_cases hid : tick.id = id
    · exact faithful_tick hd hid h
    · exact (aside_tick hid).faithful.mpr h
  | rest caller now id' edit =>
    by_cases hid : id' = id
    · subst hid
      exact faithful_rest h
    · exact iff_of_true ((aside_rest hid).faithful.mpr h) fun heq => absurd heq hid

end Steps

/-! ## Sessions of a rule -/

def Untouched (id : String) (s : Evaluation) : Prop :=
  ∃ row, s.db.findRuleById id = some row ∧ historyOf id s.db = [] ∧ row.state = "normal" ∧
    row.pendingSince = none ∧ row.fireCount = .num 0

theorem Untouched.faithful {id : String} {s : Evaluation} (h : Untouched id s) :
    Faithful id s := by
  obtain ⟨row, hrow, hhistory, hstate, hpending, hcount⟩ := h
  refine ⟨row, hrow, ?_⟩
  rw [hhistory]
  refine ⟨trivial, hstate.symm, hcount, ?_⟩
  rw [hpending, hstate]
  decide

/-- **The history of a rule.** Throughout a session of ticks and requests the history is a chain
from `normal` to the state of the rule, with its count and its pending mark, iff every
request that reaches the rule leaves its lifecycle alone. -/
theorem alert_history_chain (p : Platform) (hd : Stores p.driver) (id : String)
    (ops : List LifecycleOp) (s₀ : Evaluation) (h₀ : Untouched id s₀) :
    AllServed (LifecycleOp.code p) (fun op s => Faithful id ((op.code p).run s).2) ops s₀ ↔
      AllServed (LifecycleOp.code p) (fun op s => op.Silent p id s) ops s₀ := by
  have hfaithful := h₀.faithful
  clear h₀
  induction ops generalizing s₀ with
  | nil => exact Iff.rfl
  | cons op ops ih =>
    have hstep := faithful_step hd op hfaithful
    constructor
    · rintro ⟨hnow, hrest⟩
      exact ⟨hstep.mp hnow, (ih _ hnow).mp hrest⟩
    · rintro ⟨hnow, hrest⟩
      have hkept := hstep.mpr hnow
      exact ⟨hkept, (ih _ hkept).mpr hrest⟩

/-! ## Runs -/

def mainEditor : Caller := ⟨"org_main", some "ann", fun _ _ => true⟩

theorem errorStore_untouched : Untouched "alert_1" errorStore :=
  ⟨errorRule, rfl, rfl, rfl, rfl, rfl⟩

def firstErrors : Tick := (errorReadings 0).tick "alert_1"

/-- The rule goes pending and gets a new name. -/
theorem alert_history_chain_renamed :
    AllServed (LifecycleOp.code utc)
      (fun op s => Faithful "alert_1" ((op.code utc).run s).2)
      [.tick firstErrors, .rest mainEditor "t1" "alert_1" (.put [("name", .str "Errors!")])]
      errorStore := by
  refine (alert_history_chain utc utc_reliable.stores "alert_1" _ errorStore
    errorStore_untouched).mpr ⟨trivial, ?_, trivial⟩
  rintro - row - - -
  exact ⟨Column.written_of_field_none rfl, Column.written_of_field_none rfl,
    _, Column.written_of_field_none rfl, rfl⟩

/-- A disabled rule has no history. -/
theorem disable_leaves_no_row :
    ¬ ∀ (p : Platform), Stores p.driver → ∀ (id : String) (ops : List LifecycleOp)
      (s₀ : Evaluation), Untouched id s₀ →
      AllServed (LifecycleOp.code p) (fun op s => Faithful id ((op.code p).run s).2) ops s₀ := by
  intro hall
  obtain ⟨⟨row, hrow, -, hend, -⟩, -⟩ := hall utc utc_reliable.stores "alert_1"
    [.rest mainEditor "t1" "alert_1" .disable] errorStore errorStore_untouched
  have hstate := congrArg (Option.map (·.state)) hrow
  rw [Option.map_some, ← hend] at hstate
  exact absurd hstate (by decide +kernel)

end OpenObs.Alerts
