import OpenObs.Alerts.Evaluator
import OpenObs.Rules.Columns

/-!
# What a transition does

A transition that nobody interferes with appends its history row and then writes
the new state with the side fields of that state; the other columns it writes back
as it has read them.
-/

namespace OpenObs.Alerts

open OpenObs.Foundation OpenObs.Resources OpenObs.Rules

structure Stores (driver : Driver) : Prop where
  text : ∀ s, driver.text (.str s) = .ok (some s)
  number : ∀ n, driver.number (.num n) = .ok (.num n)

/-! ## The patch -/

section Patch

variable {now newState : String} {rule existing : AlertRule} {driver : Driver}

def clearsPending (newState : String) : Prop :=
  newState = "firing" ∨ newState = "normal" ∨ newState = "resolved"

instance (newState : String) : Decidable (clearsPending newState) :=
  inferInstanceAs (Decidable (_ ∨ _ ∨ _))

theorem field_state : Json.field (transitionPatch now newState rule) "state" =
    some (.str newState) := rfl

theorem field_pendingSince : Json.field (transitionPatch now newState rule) "pendingSince" =
    if newState = "pending" then some (.str now)
    else if clearsPending newState then some .null else none := by
  unfold transitionPatch clearsPending
  split_ifs <;> simp_all [Json.field]

theorem field_fireCount : Json.field (transitionPatch now newState rule) "fireCount" =
    if newState = "firing" then some (plusOne rule.fireCount) else none := by
  unfold transitionPatch
  split_ifs <;> simp_all [Json.field]

theorem field_lastFiredAt : Json.field (transitionPatch now newState rule) "lastFiredAt" =
    if newState = "firing" then some (.str now) else none := by
  unfold transitionPatch
  split_ifs <;> simp_all [Json.field]

theorem field_other {col : Column} (hcol : col ∉ [Column.state, .stateChangedAt, .lastEvaluatedAt,
    .pendingSince, .lastFiredAt, .fireCount]) :
    Json.field (transitionPatch now newState rule) col.key = none := by
  unfold transitionPatch
  cases col <;> first
    | exact absurd (by decide) hcol
    | (split_ifs <;> simp [Json.field, Column.key])

/-- `pending_since` after a transition. -/
def pendingAfter (now newState : String) (had : Option String) : Option String :=
  if newState = "pending" then some now
  else if clearsPending newState then none
  else had

structure Moved (now newState : String) (rule existing row : AlertRule) : Prop where
  state : row.state = newState
  pendingSince : row.pendingSince = pendingAfter now newState existing.pendingSince
  fireCount : row.fireCount =
    if newState = "firing" then plusOne rule.fireCount else existing.fireCount
  condition : row.condition = existing.condition

theorem written_state (hd : Stores driver) :
    Column.written driver (transitionPatch now newState rule) existing .state =
      .ok (.text newState) := by
  simp only [Column.written, AlertRuleRepository.required, field_state, Driver.notNull, hd.text]
  rfl

theorem written_pendingSince (hd : Stores driver) :
    Column.written driver (transitionPatch now newState rule) existing .pendingSince =
      .ok (.textOrNull (pendingAfter now newState existing.pendingSince)) := by
  simp only [Column.written, AlertRuleRepository.optional, field_pendingSince, pendingAfter]
  split_ifs
  · simp only [Driver.nullable, hd.text]
    rfl
  · rfl
  · rfl

theorem written_fireCount (hd : Stores driver) {n : Int} (hcount : rule.fireCount = .num n) :
    Column.written driver (transitionPatch now newState rule) existing .fireCount =
      .ok (.json (if newState = "firing" then plusOne rule.fireCount else existing.fireCount)) := by
  simp only [Column.written, AlertRuleRepository.number, field_fireCount, hcount, plusOne]
  split_ifs
  · simp only [hd.number]
    rfl
  · rfl

theorem written_lastFiredAt (hd : Stores driver) :
    ∃ c, Column.written driver (transitionPatch now newState rule) existing .lastFiredAt =
      .ok c := by
  simp only [Column.written, AlertRuleRepository.optional, field_lastFiredAt]
  split_ifs
  · simp only [Driver.nullable, hd.text]
    exact ⟨_, rfl⟩
  · exact ⟨_, rfl⟩

theorem merge_transition (hd : Stores driver) {n : Int} (hcount : rule.fireCount = .num n)
    (updated : String) :
    ∃ edit, AlertRuleRepository.merge driver updated (transitionPatch now newState rule) existing =
        .ok edit ∧ ∀ row, Moved now newState rule existing (edit row) := by
  obtain ⟨edit, hmerge⟩ := @AlertRuleRepository.merge_of_written driver updated
    (transitionPatch now newState rule) existing (by
      intro col
      cases col with
      | state => exact ⟨_, written_state hd⟩
      | pendingSince => exact ⟨_, written_pendingSince hd⟩
      | fireCount => exact ⟨_, written_fireCount hd hcount⟩
      | lastFiredAt => exact written_lastFiredAt hd
      | stateChangedAt =>
        refine ⟨.text now, ?_⟩
        show Cell.text <$> (driver.text (.str now) >>= _) = _
        rw [hd.text]
        rfl
      | lastEvaluatedAt =>
        refine ⟨.textOrNull (some now), ?_⟩
        show Cell.textOrNull <$> driver.text (.str now) = _
        rw [hd.text]
        rfl
      | _ => exact ⟨_, Column.written_of_field_none (field_other (by decide))⟩)
  have hcell := AlertRuleRepository.written_of_merge hmerge
  refine ⟨edit, hmerge, fun row => ⟨?_, ?_, ?_, ?_⟩⟩
  · have h := (written_state hd).symm.trans (hcell row .state)
    simpa [Column.cell] using (Except.ok.inj h).symm
  · have h := (written_pendingSince hd).symm.trans (hcell row .pendingSince)
    simpa [Column.cell] using (Except.ok.inj h).symm
  · have h := (written_fireCount hd hcount).symm.trans (hcell row .fireCount)
    simpa [Column.cell] using (Except.ok.inj h).symm
  · have h := (Column.written_of_field_none (field_other (by decide))).symm.trans
      (hcell row .condition)
    simpa [Column.cell] using (Except.ok.inj h).symm

end Patch

/-! ## A transition alone -/

section Transition

variable {p : Platform} {drawn : DrawnTransition} {id newState : String} {value : Option ℚ}
  {t : Tables} {row : AlertRule} {entry : AlertHistoryEntry}

theorem run_insertHistory (entry : Except String AlertHistoryEntry) (t : Tables) :
    (∃ e, (AlertRuleRepository.insertHistory entry).run t = (.error e, t)) ∨
    ∃ h, entry = .ok h ∧ (AlertRuleRepository.insertHistory entry).run t =
      (.ok (), { t with alertHistory := t.alertHistory ++ [h] }) := by
  rw [AlertRuleRepository.insertHistory, Prog.run_attempt]
  cases entry with
  | error e => exact Or.inl ⟨e, rfl⟩
  | ok h =>
    dsimp only
    split
    · exact Or.inl ⟨_, rfl⟩
    · split
      · exact Or.inl ⟨_, rfl⟩
      · exact Or.inr ⟨h, rfl, rfl⟩

structure Transitions (p : Platform) (drawn : DrawnTransition) (id newState : String)
    (value : Option ℚ) (row : AlertRule) (t t' : Tables) (entry : AlertHistoryEntry)
    (edit : AlertRule → AlertRule) : Prop where
  entry_ok : AlertRuleRepository.historyEntry p drawn id newState value (rowToRule row) = .ok entry
  id_edit : ∀ r, (edit r).id = r.id
  moved : ∀ r, Moved drawn.now newState (rowToRule row) (rowToRule row) (edit r)
  tables : t' = editRules id edit { t with alertHistory := t.alertHistory ++ [entry] }

theorem historyEntry_fields {rule : AlertRule}
    (h : AlertRuleRepository.historyEntry p drawn id newState value rule = .ok entry) :
    entry.id = drawn.uuid ∧ entry.ruleId = id ∧ entry.fromState = rule.state ∧
      entry.toState = newState := by
  obtain ⟨v, -, h⟩ := Rules.AlertRuleRepository.bind_eq_ok h
  split at h
  · cases h
  · obtain ⟨m, -, h⟩ := Rules.AlertRuleRepository.bind_eq_ok h
    cases h
    exact ⟨rfl, rfl, rfl, rfl⟩

theorem Transitions.history {t' : Tables} {edit : AlertRule → AlertRule}
    (h : Transitions p drawn id newState value row t t' entry edit) :
    t'.alertHistory = t.alertHistory ++ [entry] := by
  rw [h.tables]
  rfl

theorem Transitions.found {t' : Tables} {edit : AlertRule → AlertRule}
    (h : Transitions p drawn id newState value row t t' entry edit)
    (hrow : t.findRuleById id = some row) : t'.findRuleById id = some (edit row) := by
  rw [h.tables, findRuleById_editRules h.id_edit]
  show (t.findRuleById id).map edit = _
  rw [hrow]
  rfl

theorem run_transition_of_inserted (hd : Stores p.driver) (hrow : t.findRuleById id = some row)
    {n : Int} (hcount : row.fireCount = .num n) (hne : row.state ≠ newState)
    (hentry : AlertRuleRepository.historyEntry p drawn id newState value (rowToRule row) = .ok entry)
    (hinsert : (AlertRuleRepository.insertHistory (.ok entry)).run t =
      (.ok (), { t with alertHistory := t.alertHistory ++ [entry] })) :
    ∃ t' edit, Transitions p drawn id newState value row t t' entry edit ∧
      (AlertRuleRepository.transition p drawn id newState value).run t =
        (.ok (some (rowToRule (edit row))), t') := by
  have hcount' : (rowToRule row).fireCount = .num n := hcount
  obtain ⟨edit, hmerge, hmoved⟩ := @merge_transition drawn.now newState (rowToRule row)
    (rowToRule row) p.driver hd n hcount' drawn.updated
  obtain ⟨_, -, hkeys⟩ := Rules.AlertRuleRepository.merge_ok hmerge
  refine ⟨_, edit, ⟨hentry, fun r => (hkeys r).1, hmoved, rfl⟩, ?_⟩
  have hrow' : ({ t with alertHistory := t.alertHistory ++ [entry] } : Tables).findRuleById id =
      some row := hrow
  rw [AlertRuleRepository.transition, Rules.AlertRuleRepository.findById, Prog.run_bind,
    Prog.run_read, hrow]
  have hstate : (rowToRule row).state ≠ newState := hne
  dsimp only [Option.map_some]
  rw [if_neg hstate, Prog.run_bind, hentry, hinsert]
  dsimp only
  rcases run_updateRule hrow' with ⟨e, herr, -⟩ | ⟨edit', hok, hrun⟩
  · rw [hmerge] at herr
    cases herr
  · rw [hmerge] at hok
    cases hok
    exact hrun

theorem run_transition (hd : Stores p.driver) (hrow : t.findRuleById id = some row)
    {n : Int} (hcount : row.fireCount = .num n) :
    (row.state = newState ∧ (AlertRuleRepository.transition p drawn id newState value).run t =
      (.ok (some (rowToRule row)), t)) ∨
    (∃ e, (AlertRuleRepository.transition p drawn id newState value).run t = (.error e, t)) ∨
    ∃ t' entry edit, row.state ≠ newState ∧ Transitions p drawn id newState value row t t' entry edit ∧
      (AlertRuleRepository.transition p drawn id newState value).run t =
        (.ok (some (rowToRule (edit row))), t') := by
  by_cases hsame : row.state = newState
  · refine Or.inl ⟨hsame, ?_⟩
    rw [AlertRuleRepository.transition, Rules.AlertRuleRepository.findById, Prog.run_bind,
      Prog.run_read, hrow]
    have hstate : (rowToRule row).state = newState := hsame
    dsimp only [Option.map_some]
    rw [if_pos hstate]
    rfl
  · rcases run_insertHistory
        (AlertRuleRepository.historyEntry p drawn id newState value (rowToRule row)) t with
      ⟨e, herr⟩ | ⟨entry, hentry, hinsert⟩
    · refine Or.inr (Or.inl ⟨e, ?_⟩)
      rw [AlertRuleRepository.transition, Rules.AlertRuleRepository.findById, Prog.run_bind,
        Prog.run_read, hrow]
      have hstate : (rowToRule row).state ≠ newState := hsame
      dsimp only [Option.map_some]
      rw [if_neg hstate, Prog.run_bind, herr]
    · rw [hentry] at hinsert
      obtain ⟨t', edit, htr, hrun⟩ := run_transition_of_inserted hd hrow hcount hsame hentry hinsert
      exact Or.inr (Or.inr ⟨t', entry, edit, hsame, htr, hrun⟩)

end Transition

/-! ## A tick alone -/

section Ticks

open AlertEvaluatorService

variable {p : Platform} {tick : Tick} {s : Evaluation} {row : AlertRule} {value : ℚ}
  {newState : String}

def decision (p : Platform) (tick : Tick) (fresh : AlertRule) : Option (ℚ × String) :=
  if fresh.state = "disabled" then none
  else
    match tick.query fresh with
    | .ok (some value) =>
      match next p tick fresh value with
      | .ok (some newState) => some (value, newState)
      | _ => none
    | _ => none

theorem next_ne {fresh : AlertRule} (h : next p tick fresh value = .ok (some newState)) :
    newState ≠ fresh.state := by
  unfold next at h
  split at h
  · cases h
  · split at h
    · cases h
    · dsimp only at h
      split at h
      · cases h
      · split_ifs at h with hsame
        · cases h
        · cases h
          exact hsame

theorem decideTransition_mem {fresh : AlertRule} {b : Bool} {now : Date}
    (h : p.decideTransition fresh b now = some newState) :
    newState = "pending" ∨ clearsPending newState := by
  unfold Platform.decideTransition at h
  unfold clearsPending
  grind

theorem next_mem {fresh : AlertRule} (h : next p tick fresh value = .ok (some newState)) :
    newState = "pending" ∨ clearsPending newState := by
  unfold next at h
  split at h
  · cases h
  · split at h
    · cases h
    · dsimp only at h
      split at h
      · cases h
      · rename_i hdecide
        split_ifs at h with hsame
        · cases h
        · cases h
          exact decideTransition_mem hdecide

theorem decision_spec {fresh : AlertRule} (h : decision p tick fresh = some (value, newState)) :
    next p tick fresh value = .ok (some newState) := by
  unfold decision at h
  split at h
  · cases h
  · split at h
    · split at h
      · rename_i hnext
        cases h
        exact hnext
      · cases h
    · cases h

theorem decision_ne {fresh : AlertRule} (h : decision p tick fresh = some (value, newState)) :
    fresh.state ≠ newState := (next_ne (decision_spec h)).symm

theorem run_evaluate (hrow : s.db.findRuleById tick.id = some row) :
    ((evaluate p tick).run s).2 =
      match decision p tick (rowToRule row) with
      | none => s
      | some (value, newState) => ((settle p tick value (some newState)).run s).2 := by
  rw [evaluate, Prog.run_bind, Rules.AlertRuleRepository.findById, Prog.run_zoom, Prog.run_read]
  have hfound : ((Evaluation.tables.get s).findRuleById tick.id).map rowToRule =
      some (rowToRule row) := congrArg (·.map rowToRule) hrow
  dsimp only
  rw [hfound, decision]
  dsimp only [Option.map_some]
  split
  · rfl
  · rw [Prog.run_bind, Prog.run_attempt]
    cases hquery : tick.query (rowToRule row) with
    | error e => rfl
    | ok sample =>
      cases sample with
      | none => rfl
      | some value =>
        dsimp only
        cases hnext : next p tick (rowToRule row) value with
        | error e => rfl
        | ok next => cases next <;> rfl

def firedBy (p : Platform) (tick : Tick) (value : ℚ) (newState : String) (updated : AlertRule) :
    List AlertFiredPayload :=
  if newState = "firing" then [firedPayload p tick value updated] else []

structure Ticked (p : Platform) (tick : Tick) (value : ℚ) (newState : String) (row : AlertRule)
    (s s' : Evaluation) (entry : AlertHistoryEntry) (edit : AlertRule → AlertRule) : Prop where
  transitions : Transitions p (tick.drawn p) tick.id newState (some value) row s.db s'.db entry edit
  fired : s'.fired = s.fired ++ firedBy p tick value newState (rowToRule (edit row))
  inFlight : s'.inFlightRules = s.inFlightRules

theorem run_settle {t' : Tables} {entry : AlertHistoryEntry} {edit : AlertRule → AlertRule}
    (htr : Transitions p (tick.drawn p) tick.id newState (some value) row s.db t' entry edit)
    (hrun : (AlertRuleRepository.transition p (tick.drawn p) tick.id newState (some value)).run
      s.db = (.ok (some (rowToRule (edit row))), t')) :
    Ticked p tick value newState row s ((settle p tick value (some newState)).run s).2 entry
      edit := by
  have hzoom : ((AlertRuleRepository.transition p (tick.drawn p) tick.id newState
      (some value)).zoom Evaluation.tables).run s =
      (.ok (some (rowToRule (edit row))), { s with db := t' }) := by
    rw [Prog.run_zoom]
    show ((AlertRuleRepository.transition p (tick.drawn p) tick.id newState _).run s.db |>.1,
      { s with db := ((AlertRuleRepository.transition p (tick.drawn p) tick.id newState
        (some value)).run s.db).2 }) = _
    rw [hrun]
  have hsettle : ((settle p tick value (some newState)).run s).2 =
      { s with db := t', fired := s.fired ++ firedBy p tick value newState (rowToRule (edit row)) } := by
    unfold settle
    rw [Prog.run_bind, hzoom, firedBy]
    dsimp only
    split
    · rw [Prog.run_bind, Prog.run_write]
      dsimp only
      rw [Prog.run_attempt]
      rfl
    · rw [List.append_nil]
      rfl
  rw [hsettle]
  exact ⟨htr, rfl, rfl⟩

theorem run_settle_refused {e : String}
    (hrun : (AlertRuleRepository.transition p (tick.drawn p) tick.id newState (some value)).run
      s.db = (.error e, s.db)) : ((settle p tick value (some newState)).run s).2 = s := by
  have hzoom : ((AlertRuleRepository.transition p (tick.drawn p) tick.id newState
      (some value)).zoom Evaluation.tables).run s = (.error e, s) := by
    rw [Prog.run_zoom]
    show ((AlertRuleRepository.transition p (tick.drawn p) tick.id newState _).run s.db |>.1,
      { s with db := ((AlertRuleRepository.transition p (tick.drawn p) tick.id newState
        (some value)).run s.db).2 }) = _
    rw [hrun]
  unfold settle
  rw [Prog.run_bind, hzoom]

theorem run_tickRule_busy (h : s.inFlight tick.id = true) : ((tickRule p tick).run s).2 = s := by
  rw [tickRule, Prog.run_exclusive_busy h]

theorem run_tickRule_free (h : s.inFlight tick.id = false) :
    ((tickRule p tick).run s).2 = ((evaluate p tick).run (s.enter tick.id)).2.leave tick.id := by
  rw [tickRule, Prog.run_exclusive h]

theorem leave_enter (h : s.inFlight tick.id = false) {s' : Evaluation}
    (hin : s'.inFlightRules = (s.enter tick.id).inFlightRules) :
    (s'.leave tick.id).inFlightRules = s.inFlightRules := by
  have hnot : tick.id ∉ s.inFlightRules := by simpa [Evaluation.inFlight] using h
  rw [Evaluation.leave, hin, Evaluation.enter, List.filter_append, List.filter_eq_self.mpr]
  · simp
  · intro id hid
    simpa using fun heq : id = tick.id => hnot (heq ▸ hid)

theorem leave_enter_self (h : s.inFlight tick.id = false) :
    (s.enter tick.id).leave tick.id = s := by
  have hin := @leave_enter tick s h _ rfl
  cases s
  simp only [Evaluation.enter, Evaluation.leave] at hin ⊢
  rw [hin]

theorem run_tickRule_idle (hrow : s.db.findRuleById tick.id = some row)
    (h : decision p tick (rowToRule row) = none) : ((tickRule p tick).run s).2 = s := by
  cases hfree : s.inFlight tick.id with
  | true => exact run_tickRule_busy hfree
  | false =>
    have hrow' : (s.enter tick.id).db.findRuleById tick.id = some row := hrow
    rw [run_tickRule_free hfree, run_evaluate hrow', h]
    exact leave_enter_self hfree

theorem run_tickRule_moved (hfree : s.inFlight tick.id = false)
    (hrow : s.db.findRuleById tick.id = some row)
    (h : decision p tick (rowToRule row) = some (value, newState)) {t' : Tables}
    {entry : AlertHistoryEntry} {edit : AlertRule → AlertRule}
    (htr : Transitions p (tick.drawn p) tick.id newState (some value) row s.db t' entry edit)
    (hrun : (AlertRuleRepository.transition p (tick.drawn p) tick.id newState (some value)).run
      s.db = (.ok (some (rowToRule (edit row))), t')) :
    Ticked p tick value newState row s ((tickRule p tick).run s).2 entry edit := by
  have hrow' : (s.enter tick.id).db.findRuleById tick.id = some row := hrow
  obtain ⟨htr', hfired, hin⟩ := @run_settle p tick (s.enter tick.id) row value newState t' entry edit
    htr hrun
  rw [run_tickRule_free hfree, run_evaluate hrow', h]
  exact ⟨htr', hfired, leave_enter hfree hin⟩

theorem tick_effect (hd : Stores p.driver) (hrow : s.db.findRuleById tick.id = some row) {n : Int}
    (hcount : row.fireCount = .num n) :
    ((tickRule p tick).run s).2 = s ∨
    ∃ value newState entry edit, decision p tick (rowToRule row) = some (value, newState) ∧
      Ticked p tick value newState row s ((tickRule p tick).run s).2 entry edit := by
  cases hdec : decision p tick (rowToRule row) with
  | none => exact Or.inl (run_tickRule_idle hrow hdec)
  | some asked =>
    obtain ⟨value, newState⟩ := asked
    cases hfree : s.inFlight tick.id with
    | true => exact Or.inl (run_tickRule_busy hfree)
    | false =>
      rcases @run_transition p (tick.drawn p) tick.id newState (some value) s.db row hd hrow n
          hcount with ⟨hsame, -⟩ | ⟨e, herr⟩ | ⟨t', entry, edit, -, htr, hrun⟩
      · exact absurd hsame (@decision_ne p tick value newState (rowToRule row) hdec)
      · left
        have hrow' : (s.enter tick.id).db.findRuleById tick.id = some row := hrow
        have hsettle : ((settle p tick value (some newState)).run (s.enter tick.id)).2 =
            s.enter tick.id := run_settle_refused herr
        rw [run_tickRule_free hfree, run_evaluate hrow', hdec]
        dsimp only
        rw [hsettle]
        exact leave_enter_self hfree
      · exact Or.inr ⟨value, newState, entry, edit, rfl,
          run_tickRule_moved hfree hrow hdec htr hrun⟩

end Ticks

end OpenObs.Alerts
