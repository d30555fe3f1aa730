import OpenObs.Alerts.Traces

/-!
# Writers of one rule

A write of a rule reads the row, awaits, and writes sixteen columns back, those of its patch and the
others as it has read them.
-/

namespace OpenObs.Alerts

open OpenObs.Foundation OpenObs.Resources OpenObs.Rules

/-! ## Writes -/

inductive RuleWrite : Type where
  | update (now : String) (patch : Json.Record)
  | transition (drawn : DrawnTransition) (newState : String) (value : Option ℚ)

namespace RuleWrite

def code (p : Platform) (id : String) : RuleWrite → Prog Tables (Option AlertRule)
  | .update now patch => Rules.AlertRuleRepository.update p.driver now id patch
  | .transition drawn newState value => AlertRuleRepository.transition p drawn id newState value

/-- The clock of its `UPDATE`. -/
def now : RuleWrite → String
  | .update now _ => now
  | .transition drawn _ _ => drawn.updated

def patch (rule : AlertRule) : RuleWrite → Json.Record
  | .update _ patch => patch
  | .transition drawn newState _ => transitionPatch drawn.now newState rule

def sets (rule : AlertRule) : RuleWrite → Json.Record
  | .update _ patch => patch
  | .transition drawn newState _ =>
    if rule.state = newState then [] else transitionPatch drawn.now newState rule

def Touches (w : RuleWrite) (col : Column) : Prop :=
  ∃ rule, Json.field (w.patch rule) col.key ≠ none

def Apart (w w' : RuleWrite) : Prop := ∀ col, ¬ (w.Touches col ∧ w'.Touches col)

end RuleWrite

def Contains (driver : Driver) (patch : Json.Record) (row : AlertRule) : Prop :=
  ∀ col, Column.written driver patch row col = .ok (Column.cell row col)

section Values

variable {driver : Driver} {patch : Json.Record} {row row' existing : AlertRule} {col : Column}
  {w w' : RuleWrite}

theorem cell_rowToRule (row : AlertRule) (col : Column) :
    Column.cell (rowToRule row) col = Column.cell row col := by
  cases col <;> rfl

theorem required_again {column key existing s : String}
    (h : Rules.AlertRuleRepository.required driver patch column key existing = .ok s) :
    Rules.AlertRuleRepository.required driver patch column key s = .ok s := by
  unfold Rules.AlertRuleRepository.required at h ⊢
  split at h
  · rfl
  · rfl
  · exact h

theorem optional_again {key : String} {existing s : Option String}
    (h : Rules.AlertRuleRepository.optional driver patch key existing = .ok s) :
    Rules.AlertRuleRepository.optional driver patch key s = .ok s := by
  unfold Rules.AlertRuleRepository.optional at h ⊢
  split at h
  · rfl
  · exact h

theorem number_again {key : String} {existing v : Json}
    (h : Rules.AlertRuleRepository.number driver patch key existing = .ok v) :
    Rules.AlertRuleRepository.number driver patch key v = .ok v := by
  unfold Rules.AlertRuleRepository.number at h ⊢
  split at h
  · rfl
  · rfl
  · exact h

theorem written_again (h : Column.written driver patch existing col = .ok (Column.cell row col)) :
    Column.written driver patch row col = .ok (Column.cell row col) := by
  cases col with
  | condition =>
    simp only [Column.written, Column.cell, Except.ok.injEq, Cell.json.injEq] at h ⊢
    split at h
    · rfl
    · rfl
    · exact h
  | labels =>
    simp only [Column.written, Column.cell, Except.ok.injEq, Cell.jsonOrNull.injEq] at h ⊢
    split at h
    · rfl
    · exact h
  | name | description | severity | state | stateChangedAt =>
    obtain ⟨s, hs, hcell⟩ := Rules.AlertRuleRepository.map_eq_ok h
    cases hcell
    exact congrArg (Cell.text <$> ·) (required_again hs)
  | evaluationIntervalSec | fireCount =>
    obtain ⟨v, hv, hcell⟩ := Rules.AlertRuleRepository.map_eq_ok h
    cases hcell
    exact congrArg (Cell.json <$> ·) (number_again hv)
  | originalPrompt | pendingSince | notificationPolicyId | investigationId | workspaceId
  | lastEvaluatedAt | lastFiredAt =>
    obtain ⟨s, hs, hcell⟩ := Rules.AlertRuleRepository.map_eq_ok h
    cases hcell
    exact congrArg (Cell.textOrNull <$> ·) (optional_again hs)

theorem Contains.of_cells (h : Contains driver patch row)
    (hcells : ∀ col : Column, Json.field patch col.key ≠ none →
      Column.cell row' col = Column.cell row col) : Contains driver patch row' := by
  intro col
  by_cases hfield : Json.field patch col.key = none
  · exact Column.written_of_field_none hfield
  · rw [hcells col hfield, ← h col]
    exact Column.written_congr rfl (hcells col hfield)

theorem contains_nil : Contains driver [] row := fun _ => Column.written_of_field_none rfl

theorem RuleWrite.touches_of_sets {rule : AlertRule}
    (h : Json.field (w.sets rule) col.key ≠ none) : w.Touches col := by
  cases w with
  | update now patch => exact ⟨rule, h⟩
  | transition drawn newState value =>
    unfold RuleWrite.sets at h
    dsimp only at h
    split at h
    · exact absurd rfl h
    · exact ⟨rule, h⟩

theorem touches_state (rule : AlertRule) (drawn : DrawnTransition) (newState : String)
    (value : Option ℚ) : (RuleWrite.transition drawn newState value).Touches .state := by
  refine ⟨rule, ?_⟩
  show Json.field (transitionPatch drawn.now newState rule) "state" ≠ none
  rw [field_state]
  simp

theorem transitionPatch_congr {drawn : DrawnTransition} {newState : String} {value : Option ℚ}
    (h : ∀ col, (RuleWrite.transition drawn newState value).Touches col →
      Column.cell row col = Column.cell row' col) :
    transitionPatch drawn.now newState row = transitionPatch drawn.now newState row' := by
  unfold transitionPatch
  by_cases hfiring : newState = "firing"
  · have htouches : (RuleWrite.transition drawn newState value).Touches .fireCount := by
      refine ⟨row, ?_⟩
      show Json.field (transitionPatch drawn.now newState _) "fireCount" ≠ none
      rw [field_fireCount, if_pos hfiring]
      simp
    have hcount : row.fireCount = row'.fireCount := by
      simpa [Column.cell] using h .fireCount htouches
    rw [hcount]
  · rw [if_neg hfiring, if_neg hfiring]

end Values

/-! ## Where a write is -/

section Places

variable (p : Platform) (id : String) (row₀ : AlertRule)

/-- The write has not read the row for its `UPDATE`. -/
inductive Ahead : RuleWrite → Prog Tables (Option AlertRule) → Prop
  | update (now : String) (patch : Json.Record) :
      Ahead (.update now patch) (Rules.AlertRuleRepository.update p.driver now id patch)
  | transition (drawn : DrawnTransition) (newState : String) (value : Option ℚ) :
      Ahead (.transition drawn newState value)
        (AlertRuleRepository.transition p drawn id newState value)
  | insert {drawn : DrawnTransition} {newState : String} {value : Option ℚ}
      (moves : row₀.state ≠ newState) (entry : Except String AlertHistoryEntry) :
      Ahead (.transition drawn newState value)
        (AlertRuleRepository.insertHistory entry >>= fun _ =>
          Rules.AlertRuleRepository.update p.driver drawn.updated id
            (transitionPatch drawn.now newState row₀))
  | again {drawn : DrawnTransition} {newState : String} {value : Option ℚ}
      (moves : row₀.state ≠ newState) :
      Ahead (.transition drawn newState value)
        (Rules.AlertRuleRepository.update p.driver drawn.updated id
          (transitionPatch drawn.now newState row₀))

/-- A write of a rule that began as `row₀` and is now `row`: it has not read the row, and finds
its columns as they were; or it has read what the row still has; or it is through, and
if it has returned, the row has its values. -/
def Stands (w : RuleWrite) (prog : Prog Tables (Option AlertRule)) (row : AlertRule) : Prop :=
  (Ahead p id row₀ w prog ∧ ∀ col, w.Touches col → Column.cell row col = Column.cell row₀ col) ∨
  (∃ existing, prog = Rules.AlertRuleRepository.store p.driver w.now id (w.sets row₀) existing ∧
    ∀ col, Column.cell existing col = Column.cell row col) ∨
  (prog.finished = true ∧ ∀ found, prog = .ret found → Contains p.driver (w.sets row₀) row)

variable {p id row₀} {w : RuleWrite} {row : AlertRule} {t : Tables} {f : Tables → Tables}
  {k : Tables → Prog Tables (Option AlertRule)}

theorem update_section {now : String} {patch : Json.Record} (hrow : t.findRuleById id = some row)
    (hprog : Prog.sect f k = Rules.AlertRuleRepository.update p.driver now id patch) :
    f t = t ∧ k t = Rules.AlertRuleRepository.store p.driver now id patch (rowToRule row) := by
  cases hprog
  refine ⟨rfl, ?_⟩
  show Prog.bind (.ret ((t.findRuleById id).map rowToRule)) _ = _
  rw [hrow]
  rfl

theorem Ahead.unfinished {prog : Prog Tables (Option AlertRule)} (h : Ahead p id row₀ w prog) :
    prog.finished = false := by
  cases h <;> rfl

theorem Ahead.step (h : Ahead p id row₀ w (.sect f k)) (hrow : t.findRuleById id = some row)
    (hcells : ∀ col, w.Touches col → Column.cell row col = Column.cell row₀ col) :
    (f t).findRuleById id = some row ∧ Stands p id row₀ w (k t) row := by
  generalize hprog : Prog.sect f k = prog at h
  cases h with
  | update now patch =>
    obtain ⟨hsame, hnext⟩ := update_section hrow hprog
    rw [hsame, hnext]
    exact ⟨hrow, Or.inr (Or.inl ⟨_, rfl, cell_rowToRule row⟩)⟩
  | transition drawn newState value =>
    cases hprog
    refine ⟨hrow, ?_⟩
    have hstate : row.state = row₀.state := by
      simpa [Column.cell] using hcells .state (touches_state row drawn newState value)
    have hpatch : transitionPatch drawn.now newState (rowToRule row) =
        transitionPatch drawn.now newState row₀ :=
      @transitionPatch_congr (rowToRule row) row₀ drawn newState value fun col hcol =>
        (cell_rowToRule row col).trans (hcells col hcol)
    show Stands p id row₀ _ (Prog.bind (.ret ((t.findRuleById id).map rowToRule)) _) row
    rw [hrow]
    dsimp only [Option.map_some, Prog.bind]
    have hread : (rowToRule row).state = row₀.state := hstate
    rw [hread, hpatch]
    split
    · rename_i hsame
      refine Or.inr (Or.inr ⟨rfl, fun _ _ => ?_⟩)
      rw [RuleWrite.sets, if_pos hsame]
      exact contains_nil
    · rename_i hmoves
      exact Or.inl ⟨.insert hmoves _, hcells⟩
  | @insert drawn newState value moves entry =>
    rw [AlertRuleRepository.insertHistory] at hprog
    cases hprog
    have hnext : Stands p id row₀ (.transition drawn newState value)
        (Rules.AlertRuleRepository.update p.driver drawn.updated id
          (transitionPatch drawn.now newState row₀)) row := Or.inl ⟨.again moves, hcells⟩
    have hfailed : ∀ e, Stands p id row₀ (.transition drawn newState value) (.fail e) row :=
      fun e => Or.inr (Or.inr ⟨rfl, fun _ hret => by cases hret⟩)
    cases entry with
    | error e => exact ⟨hrow, hfailed e⟩
    | ok entry =>
      dsimp only
      split
      · exact ⟨hrow, hfailed _⟩
      · split
        · exact ⟨hrow, hfailed _⟩
        · exact ⟨hrow, hnext⟩
  | @again drawn newState value moves =>
    obtain ⟨hsame, hnext⟩ := update_section hrow hprog
    rw [hsame, hnext]
    refine ⟨hrow, Or.inr (Or.inl ⟨rowToRule row, ?_, cell_rowToRule row⟩)⟩
    rw [RuleWrite.sets, if_neg moves]
    rfl

theorem store_section {now : String} {patch : Json.Record} {existing : AlertRule}
    (hrow : t.findRuleById id = some row)
    (hread : ∀ col, Column.cell existing col = Column.cell row col)
    (hprog : Prog.sect f k = Rules.AlertRuleRepository.store p.driver now id patch existing) :
    ∃ row', (f t).findRuleById id = some row' ∧
      (∀ col : Column, Json.field patch col.key = none →
        Column.cell row' col = Column.cell row col) ∧
      (k t).finished = true ∧ ∀ found, k t = .ret found → Contains p.driver patch row' := by
  rw [Rules.AlertRuleRepository.store] at hprog
  cases hprog
  dsimp only
  cases hmerge : Rules.AlertRuleRepository.merge p.driver now patch existing with
  | error e => exact ⟨row, hrow, fun _ _ => rfl, rfl, fun found hret => by cases hret⟩
  | ok edit =>
    obtain ⟨_, -, hkeys⟩ := Rules.AlertRuleRepository.merge_ok hmerge
    have hwritten := Rules.AlertRuleRepository.written_of_merge hmerge row
    refine ⟨edit row, ?_, fun col hfield => ?_, rfl, fun _ _ col => written_again (hwritten col)⟩
    · show (editRules id edit t).findRuleById id = _
      rw [findRuleById_editRules fun r => (hkeys r).1, hrow]
      rfl
    · have hcell := (Column.written_of_field_none hfield).symm.trans (hwritten col)
      exact (Except.ok.inj hcell).symm.trans (hread col)

end Places

/-! ## Any number of writers -/

/-- The write has read the row and its `UPDATE` comes next. -/
def Storing (p : Platform) (id : String) (th : Thread Tables RuleWrite (Option AlertRule)) : Prop :=
  ∃ now patch existing,
    th.prog = Rules.AlertRuleRepository.store p.driver now id patch existing

/-- Writes of different columns are started at any time; a section that changes a column of
the row runs while no other write is between its read and its `UPDATE`. -/
structure Spaced (p : Platform) (id : String) (c : Config Tables RuleWrite (Option AlertRule))
    (l : Label RuleWrite) : Prop where
  starts : ∀ o, l = .start o → ∀ th ∈ c.threads, th.op.Apart o
  stores : ∀ i c' row row', l = .step i → c.next (RuleWrite.code p id) l = some c' →
    c.st.findRuleById id = some row → c'.st.findRuleById id = some row' →
    (∃ col, Column.cell row' col ≠ Column.cell row col) →
    ∀ j th, j ≠ i → c.threads[j]? = some th → ¬ Storing p id th

section Schedules

variable {p : Platform} {id : String} {st : Tables}
  {th th' : Thread Tables RuleWrite (Option AlertRule)}

theorem store_finishes {driver : Driver} {now : String} {patch : Json.Record}
    {existing : AlertRule} {f : Tables → Tables} {k : Tables → Prog Tables (Option AlertRule)}
    (h : Rules.AlertRuleRepository.store driver now id patch existing = .sect f k) (t : Tables) :
    (k t).finished = true := by
  rw [Rules.AlertRuleRepository.store] at h
  cases h
  dsimp only
  split <;> rfl

theorem not_storing_update {now : String} {patch : Json.Record}
    (h : th.prog = Rules.AlertRuleRepository.update p.driver now id patch) : ¬ Storing p id th := by
  rintro ⟨now', patch', existing, hstore⟩
  obtain ⟨f, k, hsect⟩ : ∃ f k,
      Rules.AlertRuleRepository.update p.driver now id patch = .sect f k := ⟨_, _, rfl⟩
  have hrow : ({ alertRules := [{ errorRule with id }] } : Tables).findRuleById id =
      some { errorRule with id } := by simp [Tables.findRuleById]
  have hnext := (update_section hrow hsect.symm).2
  have hdone := store_finishes (hstore.symm.trans (h.trans hsect))
    { alertRules := [{ errorRule with id }] }
  rw [hnext] at hdone
  cases hdone

theorem not_storing_ret {found : Option AlertRule} (h : th.prog = .ret found) :
    ¬ Storing p id th := by
  rintro ⟨now', patch', existing, hstore⟩
  rw [h] at hstore
  cases hstore

theorem spaced_first (h : ¬ Storing p id th') : Spaced p id ⟨st, [th, th']⟩ (.step 0) where
  starts o hl := by cases hl
  stores := by
    intro i' c' row row' hl _ _ _ _ j th'' hj hth
    cases hl
    match j with
    | 0 => exact absurd rfl hj
    | 1 =>
      cases hth
      exact h
    | j + 2 => cases hth

theorem spaced_second (h : ¬ Storing p id th) : Spaced p id ⟨st, [th, th']⟩ (.step 1) where
  starts o hl := by cases hl
  stores := by
    intro i' c' row row' hl _ _ _ _ j th'' hj hth
    cases hl
    match j with
    | 0 =>
      cases hth
      exact h
    | 1 => exact absurd rfl hj
    | j + 2 => cases hth

theorem spaced_alone {i : ℕ} : Spaced p id ⟨st, [th]⟩ (.step i) where
  starts o hl := by cases hl
  stores := by
    intro i' c' row row' hl hn _ _ _ j th' hj hth
    cases hl
    obtain ⟨o, f, k, hi, -⟩ := Config.next_step hn
    have hzero : ∀ {k : ℕ} {th'' : Thread Tables RuleWrite (Option AlertRule)},
        [th][k]? = some th'' → k = 0 := by
      intro k th'' hk
      simpa using (List.getElem?_eq_some_iff.mp hk).1
    exact absurd ((hzero hth).trans (hzero hi).symm) hj

end Schedules

/-- What holds between the sections of a rule that began as `row₀`. -/
structure Kept (p : Platform) (id : String) (row₀ : AlertRule)
    (c : Config Tables RuleWrite (Option AlertRule)) (row : AlertRule) : Prop where
  found : c.st.findRuleById id = some row
  stands : ∀ th ∈ c.threads, Stands p id row₀ th.op th.prog row
  apart : (c.threads.map (·.op)).Pairwise RuleWrite.Apart
  others : ∀ col, (∀ th ∈ c.threads, ¬ th.op.Touches col) →
    Column.cell row col = Column.cell row₀ col

section Writers

variable {p : Platform} {id : String} {row₀ row : AlertRule}
  {c c' : Config Tables RuleWrite (Option AlertRule)}

theorem RuleWrite.Apart.symm {w w' : RuleWrite} (h : w.Apart w') : w'.Apart w :=
  fun col htouch => h col htouch.symm

theorem Kept.apart_of_ne (h : Kept p id row₀ c row) {i j : ℕ}
    {th th' : Thread Tables RuleWrite (Option AlertRule)} (hne : i ≠ j)
    (hi : c.threads[i]? = some th) (hj : c.threads[j]? = some th') : th.op.Apart th'.op := by
  obtain ⟨hli, rfl⟩ := List.getElem?_eq_some_iff.mp hi
  obtain ⟨hlj, rfl⟩ := List.getElem?_eq_some_iff.mp hj
  have hall := List.pairwise_iff_getElem.mp h.apart
  simp only [List.length_map, List.getElem_map] at hall
  rcases Nat.lt_or_gt_of_ne hne with hlt | hlt
  · exact hall i j hli hlj hlt
  · exact (hall j i hlj hli hlt).symm

theorem Kept.start {o : RuleWrite} (h : Kept p id row₀ c row) (hok : Spaced p id c (.start o))
    (hn : c.next (RuleWrite.code p id) (.start o) = some c') : Kept p id row₀ c' row := by
  obtain ⟨hst, hth⟩ := Config.next_start hn
  have hapart := hok.starts o rfl
  constructor
  case found => rw [hst]; exact h.found
  case stands =>
    intro th hmem
    rw [hth] at hmem
    rcases List.mem_append.mp hmem with hmem | hmem
    · exact h.stands th hmem
    · rw [List.mem_singleton.mp hmem]
      refine Or.inl ⟨?_, fun col hcol => h.others col fun th' hth' htouches =>
        hapart th' hth' col ⟨htouches, hcol⟩⟩
      cases o with
      | update now patch => exact .update now patch
      | transition drawn newState value => exact .transition drawn newState value
  case apart =>
    rw [hth, List.map_append, List.pairwise_append]
    refine ⟨h.apart, List.pairwise_singleton _ _, fun w hw w' hw' => ?_⟩
    obtain ⟨th, hmem, rfl⟩ := List.mem_map.mp hw
    rw [List.mem_singleton.mp hw']
    exact hapart th hmem
  case others =>
    intro col hcol
    refine h.others col fun th hmem => hcol th ?_
    rw [hth]
    exact List.mem_append_left _ hmem

theorem Stands.of_cells {w : RuleWrite} {prog : Prog Tables (Option AlertRule)} {row' : AlertRule}
    (h : Stands p id row₀ w prog row)
    (htouched : ∀ col, w.Touches col → Column.cell row' col = Column.cell row col)
    (hstore : (∃ now patch existing,
        prog = Rules.AlertRuleRepository.store p.driver now id patch existing) →
      ∀ col, Column.cell row' col = Column.cell row col) : Stands p id row₀ w prog row' := by
  rcases h with ⟨hahead, hcells⟩ | ⟨existing, hprog, hread⟩ | ⟨hdone, hcontains⟩
  · exact Or.inl ⟨hahead, fun col hcol => (htouched col hcol).trans (hcells col hcol)⟩
  · have hsame := hstore ⟨_, _, existing, hprog⟩
    exact Or.inr (Or.inl ⟨existing, hprog, fun col => (hread col).trans (hsame col).symm⟩)
  · refine Or.inr (Or.inr ⟨hdone, fun found hret => (hcontains found hret).of_cells ?_⟩)
    exact fun col hfield => htouched col (RuleWrite.touches_of_sets hfield)

theorem Kept.section_row {i : ℕ} (h : Kept p id row₀ c row)
    (hn : c.next (RuleWrite.code p id) (.step i) = some c') :
    ∃ o f k row', c.threads[i]? = some ⟨o, .sect f k⟩ ∧
      c'.threads = c.threads.set i ⟨o, k c.st⟩ ∧ c'.st.findRuleById id = some row' ∧
      (∀ col, ¬ o.Touches col → Column.cell row' col = Column.cell row col) ∧
      Stands p id row₀ o (k c.st) row' := by
  obtain ⟨o, f, k, hi, hst, hth⟩ := Config.next_step hn
  rcases h.stands _ (List.mem_of_getElem? hi) with ⟨hahead, hcells⟩ | ⟨existing, hprog, hread⟩ |
    ⟨hdone, -⟩
  · obtain ⟨hfound, hstands⟩ := hahead.step h.found hcells
    exact ⟨o, f, k, row, hi, hth, hst ▸ hfound, fun _ _ => rfl, hstands⟩
  · obtain ⟨row', hfound, hothers, hdone, hcontains⟩ := store_section h.found hread hprog
    refine ⟨o, f, k, row', hi, hth, hst ▸ hfound, fun col hcol => hothers col ?_,
      Or.inr (Or.inr ⟨hdone, hcontains⟩)⟩
    by_contra hfield
    exact hcol (RuleWrite.touches_of_sets hfield)
  · cases hdone

theorem Kept.step {i : ℕ} (h : Kept p id row₀ c row) (hok : Spaced p id c (.step i))
    (hn : c.next (RuleWrite.code p id) (.step i) = some c') :
    ∃ row', Kept p id row₀ c' row' := by
  obtain ⟨o, f, k, row', hi, hth, hfound, hothers, hstands⟩ := h.section_row hn
  refine ⟨row', hfound, fun th hmem => ?_, ?_, fun col hcol => ?_⟩
  · rw [hth] at hmem
    obtain ⟨j, hj⟩ := List.mem_iff_getElem?.mp hmem
    by_cases hji : j = i
    · subst hji
      rw [List.getElem?_set_self (List.getElem?_eq_some_iff.mp hi).1] at hj
      cases hj
      exact hstands
    · rw [List.getElem?_set_ne (Ne.symm hji)] at hj
      refine (h.stands th (List.mem_of_getElem? hj)).of_cells (fun col hcol => ?_)
        fun hstoring col => ?_
      · exact hothers col fun htouches => h.apart_of_ne hji hj hi col ⟨hcol, htouches⟩
      · -- a writer that has read the row allows no change of it
        by_contra hchanged
        exact hok.stores i c' row row' rfl hn h.found hfound ⟨col, hchanged⟩ j th hji hj hstoring
  · rw [Config.next_step_ops hn]
    exact h.apart
  · have hsame : ∀ th ∈ c.threads, ¬ th.op.Touches col := by
      intro th hmem
      have hop : th.op ∈ c'.threads.map (·.op) := by
        rw [Config.next_step_ops hn]
        exact List.mem_map_of_mem hmem
      obtain ⟨th', hmem', heq⟩ := List.mem_map.mp hop
      rw [← heq]
      exact hcol th' hmem'
    exact (hothers col (hsame _ (List.mem_of_getElem? hi))).trans (h.others col hsame)

end Writers

/-- **No write is undone.** In a run of writes of different columns of one rule, in which no
section changes the row while another write is between its read and its `UPDATE`, the
row has the values of every write that has returned. -/
theorem rule_writes_kept (p : Platform) (id : String) (t₀ : Tables) (row₀ : AlertRule)
    (hrow : t₀.findRuleById id = some row₀) (c : Config Tables RuleWrite (Option AlertRule))
    (h : Run (RuleWrite.code p id) (Spaced p id) ⟨t₀, []⟩ c) :
    ∃ row, c.st.findRuleById id = some row ∧ ∀ th ∈ c.threads, ∀ found, th.prog = .ret found →
      Contains p.driver (th.op.sets row₀) row := by
  have hkept : ∃ row, Kept p id row₀ c row := by
    induction h with
    | init =>
      refine ⟨row₀, hrow, fun th hth => ?_, List.Pairwise.nil, fun _ _ => rfl⟩
      cases hth
    | tail l _ hok hn ih =>
      obtain ⟨row, hrow'⟩ := ih
      cases l with
      | start o => exact ⟨row, hrow'.start hok hn⟩
      | step i => exact hrow'.step hok hn
  obtain ⟨row, hrow'⟩ := hkept
  refine ⟨row, hrow'.found, fun th hth found hret => ?_⟩
  rcases hrow'.stands th hth with ⟨hahead, -⟩ | ⟨existing, hprog, -⟩ | ⟨-, hcontains⟩
  · have hunfinished := hahead.unfinished
    rw [hret] at hunfinished
    cases hunfinished
  · rw [hprog] at hret
    cases hret
  · exact hcontains found hret

/-! ## Runs -/

def pendingWrite : RuleWrite := .transition ⟨"h1", "t1", "t1"⟩ "pending" (some 1)

def nameWrite : RuleWrite := .update "t2" [("name", .str "Errors!")]

def investigationWrite : RuleWrite := .update "t3" [("investigationId", .str "inv_1")]

theorem pending_apart_name : pendingWrite.Apart nameWrite := by
  rintro col ⟨⟨rule, hpending⟩, ⟨rule', hname⟩⟩
  cases col with
  | name => exact hpending (field_other (by decide))
  | _ => exact hname rfl

theorem name_apart_investigation : nameWrite.Apart investigationWrite := by
  rintro col ⟨⟨rule, hname⟩, ⟨rule', hinvestigation⟩⟩
  cases col with
  | name => exact hinvestigation rfl
  | _ => exact hname rfl

def nested : List (Label RuleWrite) :=
  [.start pendingWrite, .step 0, .step 0, .start nameWrite, .step 1, .step 1, .step 0, .step 0]

theorem nested_spaced : AllOk (RuleWrite.code utc "alert_1") (Spaced utc "alert_1")
    ⟨errorStore.db, []⟩ nested := by
  have hstart : ∀ o (c : Config Tables RuleWrite (Option AlertRule)),
      (∀ th ∈ c.threads, th.op.Apart o) → Spaced utc "alert_1" c (.start o) := by
    intro o c h
    refine ⟨?_, fun i c' _ _ hl => by cases hl⟩
    rintro o ⟨⟩
    exact h
  refine ⟨hstart _ _ fun th hth => (by cases hth), ?_⟩
  rintro c' ⟨⟩
  refine ⟨spaced_alone, ?_⟩
  rintro c' ⟨⟩
  refine ⟨spaced_alone, ?_⟩
  rintro c' ⟨⟩
  refine ⟨hstart _ _ fun th hth => ?_, ?_⟩
  · cases List.mem_singleton.mp hth
    exact pending_apart_name
  rintro c' ⟨⟩
  refine ⟨spaced_second (not_storing_update rfl), ?_⟩
  rintro c' ⟨⟩
  refine ⟨spaced_second (not_storing_update rfl), ?_⟩
  rintro c' ⟨⟩
  refine ⟨spaced_first (not_storing_ret rfl), ?_⟩
  rintro c' ⟨⟩
  refine ⟨spaced_first (not_storing_ret rfl), ?_⟩
  rintro c' ⟨⟩
  trivial

theorem rule_writes_kept_nested :
    ∃ c row, Config.exec (RuleWrite.code utc "alert_1") ⟨errorStore.db, []⟩ nested = some c ∧
      c.st.findRuleById "alert_1" = some row ∧
      Contains utc.driver (pendingWrite.sets errorRule) row ∧
      Contains utc.driver (nameWrite.sets errorRule) row := by
  obtain ⟨row, hrow, hcontains⟩ := rule_writes_kept utc "alert_1" errorStore.db errorRule rfl _
    (Run.init.of_exec nested_spaced rfl)
  exact ⟨_, row, rfl, hrow, hcontains _ List.mem_cons_self _ rfl,
    hcontains _ (List.mem_cons_of_mem _ List.mem_cons_self) _ rfl⟩

def overlapping : List (Label RuleWrite) :=
  [.start nameWrite, .start investigationWrite, .step 0, .step 1, .step 0, .step 1]

/-- The id of the investigation is written, and the new name is gone. -/
theorem rule_write_undone :
    ¬ ∀ (p : Platform) (id : String) (t₀ : Tables) (row₀ : AlertRule),
      t₀.findRuleById id = some row₀ → ∀ c : Config Tables RuleWrite (Option AlertRule),
      Run (RuleWrite.code p id)
        (fun c l => ∀ o, l = .start o → ∀ th ∈ c.threads, th.op.Apart o) ⟨t₀, []⟩ c →
      ∃ row, c.st.findRuleById id = some row ∧ ∀ th ∈ c.threads, ∀ found, th.prog = .ret found →
        Contains p.driver (th.op.sets row₀) row := by
  intro hall
  have hok : AllOk (RuleWrite.code utc "alert_1")
      (fun c l => ∀ o, l = .start o → ∀ th ∈ c.threads, th.op.Apart o) ⟨errorStore.db, []⟩
      overlapping := by
    refine ⟨fun o _ th hth => (by cases hth), ?_⟩
    rintro c' ⟨⟩
    refine ⟨?_, ?_⟩
    · rintro o ⟨⟩ th hth
      cases List.mem_singleton.mp hth
      exact name_apart_investigation
    rintro c' -
    refine ⟨fun o hl => (by cases hl), fun c' _ => ?_⟩
    refine ⟨fun o hl => (by cases hl), fun c' _ => ?_⟩
    refine ⟨fun o hl => (by cases hl), fun c' _ => ?_⟩
    exact ⟨fun o hl => (by cases hl), fun c' _ => trivial⟩
  obtain ⟨row, hrow, hcontains⟩ := hall utc "alert_1" errorStore.db errorRule rfl _
    (Run.init.of_exec hok rfl)
  have hname : Except.ok (Cell.text "Errors!") = Except.ok (Cell.text row.name) :=
    hcontains _ List.mem_cons_self _ rfl .name
  have hvalue : row.name = "Errors!" := by simpa using hname.symm
  have hstored := congrArg (Option.map (·.name)) hrow
  rw [Option.map_some, hvalue] at hstored
  exact absurd hstored (by decide +kernel)

end OpenObs.Alerts
