import OpenObs.Alerts.Transitions

/-!
# What the sections write

Ticks and requests of a rule, section by section and whatever happens between the
sections: a transition appends a history row of its rule, an update edits the row
of its rule, a tick adds an event of its rule, and nothing else is written.
-/

namespace OpenObs.Alerts

open OpenObs.Foundation OpenObs.Resources OpenObs.Rules

def Anything {σ : Type} (_ _ : σ) : Prop := True

section Writes

variable {G : Tables → Tables → Prop} {id : String}

theorem holds_findById (hrefl : ∀ t, G t t) (t : Tables) :
    (Rules.AlertRuleRepository.findById id).Holds Anything G
      (fun r _ => ∀ rule, r = .ok (some rule) → rule.id = id) t := by
  rw [Rules.AlertRuleRepository.findById, Prog.holds_read]
  intro t _
  refine ⟨hrefl t, fun rule h => ?_⟩
  obtain ⟨row, hrow, rfl⟩ := Option.map_eq_some_iff.mp (Except.ok.inj h)
  have hid : row.id = id := by simpa using List.find?_some hrow
  exact hid

theorem holds_store {driver : Driver} {now : String} {patch : Json.Record} {existing : AlertRule}
    (hrefl : ∀ t, G t t)
    (hstore : ∀ t edit, Rules.AlertRuleRepository.merge driver now patch existing = .ok edit →
      G t (editRules id edit t)) (t : Tables) :
    (Rules.AlertRuleRepository.store driver now id patch existing).Holds Anything G
      (fun r _ => ∀ rule, r = .ok (some rule) → rule.id = id) t := by
  rw [Rules.AlertRuleRepository.store, Prog.holds_attempt]
  intro t _
  cases hmerge : Rules.AlertRuleRepository.merge driver now patch existing with
  | error e => exact ⟨hrefl t, fun rule h => by cases h⟩
  | ok edit =>
    refine ⟨hstore t edit hmerge, fun rule h => ?_⟩
    obtain ⟨row, hrow, rfl⟩ := Option.map_eq_some_iff.mp (Except.ok.inj h)
    have hid : row.id = id := by simpa using List.find?_some hrow
    exact hid

theorem holds_update {driver : Driver} {now : String} {patch : Json.Record}
    (hrefl : ∀ t, G t t)
    (hstore : ∀ t existing edit,
      Rules.AlertRuleRepository.merge driver now patch existing = .ok edit →
      G t (editRules id edit t)) (t : Tables) :
    (Rules.AlertRuleRepository.update driver now id patch).Holds Anything G
      (fun r _ => ∀ rule, r = .ok (some rule) → rule.id = id) t := by
  refine Prog.Holds.bind ((holds_findById hrefl t).post ?_)
  rintro (e | found) t' -
  · exact fun rule h => by cases h
  · cases found with
    | none => exact fun rule h => by cases h
    | some existing => exact holds_store hrefl (fun t edit => hstore t existing edit) t'

theorem holds_transition {p : Platform} {drawn : DrawnTransition} {newState : String}
    {value : Option ℚ} (hrefl : ∀ t, G t t)
    (hinsert : ∀ t entry, entry.ruleId = id →
      G t { t with alertHistory := t.alertHistory ++ [entry] })
    (hstore : ∀ t rule existing edit, Rules.AlertRuleRepository.merge p.driver drawn.updated
      (transitionPatch drawn.now newState rule) existing = .ok edit → G t (editRules id edit t))
    (t : Tables) :
    (AlertRuleRepository.transition p drawn id newState value).Holds Anything G
      (fun r _ => ∀ rule, r = .ok (some rule) → rule.id = id) t := by
  refine Prog.Holds.bind ((holds_findById hrefl t).post ?_)
  rintro (e | found) t₁ hfound
  · exact fun rule h => by cases h
  · cases found with
    | none => exact fun rule h => by cases h
    | some rule =>
      dsimp only
      split
      · exact hfound
      · rw [AlertRuleRepository.insertHistory, Prog.holds_attempt_bind]
        intro t₂ _
        cases hentry : AlertRuleRepository.historyEntry p drawn id newState value rule with
        | error e => exact ⟨hrefl t₂, fun rule h => by cases h⟩
        | ok entry =>
          dsimp only
          split
          · exact ⟨hrefl t₂, fun rule h => by cases h⟩
          · split
            · exact ⟨hrefl t₂, fun rule h => by cases h⟩
            · exact ⟨hinsert t₂ entry (historyEntry_fields hentry).2.1,
                holds_update hrefl (fun t existing edit => hstore t rule existing edit) _⟩

end Writes

/-! ## Ticks -/

section Ticks

open AlertEvaluatorService

variable {p : Platform} {tick : Tick} {G : Evaluation → Evaluation → Prop}

/-- What a guarantee has to allow for the `try` block of a tick. -/
structure Allows (G : Evaluation → Evaluation → Prop) (id : String) : Prop where
  refl : ∀ s, G s s
  insert : ∀ s entry, entry.ruleId = id →
    G s { s with db := { s.db with alertHistory := s.db.alertHistory ++ [entry] } }
  store : ∀ s edit, (∀ r, (edit r).id = r.id) → G s { s with db := editRules id edit s.db }
  emit : ∀ s payload, payload.ruleId = id → G s (s.emit payload)

theorem holds_settle (hG : Allows G tick.id) {value : ℚ} {next : Option String} (s : Evaluation) :
    (settle p tick value next).Holds Anything G (fun _ _ => True) s := by
  cases next with
  | none => trivial
  | some next =>
    have htransition := @holds_transition
      (fun t t' => ∀ s : Evaluation, s.db = t → G s { s with db := t' }) tick.id p (tick.drawn p)
      next (some value)
      (fun t s hs => by
        subst hs
        exact hG.refl s)
      (fun t entry hrule s hs => by
        subst hs
        exact hG.insert s entry hrule)
      (fun t rule existing edit hmerge s hs => by
        subst hs
        obtain ⟨_, -, hkeys⟩ := Rules.AlertRuleRepository.merge_ok hmerge
        exact hG.store s edit fun r => (hkeys r).1) s.db
    refine Prog.Holds.bind (Prog.Holds.zoom Evaluation.tables (fun _ _ _ => trivial)
      (fun s t h => h s rfl) (fun r s h => ?_) htransition)
    cases r with
    | error e => trivial
    | ok found =>
      cases found with
      | none => trivial
      | some updated =>
        dsimp only
        split
        · refine Prog.holds_write_bind.mpr fun s _ => ⟨hG.emit s _ (h updated rfl), ?_⟩
          exact Prog.holds_attempt.mpr fun s _ => ⟨hG.refl s, trivial⟩
        · trivial

theorem holds_evaluate (hG : Allows G tick.id) (s : Evaluation) :
    (evaluate p tick).Holds Anything G (fun _ _ => True) s := by
  have hread := @holds_findById (fun t t' => t' = t) tick.id (fun _ => rfl) s.db
  refine Prog.Holds.bind (Prog.Holds.zoom Evaluation.tables (fun _ _ _ => trivial)
    (fun s t h => ?_) (fun r s _ => ?_) hread)
  · subst h
    exact hG.refl s
  · cases r with
    | error e => trivial
    | ok found =>
      cases found with
      | none => trivial
      | some fresh =>
        dsimp only
        split
        · trivial
        · refine Prog.holds_attempt_bind.mpr fun s _ => ⟨hG.refl s, ?_⟩
          dsimp only
          cases tick.query fresh with
          | error e => trivial
          | ok sample =>
            cases sample with
            | none => trivial
            | some value =>
              dsimp only
              cases next p tick fresh value with
              | error e => trivial
              | ok next => exact holds_settle hG s

theorem holds_tickRule (hG : Allows G tick.id) (henter : ∀ s, G s (s.enter tick.id))
    (hleave : ∀ s, G s (s.leave tick.id)) (s : Evaluation) :
    (tickRule p tick).Holds Anything G (fun _ _ => True) s :=
  Prog.Holds.exclusive hG.refl henter hleave fun _ _ => holds_evaluate hG _

end Ticks

end OpenObs.Alerts
