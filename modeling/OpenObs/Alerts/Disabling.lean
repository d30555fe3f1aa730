import OpenObs.Alerts.History

/-!
# A disabled rule

A tick that has read a rule before it is disabled goes on with what it has read: it
asks its query, and if the sample asks for another state, it writes that state over
`disabled`. While no tick is that far, a disable lasts.
-/

namespace OpenObs.Alerts

open OpenObs.Foundation OpenObs.Resources OpenObs.Rules

/-! ## Ticks under way -/

section Moving

open AlertEvaluatorService

variable (p : Platform) (tick : Tick)

def answered (fresh : AlertRule) : Prog Evaluation Unit :=
  if fresh.state = "disabled" then return
  else do
    match ← Prog.attempt fun s => (tick.query fresh, s) with
    | none => return
    | some value =>
      match next p tick fresh value with
      | .error e => throw e
      | .ok next => settle p tick value next

def moved (value : ℚ) (newState : String) : Option AlertRule → Prog Evaluation Unit
  | none => return
  | some updated =>
    if newState = "firing" then do
      Prog.write (Evaluation.emit (firedPayload p tick value updated))
      Prog.attempt fun s => (tick.publish, s)
    else return

/-- The tick has read the rule, its sample asks for another state, and the transition or its
event is still to be written. -/
inductive Moving : Prog Evaluation Unit → Prop
  | ask {fresh : AlertRule} {value : ℚ} {newState : String}
      (asks : decision p tick fresh = some (value, newState)) : Moving (answered p tick fresh)
  | move {fresh : AlertRule} {value : ℚ} {newState : String}
      (asks : decision p tick fresh = some (value, newState)) {q : Prog Tables (Option AlertRule)}
      (remains : (AlertRuleRepository.transition p (tick.drawn p) tick.id newState
        (some value)).Remains q) (unfinished : q.finished = false) :
      Moving (q.zoom Evaluation.tables >>= moved p tick value newState)
  | emit {fresh : AlertRule} {value : ℚ} (asks : decision p tick fresh = some (value, "firing"))
      (updated : AlertRule) : Moving (moved p tick value "firing" (some updated))

theorem evaluate_eq : evaluate p tick =
    (Rules.AlertRuleRepository.findById tick.id).zoom Evaluation.tables >>= fun found =>
      match found with
      | none => return
      | some fresh => answered p tick fresh := rfl

theorem settle_eq (value : ℚ) (newState : String) : settle p tick value (some newState) =
    (AlertRuleRepository.transition p (tick.drawn p) tick.id newState (some value)).zoom
      Evaluation.tables >>= moved p tick value newState := rfl

end Moving

def MovingTick (p : Platform) (id : String) (th : Thread Evaluation LifecycleOp Unit) : Prop :=
  ∃ tick body, th.op = .tick tick ∧ tick.id = id ∧ Moving p tick body ∧
    th.prog = body.finalize (Evaluation.leave tick.id)

/-! ## What the sections do to a disabled rule -/

def Disabled (id : String) (s : Evaluation) : Prop :=
  ∃ row, s.db.findRuleById id = some row ∧ row.state = "disabled"

def eventsOf (id : String) (s : Evaluation) : List AlertFiredPayload :=
  s.fired.filter (·.ruleId = id)

def Quiet (id : String) (s s' : Evaluation) : Prop :=
  historyOf id s'.db = historyOf id s.db ∧ eventsOf id s' = eventsOf id s

def Mute (id : String) (s s' : Evaluation) : Prop :=
  s'.db.findRuleById id = s.db.findRuleById id ∧ Quiet id s s'

def Steady (id : String) (s s' : Evaluation) : Prop :=
  (Disabled id s → Disabled id s') ∧ Quiet id s s'

section Guarantees

variable {id : String} {s s' s'' : Evaluation}

theorem Quiet.refl (s : Evaluation) : Quiet id s s := ⟨rfl, rfl⟩

theorem Quiet.trans (h : Quiet id s s') (h' : Quiet id s' s'') : Quiet id s s'' :=
  ⟨h'.1.trans h.1, h'.2.trans h.2⟩

theorem Mute.refl (s : Evaluation) : Mute id s s := ⟨rfl, Quiet.refl s⟩

theorem Mute.disabled (h : Mute id s s') : Disabled id s' ↔ Disabled id s := by
  rw [Disabled, Disabled, h.1]

theorem Mute.steady (h : Mute id s s') : Steady id s s' := ⟨h.disabled.mpr, h.2⟩

theorem allows_mute {id' : String} (hne : id' ≠ id) : Allows (Mute id) id' where
  refl := Mute.refl
  insert s entry hrule := by
    obtain ⟨hfind, hhistory⟩ := (allows_aside hne).insert s entry hrule
    exact ⟨hfind, hhistory, rfl⟩
  store s edit hedit := by
    obtain ⟨hfind, hhistory⟩ := (allows_aside hne).store s edit hedit
    exact ⟨hfind, hhistory, rfl⟩
  emit s payload hrule := by
    refine ⟨rfl, rfl, ?_⟩
    have hnot : payload.ruleId ≠ id := hrule ▸ hne
    show (s.fired ++ [payload]).filter _ = s.fired.filter _
    rw [List.filter_append, List.filter_singleton]
    simp [hnot]

theorem holds_edit {driver : Driver} {now : String} {caller : Caller} {edit : RuleEdit}
    {G : Tables → Tables → Prop} (hrefl : ∀ t, G t t)
    (hstore : ∀ t existing edit',
      Rules.AlertRuleRepository.merge driver now edit.patch existing = .ok edit' →
      G t (editRules id edit' t)) (t : Tables) :
    (edit.code driver now caller id).Holds Anything G (fun _ _ => True) t := by
  have hload : ∀ t, (loadOwnedRule caller id).Holds Anything G (fun _ _ => True) t := by
    intro t
    refine Prog.Holds.bind_any ((holds_findById hrefl t).post fun _ _ _ => trivial) ?_
    rintro (- | rule) t'
    · trivial
    · dsimp only
      split <;> trivial
  have hupdate : ∀ t, (Rules.AlertRuleRepository.update driver now id edit.patch >>=
      fun updated => pure (updateReply updated)).Holds Anything G (fun _ _ => True) t := by
    intro t
    exact Prog.Holds.bind_any ((holds_update hrefl hstore t).post fun _ _ _ => trivial)
      fun _ _ => trivial
  have hgate : ∀ handler : Prog Tables Reply, (∀ t, handler.Holds Anything G (fun _ _ => True) t) →
      ∀ t, (requirePermission caller (.action "alert.rules:write" (ruleScope id)) handler).Holds
        Anything G (fun _ _ => True) t := by
    intro handler hhandler t
    refine Prog.holds_read_bind.mpr fun t' _ => ⟨hrefl t', ?_⟩
    split
    · exact hhandler t'
    · trivial
  cases edit with
  | put body =>
    refine hgate _ (fun t => Prog.Holds.bind_any (hload t) ?_) t
    rintro (- | rule) t'
    · trivial
    · dsimp only
      split
      · trivial
      · exact hupdate t'
  | disable =>
    refine hgate _ (fun t => Prog.Holds.bind_any (hload t) ?_) t
    rintro (- | rule) t'
    · trivial
    · dsimp only
      split
      · trivial
      · exact hupdate t'
  | enable =>
    refine hgate _ (fun t => Prog.Holds.bind_any (hload t) ?_) t
    rintro (- | rule) t'
    · trivial
    · exact hupdate t'

theorem holds_restOp {p : Platform} {caller : Caller} {now id' : String} {edit : RuleEdit}
    {G : Evaluation → Evaluation → Prop} (hrefl : ∀ s, G s s)
    (hstore : ∀ (s : Evaluation) existing edit',
      Rules.AlertRuleRepository.merge p.driver now edit.patch existing = .ok edit' →
      G s { s with db := editRules id' edit' s.db }) (s : Evaluation) :
    ((LifecycleOp.rest caller now id' edit).code p).Holds Anything G (fun _ _ => True) s := by
  have hedit := @holds_edit id' p.driver now caller edit
    (fun t t' => ∀ s : Evaluation, s.db = t → G s { s with db := t' })
    (fun t s hs => by
      subst hs
      exact hrefl s)
    (fun t existing edit' hmerge s hs => by
      subst hs
      exact hstore s existing edit' hmerge) s.db
  exact Prog.Holds.bind_any (Prog.Holds.zoom Evaluation.tables (fun _ _ _ => trivial)
    (fun s t h => h s rfl) (fun _ _ _ => trivial) hedit) fun _ _ => trivial

end Guarantees

/-! ## Programs -/

def Silenced (id : String) (prog : Prog Evaluation Unit) : Prop :=
  ∀ s, prog.Holds Anything (Mute id) (fun _ _ => True) s

def Harmless (id : String) (prog : Prog Evaluation Unit) : Prop :=
  ∀ s, prog.Holds Anything (Steady id) (fun _ _ => True) s

def Calm (id : String) (prog : Prog Evaluation Unit) : Prop :=
  ∀ s, prog.Holds (fun _ t => Disabled id t) (Steady id) (fun _ _ => True) s

section Programs

open AlertEvaluatorService

variable {p : Platform} {tick : Tick} {id : String} {prog : Prog Evaluation Unit}
  {f : Evaluation → Evaluation} {k : Evaluation → Prog Evaluation Unit}

theorem Silenced.harmless (h : Silenced id prog) : Harmless id prog := fun s =>
  (h s).mono (fun _ _ _ => trivial) (fun _ _ => Mute.steady) (fun _ _ _ => trivial)

theorem Harmless.calm (h : Harmless id prog) : Calm id prog := fun s =>
  (h s).mono (fun _ _ _ => trivial) (fun _ _ hg => hg) (fun _ _ _ => trivial)

theorem Silenced.step (h : Silenced id (.sect f k)) (s : Evaluation) :
    Mute id s (f s) ∧ Silenced id (k s) := by
  obtain ⟨hg, hk⟩ := h s s trivial
  exact ⟨hg, hk.anywhere (P := fun _ => True)⟩

theorem Harmless.step (h : Harmless id (.sect f k)) (s : Evaluation) :
    Steady id s (f s) ∧ Harmless id (k s) := by
  obtain ⟨hg, hk⟩ := h s s trivial
  exact ⟨hg, hk.anywhere (P := fun _ => True)⟩

theorem Calm.step (h : Calm id (.sect f k)) {s : Evaluation} (hs : Disabled id s) :
    Steady id s (f s) ∧ Calm id (k s) := by
  obtain ⟨hg, hk⟩ := h s s hs
  exact ⟨hg, hk.anywhere⟩

theorem silenced_leave {body : Prog Evaluation Unit} (h : Silenced id body) (id' : String) :
    Silenced id (body.finalize (Evaluation.leave id')) := fun s =>
  (h s).finalize fun _ => ⟨rfl, rfl, rfl⟩

theorem silenced_answered {fresh : AlertRule} (h : decision p tick fresh = none) :
    Silenced id (answered p tick fresh) := by
  intro s
  rw [answered]
  unfold decision at h
  split
  · trivial
  · rename_i hstate
    rw [if_neg hstate] at h
    refine Prog.holds_attempt_bind.mpr fun s _ => ⟨Mute.refl s, ?_⟩
    dsimp only
    cases hquery : tick.query fresh with
    | error e => trivial
    | ok sample =>
      cases sample with
      | none => trivial
      | some value =>
        rw [hquery] at h
        dsimp only at h ⊢
        cases hnext : next p tick fresh value with
        | error e => trivial
        | ok newState =>
          cases newState with
          | none => trivial
          | some newState =>
            rw [hnext] at h
            cases h

theorem answered_eq {fresh : AlertRule} {value : ℚ} {newState : String}
    (h : decision p tick fresh = some (value, newState)) :
    answered p tick fresh = .sect (fun s => s) fun _ => settle p tick value (some newState) := by
  unfold decision at h
  split at h
  · cases h
  · rename_i hstate
    cases hquery : tick.query fresh with
    | error e =>
      rw [hquery] at h
      cases h
    | ok sample =>
      cases sample with
      | none =>
        rw [hquery] at h
        cases h
      | some sampled =>
        rw [hquery] at h
        dsimp only at h
        split at h
        · rename_i hnext
          cases h
          rw [answered, if_neg hstate, hquery]
          show Prog.sect (fun s => s) (fun _ => match next p tick fresh value with
            | .error e => throw e
            | .ok next => settle p tick value next) = _
          rw [hnext]
        · cases h

theorem Moving.unfinished (h : Moving p tick prog) : prog.finished = false := by
  cases h with
  | ask asks =>
    rw [answered_eq asks]
    rfl
  | @move _ _ _ _ q _ unfinished =>
    cases q with
    | ret found => cases unfinished
    | fail e => cases unfinished
    | sect g next => rfl
  | emit asks updated => rfl

theorem Moving.step (h : Moving p tick (.sect f k)) (s : Evaluation) :
    (f s).inFlightRules = s.inFlightRules ∧ (Moving p tick (k s) ∨ Silenced tick.id (k s)) := by
  generalize hprog : Prog.sect f k = prog at h
  cases h with
  | ask asks =>
    rw [answered_eq asks] at hprog
    cases hprog
    refine ⟨rfl, Or.inl ?_⟩
    rw [settle_eq]
    exact .move asks .refl rfl
  | @move _ _ newState asks q remains unfinished =>
    cases q with
    | ret found => cases unfinished
    | fail e => cases unfinished
    | sect g next =>
      cases hprog
      refine ⟨rfl, ?_⟩
      have hleft := remains.step s.db
      show Moving p tick ((next s.db).zoom Evaluation.tables >>= moved p tick _ newState) ∨
        Silenced tick.id ((next s.db).zoom Evaluation.tables >>= moved p tick _ newState)
      cases hnext : next s.db with
      | ret found =>
        cases found with
        | none => exact Or.inr fun _ => trivial
        | some updated =>
          by_cases hfiring : newState = "firing"
          · subst hfiring
            exact Or.inl (.emit asks updated)
          · right
            show Silenced tick.id (if newState = "firing" then _ else _)
            rw [if_neg hfiring]
            exact fun _ => trivial
      | fail e => exact Or.inr fun _ => trivial
      | sect g' next' =>
        rw [hnext] at hleft
        exact Or.inl (.move asks hleft rfl)
  | emit asks updated =>
    cases hprog
    exact ⟨rfl, Or.inr fun _ => Prog.holds_attempt.mpr fun s _ => ⟨Mute.refl s, trivial⟩⟩

/-- A tick of the rule is at its start, about to read the rule, moving it, or has nothing left
to write. -/
def Placed (p : Platform) (tick : Tick) (prog : Prog Evaluation Unit) : Prop :=
  prog = tickRule p tick ∨ prog = (evaluate p tick).finalize (Evaluation.leave tick.id) ∨
    (∃ body, Moving p tick body ∧ prog = body.finalize (Evaluation.leave tick.id)) ∨
    Silenced tick.id prog

theorem Placed.step (h : Placed p tick (.sect f k)) (s : Evaluation) : Placed p tick (k s) := by
  rcases h with hfresh | hreading | ⟨body, hmoving, hbody⟩ | hsilenced
  · cases hfresh
    dsimp only
    cases s.inFlight tick.id with
    | true => exact Or.inr (Or.inr (Or.inr fun _ => trivial))
    | false => exact Or.inr (Or.inl rfl)
  · rw [evaluate_eq] at hreading
    cases hreading
    show Placed p tick (Prog.finalize (match (s.db.findRuleById tick.id).map rowToRule with
      | none => pure ()
      | some fresh => answered p tick fresh) (Evaluation.leave tick.id))
    cases (s.db.findRuleById tick.id).map rowToRule with
    | none => exact Or.inr (Or.inr (Or.inr (@silenced_leave tick.id (pure ()) (fun _ => trivial) _)))
    | some fresh =>
      cases hdecision : decision p tick fresh with
      | none => exact Or.inr (Or.inr (Or.inr (silenced_leave (silenced_answered hdecision) _)))
      | some asked => exact Or.inr (Or.inr (Or.inl ⟨_, .ask hdecision, rfl⟩))
  · cases body with
    | ret a =>
      cases hbody
      exact Or.inr (Or.inr (Or.inr fun _ => trivial))
    | fail e =>
      cases hbody
      exact Or.inr (Or.inr (Or.inr fun _ => trivial))
    | sect g next =>
      cases hbody
      rcases (hmoving.step s).2 with hnext | hnext
      · exact Or.inr (Or.inr (Or.inl ⟨_, hnext, rfl⟩))
      · exact Or.inr (Or.inr (Or.inr (silenced_leave hnext _)))
  · exact Or.inr (Or.inr (Or.inr (hsilenced.step s).2))

theorem calm_reading : Calm tick.id (evaluate p tick) := by
  intro s
  rw [evaluate_eq]
  rintro s ⟨row, hrow, hstate⟩
  refine ⟨(Mute.refl s).steady, ?_⟩
  have hread : (match (s.db.findRuleById tick.id).map rowToRule with
      | none => pure ()
      | some fresh => answered p tick fresh) = (pure () : Prog Evaluation Unit) := by
    have hstate' : (rowToRule row).state = "disabled" := hstate
    rw [hrow]
    dsimp only [Option.map_some]
    rw [answered, if_pos hstate']
  show Prog.Holds _ _ _ (match (s.db.findRuleById tick.id).map rowToRule with
    | none => pure ()
    | some fresh => answered p tick fresh) _
  rw [hread]
  trivial

theorem calm_tickRule : Calm tick.id (tickRule p tick) := fun _ =>
  Prog.Holds.exclusive (fun s => (Mute.refl s).steady) (fun _ => Mute.steady ⟨rfl, rfl, rfl⟩)
    (fun _ => Mute.steady ⟨rfl, rfl, rfl⟩) fun _ _ => calm_reading _

theorem Placed.calm (h : Placed p tick prog)
    (hnot : ¬ ∃ body, Moving p tick body ∧ prog = body.finalize (Evaluation.leave tick.id)) :
    Calm tick.id prog ∧ ∀ f k, prog = .sect f k → ∀ s, Mute tick.id s (f s) := by
  rcases h with hfresh | hread | hmoving | hsilenced
  · subst hfresh
    refine ⟨calm_tickRule, fun f k hprog s => ?_⟩
    cases hprog
    dsimp only
    split <;> exact ⟨rfl, rfl, rfl⟩
  · subst hread
    constructor
    · exact fun s => Prog.Holds.finalize (f := Evaluation.leave tick.id)
        (fun _ => Mute.steady ⟨rfl, rfl, rfl⟩) (calm_reading s)
    · intro f k hprog s
      cases hprog
      exact ⟨rfl, rfl, rfl⟩
  · exact absurd hmoving hnot
  · refine ⟨hsilenced.harmless.calm, fun f k hprog s => ?_⟩
    subst hprog
    exact (hsilenced.step s).1

end Programs

/-! ## The pool -/

def LifecycleOp.OnlyDisables (id : String) : LifecycleOp → Prop
  | .tick _ => True
  | .rest _ _ id' edit => id' = id → edit = .disable

/-- Ticks and requests are started at any time, with no request of the rule but `disable`; the
section that disables the rule runs while no tick is moving it. -/
structure Gentle (p : Platform) (id : String) (c : Config Evaluation LifecycleOp Unit)
    (l : Label LifecycleOp) : Prop where
  starts : ∀ o, l = .start o → o.OnlyDisables id
  stores : ∀ i c', l = .step i → c.next (LifecycleOp.code p) l = some c' →
    ¬ Disabled id c.st → Disabled id c'.st → ∀ th ∈ c.threads, ¬ MovingTick p id th

section Pool

variable {p : Platform} {id : String} {c c' : Config Evaluation LifecycleOp Unit}

theorem gentle_requests {i : ℕ} (h : ∀ th ∈ c.threads, ∀ tick, th.op ≠ .tick tick) : Gentle p id c (.step i) where
  starts o hl := by cases hl
  stores := by
    rintro - - - - - - th hth ⟨tick, -, hop, -⟩
    exact h th hth tick hop

theorem gentle_disabled {i : ℕ} (h : Disabled id c.st) : Gentle p id c (.step i) where
  starts o hl := by cases hl
  stores _ _ _ _ hwas _ := absurd h hwas

def Known (p : Platform) (id : String) (th : Thread Evaluation LifecycleOp Unit) : Prop :=
  (∃ tick, th.op = .tick tick ∧ tick.id = id ∧ Placed p tick th.prog) ∨ Harmless id th.prog

theorem harmless_disable (hd : Stores p.driver) {caller : Caller} {now : String} :
    Harmless id ((LifecycleOp.rest caller now id .disable).code p) := by
  refine holds_restOp (fun s => (Mute.refl s).steady) fun s existing edit' hmerge => ?_
  obtain ⟨_, -, hkeys⟩ := Rules.AlertRuleRepository.merge_ok hmerge
  refine ⟨?_, Quiet.refl s⟩
  rintro ⟨row, hrow, -⟩
  refine ⟨edit' row, ?_, ?_⟩
  · show (editRules id edit' s.db).findRuleById id = _
    rw [findRuleById_editRules fun r => (hkeys r).1, hrow]
    rfl
  · have hcell := Rules.AlertRuleRepository.written_of_merge hmerge row .state
    have hwritten : Column.written p.driver (RuleEdit.patch .disable) existing .state =
        .ok (.text "disabled") := by
      show Cell.text <$> (p.driver.text (.str "disabled") >>= _) = _
      rw [hd.text]
      rfl
    simpa [Column.cell] using hcell.symm.trans hwritten

theorem code_cases (hd : Stores p.driver) {o : LifecycleOp} (ho : o.OnlyDisables id) :
    (∃ tick, o = .tick tick ∧ tick.id = id) ∨ Harmless id (o.code p) := by
  cases o with
  | tick tick =>
    by_cases hid : tick.id = id
    · exact Or.inl ⟨tick, rfl, hid⟩
    · refine Or.inr (Silenced.harmless fun s => ?_)
      exact holds_tickRule (allows_mute hid) (fun _ => ⟨rfl, rfl, rfl⟩) (fun _ => ⟨rfl, rfl, rfl⟩) s
  | rest caller now id' edit =>
    by_cases hid : id' = id
    · subst hid
      rw [ho rfl]
      exact Or.inr (harmless_disable hd)
    · refine Or.inr (Silenced.harmless fun s => ?_)
      refine holds_restOp Mute.refl (fun s existing edit' hmerge => ?_) s
      obtain ⟨_, -, hkeys⟩ := Rules.AlertRuleRepository.merge_ok hmerge
      exact (allows_mute hid).store s edit' fun r => (hkeys r).1

theorem known_code (hd : Stores p.driver) {o : LifecycleOp} (ho : o.OnlyDisables id) :
    Known p id ⟨o, o.code p⟩ ∧ Calm id (o.code p) := by
  rcases code_cases hd ho with ⟨tick, rfl, rfl⟩ | hharmless
  · exact ⟨Or.inl ⟨tick, rfl, rfl, Or.inl rfl⟩, calm_tickRule⟩
  · exact ⟨Or.inr hharmless, hharmless.calm⟩

theorem Known.step {o : LifecycleOp} {f : Evaluation → Evaluation}
    {k : Evaluation → Prog Evaluation Unit} (h : Known p id ⟨o, .sect f k⟩) (s : Evaluation) :
    Known p id ⟨o, k s⟩ := by
  rcases h with ⟨tick, hop, hid, hplaced⟩ | hharmless
  · exact Or.inl ⟨tick, hop, hid, hplaced.step s⟩
  · exact Or.inr (hharmless.step s).2

theorem Known.calm {th : Thread Evaluation LifecycleOp Unit} (h : Known p id th)
    (hnot : ¬ MovingTick p id th) : Calm id th.prog := by
  rcases h with ⟨tick, hop, hid, hplaced⟩ | hharmless
  · subst hid
    exact (hplaced.calm fun ⟨body, hmoving, hbody⟩ => hnot ⟨tick, body, hop, rfl, hmoving, hbody⟩).1
  · exact hharmless.calm

structure Ordered (p : Platform) (id : String) (c : Config Evaluation LifecycleOp Unit) : Prop where
  known : ∀ th ∈ c.threads, Known p id th
  calm : Disabled id c.st → ∀ th ∈ c.threads, Calm id th.prog

theorem Ordered.start (hd : Stores p.driver) {o : LifecycleOp} (ho : o.OnlyDisables id)
    (h : Ordered p id c) (hn : c.next (LifecycleOp.code p) (.start o) = some c') :
    Ordered p id c' := by
  obtain ⟨hst, hth⟩ := Config.next_start hn
  obtain ⟨hknown, hcalm⟩ := known_code hd ho
  constructor
  case known =>
    intro th hmem
    rw [hth] at hmem
    rcases List.mem_append.mp hmem with hmem | hmem
    · exact h.known th hmem
    · rw [List.mem_singleton.mp hmem]
      exact hknown
  case calm =>
    intro hdis th hmem
    rw [hst] at hdis
    rw [hth] at hmem
    rcases List.mem_append.mp hmem with hmem | hmem
    · exact h.calm hdis th hmem
    · rw [List.mem_singleton.mp hmem]
      exact hcalm

theorem Ordered.step {i : ℕ} (h : Ordered p id c) (hok : Gentle p id c (.step i))
    (hn : c.next (LifecycleOp.code p) (.step i) = some c') : Ordered p id c' := by
  obtain ⟨o, f, k, hi, hst, hth⟩ := Config.next_step hn
  have hmem := List.mem_of_getElem? hi
  have hknown := h.known _ hmem
  constructor
  case known =>
    intro th hth'
    rw [hth] at hth'
    rcases List.mem_or_eq_of_mem_set hth' with hold | rfl
    · exact h.known th hold
    · exact hknown.step c.st
  case calm =>
    intro hdis th hth'
    rw [hth] at hth'
    by_cases hwas : Disabled id c.st
    · -- the rule was disabled before: everybody is calm already
      rcases List.mem_or_eq_of_mem_set hth' with hold | rfl
      · exact h.calm hwas th hold
      · exact ((h.calm hwas _ hmem).step hwas).2
    · -- this is the section that disables it: nobody is moving it
      have hnone := hok.stores i c' rfl hn hwas hdis
      rcases List.mem_or_eq_of_mem_set hth' with hold | rfl
      · exact (h.known th hold).calm (hnone th hold)
      · rcases hknown with ⟨tick, hop, hid, hplaced⟩ | hharmless
        · subst hid
          have hnot : ¬ ∃ body, Moving p tick body ∧
              Prog.sect f k = body.finalize (Evaluation.leave tick.id) :=
            fun ⟨body, hmoving, hbody⟩ =>
              hnone _ hmem ⟨tick, body, hop, rfl, hmoving, hbody⟩
          have hmute := (hplaced.calm hnot).2 f k rfl c.st
          rw [hst, hmute.disabled] at hdis
          exact absurd hdis hwas
        · exact (hharmless.step c.st).2.calm

theorem Ordered.next {l : Label LifecycleOp} (hd : Stores p.driver) (h : Ordered p id c)
    (hok : Gentle p id c l) (hn : c.next (LifecycleOp.code p) l = some c') : Ordered p id c' := by
  cases l with
  | start o => exact h.start hd (hok.starts o rfl) hn
  | step i => exact h.step hok hn

theorem Ordered.steady {l : Label LifecycleOp} (h : Ordered p id c) (hdis : Disabled id c.st)
    (hn : c.next (LifecycleOp.code p) l = some c') : Disabled id c'.st ∧ Quiet id c.st c'.st := by
  cases l with
  | start o =>
    rw [(Config.next_start hn).1]
    exact ⟨hdis, Quiet.refl _⟩
  | step i =>
    obtain ⟨o, f, k, hi, hst, -⟩ := Config.next_step hn
    obtain ⟨hkeeps, hquiet⟩ := ((h.calm hdis _ (List.mem_of_getElem? hi)).step hdis).1
    rw [hst]
    exact ⟨hkeeps hdis, hquiet⟩

theorem Ordered.of_run (hd : Stores p.driver) {s₀ : Evaluation}
    (h : Run (LifecycleOp.code p) (Gentle p id) ⟨s₀, []⟩ c) : Ordered p id c := by
  induction h with
  | init => exact ⟨fun th hth => (by cases hth), fun _ th hth => (by cases hth)⟩
  | tail l _ hok hn ih => exact ih.next hd hok hn

theorem Ordered.stays (hd : Stores p.driver) (h₀ : Ordered p id c) (hdis : Disabled id c.st)
    (h : Run (LifecycleOp.code p) (Gentle p id) c c') :
    Ordered p id c' ∧ Disabled id c'.st ∧ Quiet id c.st c'.st := by
  induction h with
  | init => exact ⟨h₀, hdis, Quiet.refl _⟩
  | tail l _ hok hn ih =>
    obtain ⟨hordered, hdis, hquiet⟩ := ih
    obtain ⟨hdis', hquiet'⟩ := hordered.steady hdis hn
    exact ⟨hordered.next hd hok hn, hdis', hquiet.trans hquiet'⟩

end Pool

/-- **A disabled rule stays disabled.** In a run of ticks and requests in which the rule is
disabled only while no tick is moving it, from any state in which it is disabled on it stays
so, no history row of it is appended, and no event of it is emitted. -/
theorem disabled_rule_stays (p : Platform) (hd : Stores p.driver) (id : String) (s₀ : Evaluation)
    (c c' : Config Evaluation LifecycleOp Unit)
    (h : Run (LifecycleOp.code p) (Gentle p id) ⟨s₀, []⟩ c)
    (h' : Run (LifecycleOp.code p) (Gentle p id) c c') (hdis : Disabled id c.st) :
    Disabled id c'.st ∧ Quiet id c.st c'.st :=
  ((Ordered.of_run hd h).stays hd hdis h').2

def disableFirst : List (Label LifecycleOp) :=
  [.start (.rest mainEditor "t1" "alert_1" .disable), .step 0, .step 0, .step 0, .step 0]

def tickAfter : List (Label LifecycleOp) :=
  [.start (.tick firstErrors), .step 1, .step 1, .step 1]

theorem disableFirst_gentle :
    AllOk (LifecycleOp.code utc) (Gentle utc "alert_1") ⟨errorStore, []⟩ disableFirst := by
  have hone : ∀ (st : Evaluation) (prog : Prog Evaluation Unit) (i : ℕ), Gentle utc "alert_1"
      ⟨st, [⟨.rest mainEditor "t1" "alert_1" .disable, prog⟩]⟩ (.step i) := by
    intro st prog i
    refine gentle_requests fun th hth tick hop => ?_
    rw [List.mem_singleton.mp hth] at hop
    cases hop
  refine ⟨⟨?_, fun i c' hl => (by cases hl)⟩, ?_⟩
  · rintro o ⟨⟩
    exact fun _ => rfl
  rintro c' ⟨⟩
  refine ⟨hone _ _ _, ?_⟩
  rintro c' ⟨⟩
  refine ⟨hone _ _ _, ?_⟩
  rintro c' ⟨⟩
  refine ⟨hone _ _ _, ?_⟩
  rintro c' ⟨⟩
  refine ⟨hone _ _ _, ?_⟩
  rintro c' ⟨⟩
  trivial

theorem disabled_rule_stays_ticked :
    ∃ c c', Config.exec (LifecycleOp.code utc) ⟨errorStore, []⟩ disableFirst = some c ∧
      c.exec (LifecycleOp.code utc) tickAfter = some c' ∧
      Disabled "alert_1" c'.st ∧ Quiet "alert_1" c.st c'.st := by
  refine ⟨_, _, rfl, rfl, ?_⟩
  refine disabled_rule_stays utc utc_reliable.stores "alert_1" errorStore _ _
    (Run.init.of_exec disableFirst_gentle rfl) (@Run.of_exec _ _ _ _ _ _ tickAfter _ _ .init ?_ rfl) ⟨_, rfl, rfl⟩
  refine ⟨⟨?_, fun i c' hl => (by cases hl)⟩, ?_⟩
  · rintro o ⟨⟩
    trivial
  rintro c' ⟨⟩
  refine ⟨gentle_disabled ⟨_, rfl, rfl⟩, ?_⟩
  rintro c' ⟨⟩
  refine ⟨gentle_disabled ⟨_, rfl, rfl⟩, ?_⟩
  rintro c' ⟨⟩
  refine ⟨gentle_disabled ⟨_, rfl, rfl⟩, ?_⟩
  rintro c' ⟨⟩
  trivial

def tickOver : List (Label LifecycleOp) :=
  [.start (.tick firstErrors), .step 0, .step 0, .step 0,
    .start (.rest mainEditor "t1" "alert_1" .disable), .step 1, .step 1, .step 1, .step 1]

def restOfTick : List (Label LifecycleOp) := [.step 0, .step 0, .step 0, .step 0, .step 0]

def storedState (s : Evaluation) : Option String :=
  (s.db.findRuleById "alert_1").map (·.state)

/-- The rule is disabled while a tick has its sample: the tick takes it out of `disabled`. -/
theorem disable_overwritten :
    ¬ ∀ (p : Platform), Stores p.driver → ∀ (id : String) (s₀ : Evaluation)
      (c c' : Config Evaluation LifecycleOp Unit),
      Run (LifecycleOp.code p) (fun _ l => ∀ o, l = .start o → o.OnlyDisables id) ⟨s₀, []⟩ c →
      Run (LifecycleOp.code p) (fun _ l => ∀ o, l = .start o → o.OnlyDisables id) c c' →
      Disabled id c.st → Disabled id c'.st ∧ Quiet id c.st c'.st := by
  intro hall
  have hstarts : ∀ ls : List (Label LifecycleOp), ls = tickOver ∨ ls = restOfTick → ∀ l ∈ ls,
      ∀ o, l = .start o → o.OnlyDisables "alert_1" := by
    rintro _ (rfl | rfl) l hl o rfl
    · simp only [tickOver, List.mem_cons, Label.start.injEq, reduceCtorEq, List.not_mem_nil,
        or_false, false_or] at hl
      rcases hl with rfl | rfl
      · trivial
      · exact fun _ => rfl
    · simp [restOfTick] at hl
  have hexec : (Config.exec (LifecycleOp.code utc) ⟨errorStore, []⟩ tickOver).bind (fun c =>
      (c.exec (LifecycleOp.code utc) restOfTick).map fun c' =>
        (storedState c.st, storedState c'.st)) = some (some "disabled", some "pending") := by
    decide +kernel
  obtain ⟨c, hc, hrest⟩ := Option.bind_eq_some_iff.mp hexec
  obtain ⟨c', hc', hstates⟩ := Option.map_eq_some_iff.mp hrest
  obtain ⟨hdisabled, hpending⟩ := Prod.mk.inj hstates
  obtain ⟨row, hrow, hstate⟩ := Option.map_eq_some_iff.mp hdisabled
  obtain ⟨⟨row', hrow', hstate'⟩, -⟩ := hall utc utc_reliable.stores "alert_1" errorStore c c'
    (Run.init.of_exec (allOk_of_mem tickOver (hstarts _ (Or.inl rfl)) _) hc)
    (Run.init.of_exec (allOk_of_mem restOfTick (hstarts _ (Or.inr rfl)) _) hc') ⟨row, hrow, hstate⟩
  rw [storedState, hrow', Option.map_some, hstate'] at hpending
  exact absurd hpending (by decide)

/-! ## Between the ticks -/

section Idle

open AlertEvaluatorService

variable {p : Platform} {id : String} {c c' : Config Evaluation LifecycleOp Unit}

def LifecycleOp.marked (p : Platform) : LifecycleOp → Prog Evaluation Unit
  | .tick t => evaluate p t
  | .rest _ _ _ _ => return

end Idle

end OpenObs.Alerts
